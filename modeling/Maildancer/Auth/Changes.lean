import Maildancer.Auth.Server

namespace Maildancer.Auth

open Function Text Passwd Admin Domains

-- A password that counts is not refused as unknown or wrong, and one that does not count is refused.
def TakesEffect (accepted : Bool) (outcome : Except AuthError AuthSession) : Prop :=
  if accepted then outcome ≠ .error .userNotFound ∧ outcome ≠ .error .authFailed
  else ∀ session, outcome ≠ .ok session

instance (accepted : Bool) (outcome : Except AuthError AuthSession) : Decidable (TakesEffect accepted outcome) :=
  match accepted, outcome with
  | true, .ok _ => isTrue ⟨nofun, nofun⟩
  | true, .error e =>
    decidable_of_iff (e ≠ .userNotFound ∧ e ≠ .authFailed) (by simp [TakesEffect])
  | false, .ok session => isFalse fun h => h session rfl
  | false, .error _ => isTrue fun _ => nofun

section Outcome

variable {h : Hasher} {agent : Agent} {username password : Bytes}

lemma takesEffect_error {e : AuthError} (accepted : Bool) (hu : e ≠ .userNotFound) (hw : e ≠ .authFailed) :
    TakesEffect accepted (.error e) := by
  cases accepted with
  | true => exact ⟨fun heq => hu (Except.error.inj heq), fun heq => hw (Except.error.inj heq)⟩
  | false => exact fun _ => nofun

variable {accepted : Bool}

lemma takesEffect_map {outcome : Except AuthError AuthSession} (f : AuthSession → AuthSession) :
    TakesEffect accepted (outcome.map f) ↔ TakesEffect accepted outcome := by
  rcases outcome with e | session
  · exact Iff.rfl
  · cases accepted <;> simp [TakesEffect, Except.map]

lemma authenticate_takesEffect (keys : KeyResult) :
    TakesEffect (agent.accepts h username password) (agent.authenticate h keys username password) := by
  unfold Agent.accepts Agent.authenticate
  rcases agent.lookup username with _ | entry
  · exact fun _ => nofun
  dsimp only [Option.any_some]
  cases h.verifyPassword password entry.hash with
  | false => exact fun _ => nofun
  | true => cases keys <;> exact ⟨nofun, nofun⟩

lemma accepts_of_takesEffect
    (he : TakesEffect accepted (agent.authenticate h .notFound username password)) :
    agent.accepts h username password = accepted := by
  unfold Agent.authenticate at he
  unfold Agent.accepts
  rcases hl : agent.lookup username with _ | entry
  · rw [hl] at he
    cases accepted with
    | true => exact absurd rfl he.1
    | false => rfl
  · rw [hl] at he
    dsimp only [Option.any_some] at he ⊢
    rcases hv : h.verifyPassword password entry.hash with _ | _
    · rw [hv] at he
      cases accepted with
      | true => exact absurd rfl he.2
      | false => rfl
    · rw [hv] at he
      cases accepted with
      | true => rfl
      | false => exact absurd rfl (he _)

end Outcome

namespace Server

variable (srv : Server)

-- A file says what the administrators have set, and an open agent what they had set before.
structure Tracks (s : State) : Prop where
  ended : ∀ domain, validDomainName domain = true → Terminated (existing (s.files (srv.admin.passwdPath domain)))
  file : ∀ domain agent, validDomainName domain = true →
    newAgent (s.files (srv.admin.passwdPath domain)) = some agent →
    ∀ username password, agent.accepts srv.hasher username password = s.accounts domain username password
  agent : ∀ name dom agent domain, s.agents name = some (some agent) → srv.domainNamed name = some dom →
    validDomainName domain = true → dom.credentialBackend = srv.admin.passwdPath domain →
    ∀ username password, agent.accepts srv.hasher username password = s.seen name domain username password

variable {files : Files} {dom : Domain} {file : ReadResult} {readable : Bool}
  {domain name : Bytes}

lemma tracks_start
    (he : ∀ domain, validDomainName domain = true → Terminated (existing (files (srv.admin.passwdPath domain)))) :
    srv.Tracks (srv.start files) := by
  refine ⟨he, fun domain agent _ ha username password => ?_, nofun⟩
  have ha : newAgent (files (srv.admin.passwdPath domain)) = some agent := ha
  simp [start, ha]

variable {srv} {s : State}

lemma openAuthAgent_some {agent : Agent}
    (ho : openAuthAgent dom file = some agent) : newAgent file = some agent := by
  unfold openAuthAgent at ho
  by_cases hb : dom.authType ≠ ascii "passwd" ∨ dom.credentialBackend = [] ∨ dom.keyBackend = []
  · rw [if_pos hb] at ho
    cases ho
  · rwa [if_neg hb] at ho

lemma newAgent_readable {agent : Agent}
    (hn : newAgent (if readable then file else .failed) = some agent) : newAgent file = some agent := by
  cases readable with
  | true => exact hn
  | false => cases hn

lemma Tracks.open_accepts (ht : srv.Tracks s) {agent : Agent}
    (ho : openAuthAgent dom (if readable then s.files dom.credentialBackend else .failed) = some agent)
    (hv : validDomainName domain = true) (hb : dom.credentialBackend = srv.admin.passwdPath domain)
    (username password : Bytes) :
    agent.accepts srv.hasher username password = s.accounts domain username password := by
  have hn := newAgent_readable (openAuthAgent_some ho)
  rw [hb] at hn
  exact ht.file domain agent hv hn username password

lemma Tracks.init (ht : srv.Tracks s) (hd : srv.domainNamed name = some dom)
    (readable : Bool) : srv.Tracks (s.init name dom readable).1 := by
  unfold State.init
  rcases ha : s.agents name with _ | agent
  · refine ⟨ht.ended, ht.file, ?_⟩
    intro other dom' agent domain ho hdom' hv hb username password
    dsimp only at ho ⊢
    by_cases hn : other = name
    · subst hn
      rw [update_self] at ho ⊢
      obtain rfl := Option.some.inj (hd.symm.trans hdom')
      exact ht.open_accepts (Option.some.inj ho) hv hb username password
    · rw [update_of_ne hn] at ho ⊢
      exact ht.agent other dom' agent domain ho hdom' hv hb username password
  · exact ht

lemma Tracks.edited (ht : srv.Tracks s) {username : Bytes} {accepted : Bytes → Bool}
    (hs : srv.admin.Sets srv.hasher s.files files domain username accepted) :
    srv.Tracks (s.edited domain username accepted files) := by
  obtain ⟨text, hte, hp⟩ := hs.sets
  have ho : ∀ other, validDomainName other = true → other ≠ domain →
      files _ = s.files _ := fun other hv hne =>
    hs.other _ fun hpa => hne (srv.admin.passwdPath_inj hv hs.valid hpa)
  refine ⟨fun other hv => ?_, fun other agent hv ha name password => ?_, ht.agent⟩
  · dsimp only [State.edited]
    by_cases hd : other = domain
    · rw [hd, hte]
      exact hp.terminated
    · rw [ho other hv hd]
      exact ht.ended other hv
  · dsimp only [State.edited, Accounts.set] at ha ⊢
    by_cases hd : other = domain
    · subst hd
      obtain ⟨before, hb⟩ := hp.readable
      rw [hte] at ha
      rw [hp.accepts before agent hb ha, update_self]
      by_cases hn : name = username
      · rw [if_pos hn, hn, update_self]
      · rw [if_neg hn, update_of_ne hn]
        exact ht.file other before hv hb name password
    · rw [update_of_ne hd]
      rw [ho other hv hd] at ha
      exact ht.file other agent hv ha name password

lemma Tracks.step {t : State} {event : Event} (ht : srv.Tracks s) (h : srv.step s event = some t) :
    srv.Tracks t := by
  rcases srv.step_cases ht.ended h with rfl | ⟨name, dom, readable, hd, rfl⟩ |
    ⟨domain, username, accepted, files, hs, rfl⟩ | rfl
  · exact ht
  · exact ht.init hd readable
  · exact ht.edited hs
  · exact ⟨ht.ended, ht.file, nofun⟩

lemma authenticateWithDomain_domain (s : State) (call : AuthCall) {base : Bytes}
    (hr : srv.route call.username = .domain name base) (hd : srv.domainNamed name = some dom) (accepted : Bool) :
    TakesEffect accepted (srv.authenticateWithDomain s call).2 ↔
      (call.limited = false → ∀ agent, (s.init name dom call.readable).2 = some agent →
        TakesEffect accepted (agent.authenticate srv.hasher call.keys base call.password)) := by
  unfold authenticateWithDomain
  rcases hl : call.limited with _ | _
  · simp only [Bool.false_eq_true, ite_false, hr, authenticateAt, hd, true_imp_iff]
    rcases hi : s.init name dom call.readable with ⟨next, agent⟩
    cases agent with
    | none => simpa using takesEffect_error accepted (by decide) (by decide)
    | some agent =>
      rw [takesEffect_map]
      exact ⟨fun he _ heq => Option.some.inj heq ▸ he, fun he => he agent rfl⟩
  · simpa using takesEffect_error accepted (by decide) (by decide)

-- Changes take effect at the agent of a domain unless it was opened when the user's passwords were others.
theorem changes_take_effect_iff (srv : Server) {files : Files} {s : State} {username name base domain : Bytes}
    {dom : Domain}
    (hended : ∀ domain, validDomainName domain = true → Terminated (existing (files (srv.admin.passwdPath domain))))
    (hreach : Reaches srv.step (fun _ _ => True) (srv.start files) s)
    (hroute : srv.route username = .domain name base) (hdom : srv.domainNamed name = some dom)
    (hvalid : validDomainName domain = true) (hbackend : dom.credentialBackend = srv.admin.passwdPath domain) :
    (∀ password limited keys readable, TakesEffect (s.accounts domain base password)
        (srv.authenticateWithDomain s ⟨username, password, limited, keys, readable⟩).2) ↔
      s.agents name = none ∨ s.agents name = some none ∨ s.seen name domain base = s.accounts domain base := by
  have ht : srv.Tracks s := hreach.invariant (srv.tracks_start hended) fun _ _ _ ht _ h => ht.step h
  have ha := fun (password : Bytes) (limited : Bool) (keys : KeyResult) (readable : Bool) =>
    authenticateWithDomain_domain s ⟨username, password, limited, keys, readable⟩ hroute hdom
      (s.accounts domain base password)
  simp only [ha]
  cases hag : s.agents name with
  | none =>
    -- the agent will be opened on the file as it is
    refine iff_of_true (fun password _ keys readable _ agent hae => ?_) (.inl rfl)
    have ho : openAuthAgent dom (if readable then s.files dom.credentialBackend else .failed) = some agent := by
      simpa only [State.init, hag] using hae
    rw [← ht.open_accepts ho hvalid hbackend base password]
    exact authenticate_takesEffect keys
  | some opened =>
    have hi : ∀ readable, (s.init name dom readable).2 = opened := fun _ => by simp [State.init, hag]
    rcases opened with _ | agent
    · refine iff_of_true (fun _ _ _ readable _ agent hae => ?_) (.inr (.inl rfl))
      rw [hi] at hae
      cases hae
    have hac := ht.agent name dom agent domain hag hdom hvalid hbackend base
    simp only [hi, Option.some.injEq, forall_eq', reduceCtorEq, false_or]
    constructor
    · intro he
      funext password
      rw [← hac]
      exact accepts_of_takesEffect (he password false .notFound true rfl)
    · intro hs password _ keys _ _
      rw [← hs, ← hac]
      exact authenticate_takesEffect keys

end Server

section Sample

def spell (password : Bytes) : Bytes := password.flatMap fun b => [64 + b / 16, 64 + b % 16]

lemma spell_inj {password other : Bytes} (h : spell password = spell other) : password = other := by
  have hby : ∀ a b : UInt8, 64 + a / 16 = 64 + b / 16 → 64 + a % 16 = 64 + b % 16 → a = b := by
    intro a b hh hl
    simp only [← UInt8.toNat_inj, UInt8.toNat_add, UInt8.toNat_div, UInt8.toNat_mod, UInt8.reduceToNat] at hh hl ⊢
    have ha := a.toNat_lt
    have hb := b.toNat_lt
    omega
  induction password generalizing other with
  | nil =>
    cases other with
    | nil => rfl
    | cons b other => cases h
  | cons a password ih =>
    cases other with
    | nil => cases h
    | cons b other =>
      simp only [spell, List.flatMap_cons, List.cons_append, List.nil_append, List.cons.injEq] at h
      rw [hby a b h.1 h.2.1, ih h.2.2]

lemma mem_spell {password : Bytes} {b : UInt8} (h : b ∈ spell password) : 64 ≤ b ∧ b ≤ 79 := by
  obtain ⟨a, -, hb⟩ := List.mem_flatMap.mp h
  have ha := a.toNat_lt
  simp only [List.mem_cons, List.not_mem_nil, or_false] at hb
  rcases hb with rfl | rfl
  all_goals
    simp only [UInt8.le_iff_toNat_le, UInt8.toNat_add, UInt8.toNat_div, UInt8.toNat_mod, UInt8.reduceToNat]
    omega

lemma spell_graphic {password : Bytes} {b : UInt8} (hb : b ∈ spell password) : Graphic b := by
  obtain ⟨hl, hh⟩ := mem_spell hb
  simp only [UInt8.le_iff_toNat_le, UInt8.reduceToNat] at hl hh
  simp only [Graphic, UInt8.le_iff_toNat_le, UInt8.reduceToNat]
  omega

lemma colon_notMem_spell (password : Bytes) : colon ∉ spell password :=
  fun hm => absurd (mem_spell hm).1 (by decide)

def speller : Hasher where
  hashPassword password _ := spell password
  verifyPassword password hash := spell password = hash
  verify_hash _ _ _ := decide_eq_decide.mpr ⟨spell_inj, congrArg spell⟩
  hash_graphic _ _ _ hb := spell_graphic hb
  colon_notMem_hash password _ := colon_notMem_spell password

def sampleServer : Server where
  hasher := speller
  caseMap := .asciiOnly
  order := .same
  provider := {
    basePath := ascii "/c"
    dataPath := []
    defaults := some { DomainConfig.empty with
      auth := ⟨ascii "passwd", ascii "passwd", ascii "keys"⟩
      msgStore := ⟨ascii "maildir", ascii "users", []⟩ }
    baseDefaults := none
    domainOverrides := fun _ => none
    postmaster := none }
  tree := ⟨fun _ => false, fun _ => .missing, fun _ => .notExist⟩
  hasDomains := true
  fallback := ⟨[]⟩
  admin := ⟨ascii "/c", ascii "/d"⟩
  domainExists := fun _ => true

def sampleCall : AuthCall := ⟨ascii "alice@a.org", ascii "password", false, .notFound, true⟩

def sampleCreation : Event := .createUser (ascii "a.org") (ascii "alice") (ascii "password") []

end Sample

theorem changes_take_effect_iff_new_user :
    ∃ s, Reaches sampleServer.step (fun _ _ => True) (sampleServer.start fun _ => .notExist) s ∧
      s.accounts (ascii "a.org") (ascii "alice") (ascii "password") = true ∧
      ∀ password limited keys readable, TakesEffect (s.accounts (ascii "a.org") (ascii "alice") password)
        (sampleServer.authenticateWithDomain s ⟨ascii "alice@a.org", password, limited, keys, readable⟩).2 := by
  have hr : ((runSteps sampleServer.step (sampleServer.start fun _ => .notExist) [sampleCreation]).any fun s =>
      s.accounts (ascii "a.org") (ascii "alice") (ascii "password") && (s.agents (ascii "a.org")).isNone) = true := by
    decide +kernel
  obtain ⟨s, hs, hc⟩ := (Option.any_eq_true _ _).mp hr
  rw [Bool.and_eq_true, Option.isNone_iff_eq_none] at hc
  have hre : Reaches sampleServer.step (fun _ _ => True) (sampleServer.start fun _ => .notExist) s :=
    .of_runSteps (fun _ _ _ => trivial) hs
  exact ⟨s, hre, hc.1, (sampleServer.changes_take_effect_iff (fun _ _ => .inl rfl) hre
    (show sampleServer.route (ascii "alice@a.org") = .domain (ascii "a.org") (ascii "alice") by decide +kernel)
    rfl (by decide) (by decide +kernel)).mpr (.inl hc.2)⟩

-- The agent was opened before the user was deleted.
theorem deleted_user_logs_in :
    ∃ s, Reaches sampleServer.step (fun _ _ => True) (sampleServer.start fun _ => .notExist) s ∧
      s.accounts (ascii "a.org") (ascii "alice") (ascii "password") = false ∧
      (sampleServer.authenticateWithDomain s sampleCall).2.toOption =
        some ⟨ascii "alice", ascii "alice@a.org", false⟩ := by
  have hr : ((runSteps sampleServer.step (sampleServer.start fun _ => .notExist)
      [sampleCreation, .authenticate sampleCall, .deleteUser (ascii "a.org") (ascii "alice")]).any fun s =>
      !s.accounts (ascii "a.org") (ascii "alice") (ascii "password") &&
        (sampleServer.authenticateWithDomain s sampleCall).2.toOption =
          some ⟨ascii "alice", ascii "alice@a.org", false⟩) = true := by
    decide +kernel
  obtain ⟨s, hs, hst⟩ := (Option.any_eq_true _ _).mp hr
  rw [Bool.and_eq_true, Bool.not_eq_true', decide_eq_true_eq] at hst
  exact ⟨s, .of_runSteps (fun _ _ _ => trivial) hs, hst⟩

end Maildancer.Auth

import Maildancer.MailRemote.Failover

namespace Maildancer.MailRemote

open List Text

def noRecords {α : Type} : Except DnsError (List α) → Bool
  | .error (.notFound _) => true
  | .ok [] => true
  | _ => false

-- The grounds on which a recipient may be given up at once.
inductive Ground (w : World) (req : Request) (run : Run) (path : Bytes) : Prop
  | nullMX (mxs : List MX) (hlookup : w.resolver.lookupMX req.domain = .ok mxs) (hnull : isNullMX mxs = true)
  | noDomain (hmx : noRecords (w.resolver.lookupMX req.domain) = true)
      (hhost : noRecords (w.resolver.lookupHost req.domain) = true)
  | verdict (x : Transmission) (code : Nat) (hx : x ∈ run.sent) (hpath : x.env.path = path)
      (hending : x.answers.ending = .verdict code) (hcode : 500 ≤ code)
  | oversize (hosts : List Host) (hlookup : lookup w.resolver w.sorting req.domain = .ok hosts)
      (hall : ∀ h ∈ hosts, ∃ a ∈ run.tried, a.host = h ∧ a.contact = .oversize)

def Grounded (w : World) (req : Request) (run : Run) : Prop :=
  ∀ path err, run.results.lookup path = some (some err) → err.isPermanent = true → Ground w req run path

def hasUsableMX (w : World) (req : Request) : Prop :=
  ∃ mxs, w.resolver.lookupMX req.domain = .ok mxs ∧ usableHosts w.sorting mxs ≠ []

def hasAddress (w : World) (req : Request) : Prop :=
  ∃ addrs, w.resolver.lookupHost req.domain = .ok addrs ∧ addrs ≠ []

-- Where neither lookup gives a host, both have established that, or the domain publishes a null MX.
def LookupFair (w : World) (req : Request) : Prop :=
  ¬ hasUsableMX w req → ¬ hasAddress w req →
    (∃ mxs, w.resolver.lookupMX req.domain = .ok mxs ∧ isNullMX mxs = true) ∨
      noRecords (w.resolver.lookupMX req.domain) = true ∧ noRecords (w.resolver.lookupHost req.domain) = true

def contactOf (w : World) (dialer : Dialer) (bodySize attempt : Nat) (h : Host) : Contact :=
  match dialer.dial (w.lines attempt h.addr) h.addr with
  | .error _ => .failed
  | .ok conn => if (checkSize conn.session bodySize).isSome then .oversize else .connected conn.channel

-- No host has refused the envelope for good.
def Loop.Undecided (s : Loop) (env : Envelope) : Prop :=
  env ∈ s.pending ∧ ∀ x ∈ s.sent, x.env.path = env.path → ∀ code, x.answers.ending = .verdict code → code < 500

-- If the last host of the loop is reached with such an envelope and refuses the
-- size, all hosts of the domain are tried and refuse it.
def SizeFair (c : CaseMap) (w : World) (req : Request) : Prop :=
  ∀ hosts selected dialer bodySize front last, lookup w.resolver w.sorting req.domain = .ok hosts →
    selectHosts c req hosts = .ok (selected, dialer) → w.body = .ok bodySize →
    selected.take maxMXAttempts = front ++ [last] →
    (∃ env, (tryHosts w req dialer bodySize front (.start req.envs)).Undecided env) →
    contactOf w dialer bodySize front.length last = .oversize →
    ∀ h ∈ hosts, ∃ k, (selected.take maxMXAttempts)[k]? = some h ∧
      contactOf w dialer bodySize k h = .oversize

variable {err : Err} {path : Bytes}

lemma noMX_of_lookup_error {w : World} {req : Request}
    (h : lookup w.resolver w.sorting req.domain = .error err) : err.isMxPermanent = true ∧
      ((∃ mxs, w.resolver.lookupMX req.domain = .ok mxs ∧ isNullMX mxs = true) ∨
        ¬ hasUsableMX w req ∧ ¬ hasAddress w req) := by
  have ha : ∀ err, lookupAddress w.resolver req.domain = .error err →
      err.isMxPermanent = true ∧ ¬ hasAddress w req := by
    intro err h
    unfold lookupAddress at h
    split at h
    · cases h
    next addrs he =>
      obtain rfl := Except.error.inj h
      refine ⟨rfl, fun hh => ?_⟩
      obtain ⟨found, hf, hne⟩ := hh
      obtain ⟨addr, rest, rfl⟩ := exists_cons_of_ne_nil hne
      exact he addr rest hf
  unfold lookup at h
  split at h
  · next mxs hm =>
      split_ifs at h with hn hu
      · obtain rfl := Except.error.inj h
        exact ⟨rfl, Or.inl ⟨mxs, hm, hn⟩⟩
      obtain ⟨hp, hno⟩ := ha err h
      refine ⟨hp, Or.inr ⟨fun hh => ?_, hno⟩⟩
      obtain ⟨found, hf, hne⟩ := hh
      rw [hm] at hf
      cases hf
      exact hne hu
  · next dnsErr hm =>
      obtain ⟨hp, hno⟩ := ha err h
      refine ⟨hp, Or.inr ⟨fun hh => ?_, hno⟩⟩
      obtain ⟨found, hf, -⟩ := hh
      rw [hm] at hf
      cases hf

lemma fair_of_lookup_ok {w : World} {req : Request} {hosts : List Host}
    (h : lookup w.resolver w.sorting req.domain = .ok hosts) : LookupFair w req := by
  intro hu ha
  unfold lookup at h
  have hn : ∀ hosts, lookupAddress w.resolver req.domain ≠ .ok hosts := by
    intro hosts h
    unfold lookupAddress at h
    split at h
    · next addr rest had => exact ha ⟨_, had, cons_ne_nil _ _⟩
    · cases h
  split at h
  · next mxs hm =>
      split_ifs at h with hnu he
      · exact absurd h (hn hosts)
      · exact absurd ⟨mxs, hm, he⟩ hu
  · exact absurd h (hn hosts)

lemma dial_temporary {dialer : Dialer} {lines : Nat → Line} {addr : Bytes}
    (h : dialer.dial lines addr = .error err) : err.isPermanent = false := by
  have hg : ∀ message channel line, greet message channel line = .error err → err.isPermanent = false := by
    intro message channel line h
    unfold greet at h
    split at h
    · obtain rfl := Except.error.inj h
      rfl
    · cases h
  have htcp : ∀ line e, dialTCP addr line = some e → e.isPermanent = false := by
    intro line e h
    obtain ⟨f, -, rfl⟩ := Option.map_eq_some_iff.mp h
    rfl
  cases dialer with
  | dialMX =>
    simp only [Dialer.dial, dialMX] at h
    split at h
    · next e ht =>
        obtain rfl := Except.error.inj h
        exact htcp _ _ ht
    split at h
    · exact hg _ _ _ h
    split at h
    · next e htc =>
        obtain rfl := Except.error.inj h
        exact htcp _ _ htc
    split at h
    · exact hg _ _ _ h
    split at h
    · next e htp =>
        obtain rfl := Except.error.inj h
        exact htcp _ _ htp
    · exact hg _ _ _ h
  | dialMXStrict =>
    simp only [Dialer.dial, dialMXStrict] at h
    split at h
    · next e ht =>
        obtain rfl := Except.error.inj h
        exact htcp _ _ ht
    split at h
    · obtain rfl := Except.error.inj h
      rfl
    · exact hg _ _ _ h

lemma checkSize_permanent {s : Session} {bodyBytes : Nat} (h : checkSize s bodyBytes = some err) :
    err.isPermanent = true := by
  unfold checkSize at h
  split at h
  · cases h
  · split_ifs at h
    cases h
    rfl

section Session

variable {bodyPath : Bytes} {s : Session} {conn : Nat} {maxTxn : Int}

lemma cause_deliverAll (i : Nat) (envs : List Envelope) (results : Results) :
    (deliverAll bodyPath s conn maxTxn i envs results).retryable ≠ [] →
      ∃ err, (deliverAll bodyPath s conn maxTxn i envs results).cause = some err ∧ err.isPermanent = false := by
  apply @deliverAll_rule bodyPath s conn maxTxn (fun _ _ out =>
    out.retryable ≠ [] → ∃ err, out.cause = some err ∧ err.isPermanent = false)
  · intro results hne
    exact absurd rfl hne
  · intro env rest results hne
    exact absurd rfl hne
  · intro env rest results a err _ ht _
    exact ⟨err, rfl, ht⟩
  · intro env rest results a err _ ht _
    exact ⟨err, rfl, ht⟩
  · intro env rest results a out _ ih hne
    exact ih hne

lemma permanent_deliverAll (i : Nat) (envs : List Envelope) (results : Results)
    (hp : err.isPermanent = true) :
    (deliverAll bodyPath s conn maxTxn i envs results).results.lookup path = some (some err) →
      results.lookup path = some (some err) ∨
      ∃ x ∈ (deliverAll bodyPath s conn maxTxn i envs results).sent, x.env.path = path ∧
        ∃ code, x.answers.ending = .verdict code ∧ 500 ≤ code := by
  have hi : ∀ (env : Envelope) (a : Answers) (results : Results),
      (results.insert env.path (deliver bodyPath a env)).lookup path = some (some err) →
      results.lookup path = some (some err) ∨
        env.path = path ∧ ∃ code, a.ending = .verdict code ∧ 500 ≤ code := by
    intro env a results hl
    by_cases hpa : path = env.path
    · rw [hpa, AList.lookup_insert, Option.some.injEq] at hl
      refine Or.inr ⟨hpa.symm, (deliver_tells bodyPath a env).permanent.mp ?_⟩
      rw [hl]
      exact hp
    · rw [AList.lookup_insert_ne hpa] at hl
      exact Or.inl hl
  apply @deliverAll_rule bodyPath s conn maxTxn (fun _ results out =>
    out.results.lookup path = some (some err) → results.lookup path = some (some err) ∨
      ∃ x ∈ out.sent, x.env.path = path ∧ ∃ code, x.answers.ending = .verdict code ∧ 500 ≤ code)
  · intro results hl
    exact Or.inl hl
  · intro env rest results hl
    by_cases hpa : path ∈ (env :: rest).map Envelope.path
    · rw [lookup_recordAll _ _ _ hpa] at hl
      rw [← Option.some.inj (Option.some.inj hl)] at hp
      cases hp
    · rw [lookup_recordAll_other _ _ _ hpa] at hl
      exact Or.inl hl
  · intro env rest results a lostErr _ _ hl
    exact Or.inl hl
  · intro env rest results a lostErr _ _ hl
    rcases hi env a results hl with hb | hv
    · exact Or.inl hb
    · exact Or.inr ⟨_, mem_singleton_self _, hv⟩
  · intro env rest results a out _ ih hl
    rcases ih hl with hb | ⟨x, hx, hv⟩
    · rcases hi env a results hb with hb | hv
      · exact Or.inl hb
      · exact Or.inr ⟨_, mem_cons_self, hv⟩
    · exact Or.inr ⟨x, mem_cons_of_mem _ hx, hv⟩

end Session

section Hosts

variable {w : World} {req : Request} {dialer : Dialer} {bodySize : Nat}

lemma tried_tryHost (s : Loop) (h : Host) : (tryHost w req dialer bodySize s h).tried =
    s.tried ++ [⟨h, dialer, contactOf w dialer bodySize s.tried.length h⟩] := by
  unfold tryHost contactOf
  rcases dialer.dial (w.lines s.tried.length h.addr) h.addr with err | conn
  · rfl
  · dsimp only
    cases checkSize conn.session bodySize with
    | none | some err => rfl

lemma lastErr_tryHost {s : Loop} {h : Host} (hp : (tryHost w req dialer bodySize s h).pending ≠ []) :
    ∃ err, (tryHost w req dialer bodySize s h).lastErr = some err ∧
      (err.isPermanent = true ↔ contactOf w dialer bodySize s.tried.length h = .oversize) := by
  revert hp
  unfold contactOf
  apply tryHost_cases (P := fun t => t.pending ≠ [] → ∃ err, t.lastErr = some err ∧ (err.isPermanent = true ↔ _))
  · intro err hd _
    refine ⟨err, rfl, ?_⟩
    simp [hd, dial_temporary hd]
  · intro conn err hd hs _
    refine ⟨err, rfl, ?_⟩
    simp [hd, hs, checkSize_permanent hs]
  intro conn out hd hs ho hne
  obtain ⟨err, hc, ht⟩ :=
    @cause_deliverAll req.bodyPath conn.session s.tried.length req.maxTxn 0 s.pending s.results
      (by rw [← ho]; exact hne)
  rw [← ho] at hc
  refine ⟨err, by rw [if_neg hne]; exact hc, ?_⟩
  simp [hd, hs, ht]

def Loop.stopped (s : Loop) : Prop := s.pending = [] ∨ maxMXAttempts ≤ s.tried.length

lemma tryHosts_stopped {s : Loop} (h : s.stopped) (hosts : List Host) :
    tryHosts w req dialer bodySize hosts s = s := by
  cases hosts with
  | nil => rfl
  | cons g rest =>
    unfold tryHosts
    exact if_pos h

lemma tryHosts_cons {s : Loop} (h : ¬ s.stopped) (g : Host) (rest : List Host) :
    tryHosts w req dialer bodySize (g :: rest) s =
      tryHosts w req dialer bodySize rest (tryHost w req dialer bodySize s g) := by
  rw [tryHosts]
  exact if_neg h

lemma tryHosts_append (first second : List Host) (s : Loop) :
    tryHosts w req dialer bodySize (first ++ second) s =
      tryHosts w req dialer bodySize second (tryHosts w req dialer bodySize first s) := by
  induction first generalizing s with
  | nil => rfl
  | cons g rest ih =>
    by_cases hs : s.stopped
    · rw [tryHosts_stopped hs, tryHosts_stopped hs, tryHosts_stopped hs]
    · rw [cons_append, tryHosts_cons hs, tryHosts_cons hs]
      exact ih _

lemma tried_tryHosts {hosts : List Host} {s : Loop} (hc : s.tried.length + hosts.length ≤ maxMXAttempts)
    (hp : (tryHosts w req dialer bodySize hosts s).pending ≠ []) :
    (tryHosts w req dialer bodySize hosts s).tried = s.tried ++ hosts.mapIdx fun k h =>
      ⟨h, dialer, contactOf w dialer bodySize (s.tried.length + k) h⟩ := by
  induction hosts generalizing s with
  | nil => simp [tryHosts]
  | cons g rest ih =>
    rw [length_cons] at hc
    have hg : ¬ s.stopped := by
      intro hs
      rw [tryHosts_stopped hs] at hp
      rcases hs with hn | hm
      · exact hp hn
      · omega
    rw [tryHosts_cons hg] at hp ⊢
    have hl : (tryHost w req dialer bodySize s g).tried.length = s.tried.length + 1 := by
      rw [tried_tryHost, length_append, length_singleton]
    rw [ih (by omega) hp, hl, tried_tryHost, mapIdx_cons, append_assoc]
    simp only [singleton_append, Nat.add_zero, Nat.add_assoc, Nat.add_comm 1]

lemma tryHosts_take (hosts : List Host) (envs : List Envelope) :
    tryHosts w req dialer bodySize hosts (.start envs) =
      tryHosts w req dialer bodySize (hosts.take maxMXAttempts) (.start envs) := by
  conv_lhs => rw [← take_append_drop maxMXAttempts hosts, tryHosts_append]
  by_cases hm : hosts.length ≤ maxMXAttempts
  · rw [drop_of_length_le hm]
    rfl
  apply tryHosts_stopped
  by_cases hn : (tryHosts w req dialer bodySize (hosts.take maxMXAttempts) (.start envs)).pending = []
  · exact Or.inl hn
  have hl : (hosts.take maxMXAttempts).length = maxMXAttempts := by
    rw [length_take]
    omega
  have ht := tried_tryHosts (s := .start envs) (by rw [hl]; exact Nat.le_refl _) hn
  refine Or.inr ?_
  rw [ht, length_append, length_mapIdx, hl]
  exact Nat.le_add_left _ _

lemma permanent_tryHosts (hosts : List Host) (envs : List Envelope) (hp : err.isPermanent = true)
    (hl : (tryHosts w req dialer bodySize hosts (.start envs)).results.lookup path = some (some err)) :
    ∃ x ∈ (tryHosts w req dialer bodySize hosts (.start envs)).sent, x.env.path = path ∧
      ∃ code, x.answers.ending = .verdict code ∧ 500 ≤ code := by
  revert hl
  apply tryHosts_rule (P := fun t => t.results.lookup path = some (some err) →
    ∃ x ∈ t.sent, x.env.path = path ∧ ∃ code, x.answers.ending = .verdict code ∧ 500 ≤ code)
  · intro hl
    cases hl
  intro s h _ _ hs
  apply tryHost_cases (P := fun t => t.results.lookup path = some (some err) →
    ∃ x ∈ t.sent, x.env.path = path ∧ ∃ code, x.answers.ending = .verdict code ∧ 500 ≤ code)
  · intro _ _
    exact hs
  · intro _ _ _ _
    exact hs
  intro conn out _ _ ho hl
  rw [ho] at hl
  rcases permanent_deliverAll 0 s.pending s.results hp hl with hb | ⟨x, hx, hv⟩
  · obtain ⟨x, hx, hv⟩ := hs hb
    exact ⟨x, mem_append_left _ hx, hv⟩
  · rw [← ho] at hx
    exact ⟨x, mem_append_right _ hx, hv⟩

lemma tryHost_oversize {s : Loop} {h : Host} (hc : contactOf w dialer bodySize s.tried.length h = .oversize) :
    (tryHost w req dialer bodySize s h).pending = s.pending ∧ (tryHost w req dialer bodySize s h).sent = s.sent := by
  revert hc
  unfold contactOf
  apply tryHost_cases (P := fun t => _ → t.pending = s.pending ∧ t.sent = s.sent)
  · intro _ _ _
    exact ⟨rfl, rfl⟩
  · intro _ _ _ _ _
    exact ⟨rfl, rfl⟩
  · intro conn out hd hs _ hc
    simp [hd, hs] at hc

variable {envs : List Envelope}

lemma tryHosts_last {hosts front : List Host} {last : Host}
    (ht : hosts.take maxMXAttempts = front ++ [last])
    (hp : (tryHosts w req dialer bodySize front (.start envs)).pending ≠ []) :
    tryHosts w req dialer bodySize hosts (.start envs) =
        tryHost w req dialer bodySize (tryHosts w req dialer bodySize front (.start envs)) last ∧
      (tryHosts w req dialer bodySize front (.start envs)).tried.length = front.length := by
  have hl : front.length < maxMXAttempts := by
    have hle := length_take_le maxMXAttempts hosts
    rw [ht, length_append, length_singleton] at hle
    omega
  have htr : (tryHosts w req dialer bodySize front (.start envs)).tried.length = front.length := by
    rw [tried_tryHosts (by simp only [Loop.start, length_nil]; omega) hp]
    simp [Loop.start]
  refine ⟨?_, htr⟩
  rw [tryHosts_take, ht, tryHosts_append, tryHosts_cons]
  · rfl
  intro hs
  rcases hs with hn | hm
  · exact hp hn
  · omega

lemma mem_tried {hosts : List Host}
    (hp : (tryHosts w req dialer bodySize hosts (.start envs)).pending ≠ []) (h : Host) :
    (∃ a ∈ (tryHosts w req dialer bodySize hosts (.start envs)).tried, a.host = h ∧ a.contact = .oversize) ↔
      ∃ k, (hosts.take maxMXAttempts)[k]? = some h ∧ contactOf w dialer bodySize k h = .oversize := by
  rw [tryHosts_take] at hp ⊢
  rw [tried_tryHosts (by simp [Loop.start, length_take]) hp]
  simp only [Loop.start, nil_append, length_nil, Nat.zero_add, mem_mapIdx]
  constructor
  · intro ha
    obtain ⟨a, ⟨k, hk, rfl⟩, rfl, hc⟩ := ha
    exact ⟨k, List.getElem?_eq_getElem hk, hc⟩
  intro hh
  obtain ⟨k, hh, hc⟩ := hh
  obtain ⟨hk, rfl⟩ := List.getElem?_eq_some_iff.mp hh
  exact ⟨_, ⟨k, hk, rfl⟩, rfl, hc⟩

end Hosts

lemma lookup_grounds {w : World} {req : Request} {hosts : List Host}
    (h : lookup w.resolver w.sorting req.domain = .ok hosts) :
    (∀ mxs, w.resolver.lookupMX req.domain = .ok mxs → isNullMX mxs = false) ∧
      (noRecords (w.resolver.lookupMX req.domain) = true →
        noRecords (w.resolver.lookupHost req.domain) = false) := by
  refine ⟨fun mxs hm => ?_, fun hmx => ?_⟩
  · rw [Bool.eq_false_iff]
    intro hn
    simp only [lookup, hm, hn, if_true] at h
    cases h
  · have ha : lookupAddress w.resolver req.domain = .ok hosts := by
      unfold lookup at h
      split at h
      · next mxs hm =>
          rw [hm] at hmx
          rcases mxs with _ | ⟨mx, rest⟩
          · have he : usableHosts w.sorting [] = [] := by
              rw [usableHosts, List.Perm.eq_nil (w.sorting.perm [])]
              rfl
            rw [if_neg (by decide), if_pos he] at h
            exact h
          · cases hmx
      · exact h
    unfold lookupAddress at ha
    split at ha
    · next addr rest had =>
        rw [had]
        rfl
    · cases ha

section Run

variable {c : CaseMap} {w : World} {req : Request}

lemma grounded_lookup_iff (hl : lookup w.resolver w.sorting req.domain = .error err) :
    Grounded w req (.failed (classifyMXError err) req.envs) ↔ (req.envs ≠ [] → LookupFair w req) := by
  obtain ⟨hp, hc⟩ := noMX_of_lookup_error hl
  constructor
  · intro hg hne _ _
    obtain ⟨env, rest, he⟩ := exists_cons_of_ne_nil hne
    have hm : env.path ∈ req.envs.map Envelope.path := by
      rw [he]
      exact mem_cons_self
    have hcl : (classifyMXError err).isPermanent = true := by
      rw [classifyMXError, if_pos hp]
      rfl
    have hgr := hg env.path _ (lookup_recordAll (classifyMXError err) _ ∅ hm) hcl
    cases hgr with
    | nullMX mxs hmxs hn => exact Or.inl ⟨mxs, hmxs, hn⟩
    | noDomain hmx hh => exact Or.inr ⟨hmx, hh⟩
    | verdict x code hx => cases hx
    | oversize hosts hok =>
      rw [hl] at hok
      cases hok
  · intro hf path err' hr _
    have hne : req.envs ≠ [] := by
      intro hnil
      rw [hnil] at hr
      cases hr
    rcases hc with ⟨mxs, hmxs, hn⟩ | ⟨hu, ha⟩
    · exact .nullMX mxs hmxs hn
    · rcases hf hne hu ha with ⟨mxs, hmxs, hn⟩ | ⟨hmx, hh⟩
      · exact .nullMX mxs hmxs hn
      · exact .noDomain hmx hh

lemma grounded_failed (ht : err.isPermanent = false) :
    Grounded w req (.failed err req.envs) := by
  intro path err' hr hp
  by_cases hm : path ∈ req.envs.map Envelope.path
  · have hs := (lookup_recordAll err _ ∅ hm).symm.trans hr
    rw [← Option.some.inj (Option.some.inj hs), ht] at hp
    cases hp
  · have hs := (lookup_recordAll_other err _ ∅ hm).symm.trans hr
    cases hs

section Loop

variable {hosts selected front : List Host} {last : Host} {dialer : Dialer} {bodySize : Nat}

lemma finalError_permanent (ht : selected.take maxMXAttempts = front ++ [last])
    (hb : (tryHosts w req dialer bodySize front (.start req.envs)).pending ≠ [])
    (ha : (tryHosts w req dialer bodySize selected (.start req.envs)).pending ≠ []) :
    (finalError req.domain (tryHosts w req dialer bodySize selected (.start req.envs)).lastErr).isPermanent = true ↔
      contactOf w dialer bodySize front.length last = .oversize := by
  obtain ⟨hl, htr⟩ := tryHosts_last ht hb
  rw [hl] at ha ⊢
  obtain ⟨err, he, hi⟩ := lastErr_tryHost ha
  rw [he, ← htr]
  exact hi

lemma sizeFair_of_grounded (hl : lookup w.resolver w.sorting req.domain = .ok hosts)
    (ht : selected.take maxMXAttempts = front ++ [last])
    (hg : Grounded w req ((tryHosts w req dialer bodySize selected (.start req.envs)).finish req.domain))
    {env : Envelope} (hu : (tryHosts w req dialer bodySize front (.start req.envs)).Undecided env)
    (hc : contactOf w dialer bodySize front.length last = .oversize) :
    ∀ h ∈ hosts, ∃ k, (selected.take maxMXAttempts)[k]? = some h ∧
      contactOf w dialer bodySize k h = .oversize := by
  have hb := ne_nil_of_mem hu.1
  obtain ⟨hla, htr⟩ := tryHosts_last ht hb
  have hs := @tryHost_oversize w req dialer bodySize
    (tryHosts w req dialer bodySize front (.start req.envs)) last (by rw [htr]; exact hc)
  rw [← hla] at hs
  have hle : env ∈ (tryHosts w req dialer bodySize selected (.start req.envs)).pending := by
    rw [hs.1]
    exact hu.1
  have ha := ne_nil_of_mem hle
  have hgr := hg env.path _ (lookup_recordAll _ _ _ (mem_map_of_mem hle))
    ((finalError_permanent ht hb ha).mpr hc)
  obtain ⟨hn, he⟩ := lookup_grounds hl
  cases hgr with
  | nullMX mxs hm hnu =>
    rw [hn mxs hm] at hnu
    cases hnu
  | noDomain hmx hho =>
    rw [he hmx] at hho
    cases hho
  | verdict x code hx hp hen hco =>
    have hx' : x ∈ (tryHosts w req dialer bodySize front (.start req.envs)).sent := by
      rw [← hs.2]
      exact hx
    have hlt := hu.2 x hx' hp code hen
    omega
  | oversize hosts' hok hall =>
    rw [hl] at hok
    cases hok
    exact fun h hh => (mem_tried ha h).mp (hall h hh)

lemma grounded_of_sizeFair (hl : lookup w.resolver w.sorting req.domain = .ok hosts)
    (hs : selectHosts c req hosts = .ok (selected, dialer)) (hb : w.body = .ok bodySize)
    (hf : SizeFair c w req) :
    Grounded w req ((tryHosts w req dialer bodySize selected (.start req.envs)).finish req.domain) := by
  intro path err hr hp
  by_cases hm : path ∈ (tryHosts w req dialer bodySize selected (.start req.envs)).pending.map Envelope.path
  · have hsa := (lookup_recordAll _ _ _ hm).symm.trans hr
    rw [← Option.some.inj (Option.some.inj hsa)] at hp
    obtain ⟨env, henv, rfl⟩ := mem_map.mp hm
    have ha := ne_nil_of_mem henv
    rcases eq_nil_or_concat (selected.take maxMXAttempts) with hnil | ⟨front, last, ht⟩
    · rw [tryHosts_take, hnil] at hp
      cases hp
    rw [concat_eq_append] at ht
    have hbe : (tryHosts w req dialer bodySize front (.start req.envs)).pending ≠ [] := by
      intro hn
      rw [tryHosts_take, ht, tryHosts_append, tryHosts_stopped (Or.inl hn)] at ha
      exact ha hn
    have hc := (finalError_permanent ht hbe ha).mp hp
    obtain ⟨hla, htr⟩ := tryHosts_last ht hbe
    have hk := @tryHost_oversize w req dialer bodySize
      (tryHosts w req dialer bodySize front (.start req.envs)) last (by rw [htr]; exact hc)
    rw [← hla] at hk
    by_cases hu : (tryHosts w req dialer bodySize front (.start req.envs)).Undecided env
    · have hall := hf hosts selected dialer bodySize front last hl hs hb ht
        ⟨env, hu⟩ hc
      exact .oversize hosts hl fun h hh => (mem_tried ha h).mpr (hall h hh)
    · simp only [Loop.Undecided, ← hk.1, ← hk.2, henv, true_and, not_forall, not_lt] at hu
      obtain ⟨x, hx, hpa, code, he, hco⟩ := hu
      exact .verdict x code hx hpa he hco
  · have hsa := (lookup_recordAll_other _ _ _ hm).symm.trans hr
    obtain ⟨x, hx, hpa, code, he, hco⟩ := permanent_tryHosts selected req.envs hp hsa
    exact .verdict x code hx hpa he hco

end Loop

end Run

-- Every permanent failure has a ground exactly if the lookups are not given up
-- early and no host refuses the size for all the others.
theorem permanent_grounded_iff (c : CaseMap) (w : World) (req : Request) :
    Grounded w req (deliverViaMX c w req) ↔ (req.envs ≠ [] → LookupFair w req) ∧ SizeFair c w req := by
  rcases deliverViaMX_cases c w req with ⟨err, hl, hr⟩ | ⟨hosts, err, hl, ht, hn, hr⟩ |
    ⟨hosts, selected, dialer, bodySize, hl, hs, hb, hr⟩
  · have hsi : SizeFair c w req := by
      intro hosts _ _ _ _ _ hok
      rw [hl] at hok
      cases hok
    rw [hr, grounded_lookup_iff hl, and_iff_left hsi]
  · have hsi : SizeFair c w req := by
      intro hosts' selected dialer bodySize _ _ hok hs hb
      rw [hl] at hok
      cases hok
      exact absurd hb (hn _ bodySize hs)
    rw [hr]
    exact iff_of_true (grounded_failed ht) ⟨fun _ => fair_of_lookup_ok hl, hsi⟩
  · rw [hr]
    constructor
    · intro hg
      refine ⟨fun _ => fair_of_lookup_ok hl, ?_⟩
      intro hosts' selected' dialer' bodySize' front last hlo hse hbo hta hle hc
      rw [hl] at hlo
      cases hlo
      rw [hs] at hse
      cases hse
      rw [hb] at hbo
      cases hbo
      obtain ⟨env, hu⟩ := hle
      exact sizeFair_of_grounded hl hta hg hu hc
    · intro hf
      exact grounded_of_sizeFair hl hs hb hf.2

section Sample

def resolverDown : World where
  resolver := ⟨fun _ => .error (.temporary (ascii "timeout")), fun _ => .error (.temporary (ascii "timeout"))⟩
  sorting := insertionByPref
  body := .ok 100
  lines _ _ _ := lineTo ⟨none, fun _ _ => noFaults⟩

-- The first host cannot be reached, the second one takes smaller messages only.
def secondTooSmall : World where
  resolver := twoHosts.resolver
  sorting := insertionByPref
  body := .ok 100
  lines attempt _ _ :=
    if attempt = 0 then { lineTo ⟨none, fun _ _ => noFaults⟩ with tcp := some (.lost (ascii "refused")) }
    else lineTo ⟨some 50, fun _ _ => noFaults⟩

lemma ungrounded_timeouts :
    ¬ Grounded resolverDown sampleRequest (deliverViaMX CaseMap.asciiOnly resolverDown sampleRequest) := by
  intro hg
  have hr : ((deliverViaMX CaseMap.asciiOnly resolverDown sampleRequest).results.lookup
      (ascii "queue/bob")).any (fun r => r.any Err.isPermanent) = true := by decide +kernel
  simp only [Option.any_eq_true] at hr
  obtain ⟨-, hr, err, rfl, hp⟩ := hr
  cases hg _ err hr hp with
  | nullMX mxs hm => cases hm
  | noDomain hmx => cases hmx
  | verdict x code hx => cases hx
  | oversize hosts hok => cases hok

lemma ungrounded_size :
    ¬ Grounded secondTooSmall sampleRequest (deliverViaMX CaseMap.asciiOnly secondTooSmall sampleRequest) := by
  intro hg
  have hr : ((deliverViaMX CaseMap.asciiOnly secondTooSmall sampleRequest).results.lookup
      (ascii "queue/bob")).any (fun r => r.any Err.isPermanent) = true := by decide +kernel
  simp only [Option.any_eq_true] at hr
  obtain ⟨-, hr, err, rfl, hp⟩ := hr
  cases hg _ err hr hp with
  | nullMX mxs hm hn =>
    cases hm
    cases hn
  | noDomain hmx => cases hmx
  | verdict x code hx =>
    have hs : (deliverViaMX CaseMap.asciiOnly secondTooSmall sampleRequest).sent = [] := by decide +kernel
    rw [hs] at hx
    cases hx
  | oversize hosts hok hall =>
    have hh : (lookup secondTooSmall.resolver secondTooSmall.sorting sampleRequest.domain).toOption.any
        (⟨ascii "mx1.example.net", ascii "25"⟩ ∈ ·) = true := by decide +kernel
    rw [hok] at hh
    obtain ⟨a, ha, hho, hc⟩ := hall _ (of_decide_eq_true hh)
    have hf : ∀ a ∈ (deliverViaMX CaseMap.asciiOnly secondTooSmall sampleRequest).tried,
        a.host = ⟨ascii "mx1.example.net", ascii "25"⟩ → a.contact ≠ .oversize := by decide +kernel
    exact hf a ha hho hc

theorem permanent_ungrounded :
    ¬ Grounded resolverDown sampleRequest (deliverViaMX CaseMap.asciiOnly resolverDown sampleRequest) ∧
      ¬ Grounded secondTooSmall sampleRequest (deliverViaMX CaseMap.asciiOnly secondTooSmall sampleRequest) :=
  ⟨ungrounded_timeouts, ungrounded_size⟩

end Sample

end Maildancer.MailRemote

import Maildancer.Pop3.Deletion
import Maildancer.Pop3.Login

namespace Maildancer.Pop3

open List Text Maildir MailSession

-- What holds after every line. In TRANSACTION the latest exchange was answered +OK
-- after a Login with the credentials sent, which were read over TLS or where insecure
-- authentication is enabled. A -ERR answer leaves AUTHORIZATION and no store.
structure Gated (h : History) : Prop where
  transaction : h.client.sess.state = .transaction → ∃ e username password result,
    h.exchanges.head? = some e ∧ e.ok = true ∧ e.secure = true ∧ e.login = some (username, password, result) ∧
      result ≠ .refused ∧ h.client.authenticatedUser.map AuthenticatedUser.username = some username
  refused : ∀ e, h.exchanges.head? = some e → e.ok = false →
    h.client.sess.state = .authorization ∧ h.client.store = none

variable {username password : Bytes} {e : Exchange}

section Effects

variable {w : World} {c : Client}

structure Carried (s s' : Session) : Prop where
  state : s'.state = s.state ∨ s.state = .transaction ∧ s'.state = .update
  tls : s'.tlsActive = s.tlsActive

lemma Carried.of_eq {s s' : Session} (h : s' = s) : Carried s s' := h ▸ ⟨.inl rfl, rfl⟩

lemma dele_carried (s : Session) (args : List Bytes) : Carried s (dele s args).1 := by
  have hm : ∀ msgNum, Carried s (s.markDeleted msgNum).1 := by
    intro msgNum
    unfold Session.markDeleted
    split <;> exact ⟨.inl rfl, rfl⟩
  unfold dele
  split_ifs
  · exact .of_eq rfl
  split
  · split
    · exact .of_eq rfl
    · rename_i msgNum _
      have hc := hm msgNum
      split <;> rename_i hca <;> rw [hca] at hc <;> exact hc
  · exact .of_eq rfl

lemma rset_carried (s : Session) (args : List Bytes) : Carried s (rset s args).1 := by
  unfold rset
  split_ifs <;> exact ⟨.inl rfl, rfl⟩

lemma quit_carried (conn : Connection) (args : List Bytes) (uids : List Nat) :
    Carried conn.sess (quit conn args uids).1.sess := by
  unfold quit
  split_ifs
  · exact .of_eq rfl
  split
  · rename_i hs
    have hu : Carried conn.sess conn.sess.enterUpdate := by
      rw [Session.enterUpdate, if_pos hs]
      exact ⟨.inr ⟨hs, rfl⟩, rfl⟩
    split <;> exact hu
  · exact .of_eq rfl

lemma execute_carried (conn : Connection) (cmd : Command) : Carried conn.sess (execute conn cmd).1.sess := by
  obtain ⟨verb, args⟩ := cmd
  cases verb with
  | dele => exact dele_carried _ _
  | rset => exact rset_carried _ _
  | quit => exact quit_carried _ _ _
  | retr => exact .of_eq (retr_fetches _ _).sess
  | top => exact .of_eq (top_fetches _ _).sess
  | stat | list | uidl | noop | capa | stls | user | pass | auth => exact .of_eq rfl

-- A line that is no exchange of credentials.
structure Quiet (c c' : Client) : Prop where
  carried : c'.sess.state = c.sess.state ∨ c.sess.state = .transaction ∧ c'.sess.state = .update
  secure : c.secure = true → c'.secure = true
  store : c'.store = none ↔ c.store = none
  user : c'.authenticatedUser = c.authenticatedUser
  username : c'.username = c.username ∧ c'.usernameSecure = c.usernameSecure ∨ c'.usernameSecure = true
  sasl : c'.saslInProgress = true → c.saslInProgress = true ∨ c.sess.state = .authorization ∧ c.secure = true

-- What a line can do: nothing to the login, refuse it, or enter TRANSACTION.
inductive Effect (c : Client) : Outcome → Prop
  | quiet {c' : Client} {reply : Option Reply} (h : Quiet c c') : Effect c ⟨c', reply, none⟩
  | refused {reply : Option Reply} {e : Exchange} (hstate : c.saslInProgress = true ∨ c.sess.state = .authorization)
      (hok : e.ok = false) (hlogin : ∀ username password result, e.login = some (username, password, result) →
        result = .refused) : Effect c ⟨c.clearSasl, reply, some e⟩
  | entered {c' : Client} {reply : Option Reply} {e : Exchange} {username password : Bytes} {result : LoginResult}
      (hstate : c'.sess.state = .transaction) (hlogin : e.login = some (username, password, result))
      (hresult : result ≠ .refused) (hok : e.ok = true ↔ result = .opened)
      (huser : c'.authenticatedUser.map AuthenticatedUser.username = some username)
      (hsasl : c'.saslInProgress = false)
      (hsecure : c.secure = true → (c.username ≠ [] → c.usernameSecure = true) → e.secure = true)
      (hread : c.secure = true → (c.username ≠ [] → c.usernameSecure = true) → c'.usernameSecure = true)
      (hallowed : c.saslInProgress = true ∨ c.secure = true) : Effect c ⟨c', reply, some e⟩

lemma Quiet.refl (c : Client) : Quiet c c :=
  ⟨.inl rfl, id, Iff.rfl, rfl, .inl ⟨rfl, rfl⟩, .inl⟩

lemma user_quiet (c : Client) (args : List Bytes) : Quiet c (user c args).1 := by
  unfold user
  split_ifs with hs hse
  · exact .refl c
  · exact .refl c
  split
  · split_ifs
    · exact .refl c
    · exact ⟨.inl rfl, id, Iff.rfl, rfl, .inr (by simpa using hse), .inl⟩
  · exact .refl c

lemma stls_quiet (w : World) (c : Client) (args : List Bytes) : Quiet c (stls w c args).1 := by
  unfold stls
  split_ifs
  · exact .refl c
  · exact .refl c
  · exact .refl c
  · exact .refl c
  · exact ⟨.inl rfl, fun _ => rfl, Iff.rfl, rfl, .inl ⟨rfl, rfl⟩, .inl⟩
  · exact ⟨.inl rfl, id, Iff.rfl, rfl, .inl ⟨rfl, rfl⟩, .inl⟩

lemma transact_quiet (c : Client) (cmd : Command) : Quiet c (transact c cmd).1 := by
  unfold transact
  rcases hs : c.store with _ | server
  · exact .refl c
  have hc := execute_carried ⟨c.sess, server⟩ cmd
  refine ⟨hc.state, fun hse => ?_, by simp [hs], rfl, .inl ⟨rfl, rfl⟩, .inl⟩
  simp only [Client.secure] at hse ⊢
  rw [hc.tls]
  exact hse

lemma openMailbox_state (w : World) (s : Session) (server : Process) :
    (openMailbox w s server).1.sess.state = .transaction := by
  unfold openMailbox initializeMailbox
  split_ifs
  · split <;> rfl
  · rfl

lemma login_cases (w : World) (c : Client) (username password : Bytes) :
    login w c username password = (c, .refused) ∨
      ∃ c' result, login w c username password = (c', result) ∧ result ≠ .refused ∧ c'.sess.state = .transaction ∧
        c'.authenticatedUser.map AuthenticatedUser.username = some username ∧ c'.saslInProgress = c.saslInProgress ∧
        c'.usernameSecure = c.usernameSecure := by
  unfold login
  split
  · exact .inl rfl
  · rename_i mailbox server _
    refine .inr ⟨_, _, rfl, ?_, openMailbox_state w c.sess server, rfl, rfl, rfl⟩
    split <;> simp

lemma clearSasl_eq (h : c.saslInProgress = false) : c.clearSasl = c := by
  obtain ⟨sess, insecureAuth, username, usernameSecure, user, sasl, store, initialized, closed⟩ := c
  obtain rfl : sasl = false := h
  rfl

lemma refused_effect (hs : c.saslInProgress = false) (hst : c.sess.state = .authorization)
    {login : Option (Bytes × Bytes × LoginResult)}
    (hl : ∀ username password result, login = some (username, password, result) → result = .refused)
    (secure : Bool) {r : Response} (hr : r.ok = false) : Effect c (ended c login secure r) := by
  have he : Effect c (ended c.clearSasl login secure r) := .refused (.inr hst) hr hl
  rw [clearSasl_eq hs] at he
  exact he

variable {result : LoginResult} {base : Client}

lemma no_login
    (h : (none : Option (Bytes × Bytes × LoginResult)) = some (username, password, result)) : result = .refused := by
  cases h

lemma login_refused {first second : Bytes}
    (h : some (first, second, LoginResult.refused) = some (username, password, result)) : result = .refused := by
  cases h
  rfl

lemma pass_effect (w : World) (hs : c.saslInProgress = false) (args : List Bytes) : Effect c (pass w c args) := by
  unfold pass
  by_cases hst : c.sess.state = .authorization
  · rw [if_neg (not_not.mpr hst)]
    by_cases hse : c.secure = true
    · rw [if_neg (by simpa using hse)]
      by_cases hn : c.username = []
      · rw [if_pos hn]
        exact refused_effect hs hst (fun _ _ _ => no_login) _ rfl
      rw [if_neg hn]
      split
      · rename_i password
        obtain hc | ⟨c', result, hc, hr, ht, hus, hsa, hre⟩ :=
          login_cases w c c.username password
        · rw [hc]
          exact refused_effect hs hst (fun _ _ _ => login_refused) _ rfl
        rw [hc]
        refine .entered ht rfl hr ?_ hus (hsa.trans hs) (fun h hu => ?_) (fun _ hu => ?_)
          (.inr hse)
        · cases result with
          | refused => exact absurd rfl hr
          | unlisted => simp [Response.error]
          | opened => simp [loggedInAs, Response.reply]
        · simp [h, hu hn]
        · rw [hre]
          exact hu hn
      · exact refused_effect hs hst (fun _ _ _ => no_login) _ rfl
    · rw [if_pos (by simpa using hse)]
      exact refused_effect hs hst (fun _ _ _ => no_login) _ rfl
  · rw [if_pos hst]
    exact .quiet (.refl c)

lemma processSaslStep_effect (w : World) (hb : c.clearSasl = base.clearSasl) (hs : c.secure = base.secure)
    (ha : base.saslInProgress = true ∨ base.sess.state = .authorization ∧ base.secure = true) (response : Bytes) :
    Effect base (processSaslStep w c response) := by
  have hst : base.saslInProgress = true ∨ base.sess.state = .authorization := ha.imp_right And.left
  unfold processSaslStep
  split
  · rename_i _ username password _
    obtain hc | ⟨c', result, hc, hr, ht, hu, -, -⟩ := login_cases w c username password
    · rw [hc]
      dsimp only
      rw [hb]
      exact .refused hst rfl fun _ _ _ => login_refused
    · rw [hc]
      cases result with
      | refused => exact absurd rfl hr
      | unlisted =>
        exact .entered ht rfl hr (by simp [Response.error]) hu rfl (fun h _ => hs.trans h)
          (fun h _ => hs.trans h) (ha.imp_right And.right)
      | opened =>
        exact .entered ht rfl hr (by simp [loggedInAs, Response.reply]) hu rfl
          (fun h _ => hs.trans h) (fun h _ => hs.trans h) (ha.imp_right And.right)
  · rw [hb]
    exact .refused hst rfl fun _ _ _ => no_login

lemma processEncoded_effect (decode : Bytes → Option Bytes) (w : World)
    (hb : c.clearSasl = base.clearSasl) (hs : c.secure = base.secure)
    (ha : base.saslInProgress = true ∨ base.sess.state = .authorization ∧ base.secure = true) (text : Bytes) :
    Effect base (processEncoded decode w c text) := by
  unfold processEncoded
  split
  · rw [hb]
    exact .refused (ha.imp_right And.left) rfl fun _ _ _ => no_login
  · exact processSaslStep_effect w hb hs ha _

lemma auth_effect (upper : Bytes → Bytes) (decode : Bytes → Option Bytes) (w : World)
    (hs : c.saslInProgress = false) (args : List Bytes) : Effect c (auth upper decode w c args) := by
  unfold auth
  by_cases hst : c.sess.state = .authorization
  · rw [if_neg (not_not.mpr hst)]
    by_cases hse : c.secure = true
    · rw [if_neg (by simpa using hse)]
      split
      · exact refused_effect hs hst (fun _ _ _ => no_login) _ rfl
      rename_i mechanism rest
      split_ifs
      · exact refused_effect hs hst (fun _ _ _ => no_login) _ rfl
      split
      · exact .quiet ⟨.inl rfl, id, Iff.rfl, rfl, .inl ⟨rfl, rfl⟩, fun _ => .inr ⟨hst, hse⟩⟩
      split_ifs
      · exact processSaslStep_effect w (show Client.clearSasl { c with saslInProgress := true } = c.clearSasl from rfl)
          rfl (.inr ⟨hst, hse⟩) _
      · exact processEncoded_effect decode w
          (show Client.clearSasl { c with saslInProgress := true } = c.clearSasl from rfl)
          rfl (.inr ⟨hst, hse⟩) _
    · rw [if_pos (by simpa using hse)]
      exact refused_effect hs hst (fun _ _ _ => no_login) _ rfl
  · rw [if_pos hst]
    exact .quiet (.refl c)

lemma handleLine_effect (upper : Bytes → Bytes) (decode : Bytes → Option Bytes) (w : World) (c : Client) (raw : Bytes) :
    Effect c (handleLine upper decode w c raw) := by
  unfold handleLine
  dsimp only
  split_ifs with hs hsa
  · exact .quiet (.refl c)
  · unfold processSaslResponse
    split_ifs
    · exact .refused (.inl hsa) rfl fun _ _ _ => no_login
    · exact processEncoded_effect decode w rfl rfl (.inl hsa) _
  · have hi : c.saslInProgress = false := by simpa using hsa
    split
    · exact .quiet (.refl c)
    split
    · exact .quiet (.refl c)
    rename_i _ args _ _ verb _
    cases verb with
    | user => exact .quiet (user_quiet c _)
    | pass => exact pass_effect w hi _
    | auth => exact auth_effect upper decode w hi _
    | stls => exact .quiet (stls_quiet w c _)
    | quit =>
      have hq := transact_quiet c ⟨.quit, args⟩
      exact .quiet ⟨hq.carried, hq.secure, hq.store, hq.user, hq.username, hq.sasl⟩
    | stat | list | retr | dele | rset | noop | uidl | top | capa => exact .quiet (transact_quiet c _)

end Effects

-- What each next line relies on.
structure Guarded (h : History) : Prop where
  named : h.client.username ≠ [] → h.client.usernameSecure = true
  sasl : h.client.saslInProgress = true → h.client.sess.state = .authorization ∧ h.client.secure = true
  unopened : h.client.sess.state = .authorization → h.client.store = none
  opened : h.client.sess.state ≠ .authorization → ∃ e username password,
    h.exchanges.head? = some e ∧ e.ok = true ∧ e.secure = true ∧ e.login = some (username, password, .opened) ∧
      h.client.authenticatedUser.map AuthenticatedUser.username = some username

namespace Guarded

variable {h : History}

lemma gated (hg : Guarded h) : Gated h where
  transaction := by
    intro hs
    obtain ⟨e, username, password, hh, hok, hse, hl, hu⟩ := hg.opened (by simp [hs])
    exact ⟨e, username, password, .opened, hh, hok, hse, hl, by simp, hu⟩
  refused := by
    intro e hh hr
    have hs : h.client.sess.state = .authorization := by
      by_contra ho
      obtain ⟨e', username, password, hhe, hok, -⟩ := hg.opened ho
      obtain rfl : e = e' := Option.some.inj (hh.symm.trans hhe)
      simp [hok] at hr
    exact ⟨hs, hg.unopened hs⟩

lemma quiet {c' : Client} (hg : Guarded h) (hq : Quiet h.client c') : Guarded ⟨c', h.exchanges⟩ where
  named := by
    intro hn
    obtain ⟨hs, hr⟩ | hr := hq.username
    · rw [hr]
      exact hg.named (hs ▸ hn)
    · exact hr
  sasl := by
    intro hsa
    obtain ⟨hst, hse⟩ : h.client.sess.state = .authorization ∧ h.client.secure = true :=
      (hq.sasl hsa).elim hg.sasl id
    obtain hs | ⟨ht, -⟩ := hq.carried
    · exact ⟨hs.trans hst, hq.secure hse⟩
    · simp [hst] at ht
  unopened := by
    intro hst
    obtain hs | ⟨-, hu⟩ := hq.carried
    · exact hq.store.mpr (hg.unopened (hs.symm.trans hst))
    · exact absurd (hu.symm.trans hst) (by simp)
  opened := by
    intro hst
    have hb : h.client.sess.state ≠ .authorization := by
      obtain hs | ⟨ht, -⟩ := hq.carried
      · exact fun heq => hst (hs.trans heq)
      · simp [ht]
    obtain ⟨e, username, password, hh, hok, hse, hl, hus⟩ := hg.opened hb
    exact ⟨e, username, password, hh, hok, hse, hl, hq.user ▸ hus⟩

lemma refused (hg : Guarded h)
    (hs : h.client.saslInProgress = true ∨ h.client.sess.state = .authorization) :
    Guarded ⟨h.client.clearSasl, e :: h.exchanges⟩ := by
  have ha : h.client.sess.state = .authorization := hs.elim (fun hsa => (hg.sasl hsa).1) id
  exact ⟨hg.named, fun hsa => absurd hsa (by simp [Client.clearSasl]), hg.unopened, fun ho => absurd ha ho⟩

lemma step (hg : Guarded h) {out : Outcome} (he : Effect h.client out)
    (hl : ∀ e ∈ out.exchange.toList, ∀ username password, e.login ≠ some (username, password, .unlisted)) :
    Guarded ⟨out.client, out.exchange.toList ++ h.exchanges⟩ := by
  cases he with
  | quiet hq => exact hg.quiet hq
  | refused hs hok hlo => exact hg.refused hs
  | @entered c' _ e username password result hs hlo hr hok hu hsa hse hre ha =>
    have ho : result = .opened := by
      cases result with
      | refused => exact absurd rfl hr
      | unlisted => exact absurd hlo (hl e (by simp) username password)
      | opened => rfl
    subst ho
    have hal : h.client.secure = true := ha.elim (fun hold => (hg.sasl hold).2) id
    exact ⟨fun _ => hre hal hg.named, fun hn => absurd hn (by simp [hsa]),
      fun hn => absurd (hs.symm.trans hn) (by simp),
      fun _ => ⟨e, username, password, rfl, hok.mpr rfl, hse hal hg.named, hlo, hu⟩⟩

end Guarded

lemma newClient_guarded (isTls tlsConfigured : Bool) : Guarded ⟨newClient isTls tlsConfigured, []⟩ :=
  ⟨fun hn => absurd rfl hn, fun hs => absurd hs (by simp [newClient]), fun _ => rfl,
    fun hst => absurd rfl hst⟩

section Runs

variable (upper : Bytes → Bytes) (decode : Bytes → Option Bytes)

lemma runLines_concat (start : Client) (inputs : List (World × Bytes)) (input : World × Bytes) :
    runLines upper decode start (inputs ++ [input]) = (runLines upper decode start inputs).step upper decode input := by
  simp [runLines]

lemma exchanges_mono (start : Client) {first inputs : List (World × Bytes)} (hf : first <+: inputs) :
    (runLines upper decode start first).exchanges ⊆ (runLines upper decode start inputs).exchanges := by
  obtain ⟨rest, rfl⟩ := hf
  induction rest using List.reverseRecOn with
  | nil => simp
  | append_singleton rest input ih =>
    rw [← append_assoc, runLines_concat]
    exact fun e he => mem_append_right _ (ih he)

lemma runLines_guarded (isTls tlsConfigured : Bool) (inputs : List (World × Bytes))
    (hl : ∀ e ∈ (runLines upper decode (newClient isTls tlsConfigured) inputs).exchanges, ∀ username password,
      e.login ≠ some (username, password, .unlisted)) :
    Guarded (runLines upper decode (newClient isTls tlsConfigured) inputs) := by
  induction inputs using List.reverseRecOn with
  | nil => exact newClient_guarded isTls tlsConfigured
  | append_singleton inputs input ih =>
    rw [runLines_concat] at hl ⊢
    refine (ih fun e he => hl e (mem_append_right _ he)).step (handleLine_effect upper decode _ _ _) ?_
    exact fun e he => hl e (mem_append_left _ he)

lemma unlisted_not_gated (start : Client) (inputs : List (World × Bytes))
    (hl : e.login = some (username, password, .unlisted))
    (hm : e ∈ (runLines upper decode start inputs).exchanges) :
    ∃ first, first <+: inputs ∧ ¬ Gated (runLines upper decode start first) := by
  induction inputs using List.reverseRecOn with
  | nil => exact absurd hm not_mem_nil
  | append_singleton inputs input ih =>
    rw [runLines_concat] at hm
    obtain hn | hold := mem_append.mp hm
    · refine ⟨inputs ++ [input], prefix_rfl, fun hg => ?_⟩
      rw [runLines_concat] at hg
      have he := handleLine_effect upper decode input.1 (runLines upper decode start inputs).client input.2
      unfold History.step at hg
      generalize handleLine upper decode input.1 (runLines upper decode start inputs).client input.2 = out at *
      cases he with
      | quiet => simp at hn
      | refused _ _ hr =>
        obtain rfl : e = _ := by simpa using hn
        exact absurd (hr _ _ _ hl) (by simp)
      | entered hs hen _ hok =>
        obtain rfl : e = _ := by simpa using hn
        rw [hl] at hen
        cases hen
        have hr := (hg.refused e rfl (by simpa using hok)).1
        exact absurd (hs.symm.trans hr) (by simp)
    · obtain ⟨first, hf, ho⟩ := ih hold
      exact ⟨first, hf.trans (prefix_append _ _), ho⟩

theorem transaction_gated_iff (isTls tlsConfigured : Bool) (inputs : List (World × Bytes)) :
    (∀ first, first <+: inputs → Gated (runLines upper decode (newClient isTls tlsConfigured) first)) ↔
      ∀ e ∈ (runLines upper decode (newClient isTls tlsConfigured) inputs).exchanges, ∀ username password,
        e.login ≠ some (username, password, .unlisted) := by
  constructor
  · intro hg e hm username password hl
    obtain ⟨first, hf, ho⟩ := unlisted_not_gated upper decode _ inputs hl hm
    exact ho (hg first hf)
  · intro hli first hf
    refine (runLines_guarded upper decode isTls tlsConfigured first fun e he => ?_).gated
    exact hli e (exchanges_mono upper decode _ hf he)

end Runs

def unlistedWorld : World := ⟨fun _ _ => some (ascii "alice", oneMessage), false, true⟩

def aliceLines : List (World × Bytes) :=
  [(unlistedWorld, ascii "USER alice"), (unlistedWorld, ascii "PASS secret")]

-- PASS is answered -ERR, and STAT after it +OK.
theorem refused_in_transaction : ¬ Gated (runLines id some (newClient true true) aliceLines) ∧
      (runLines id some (newClient true true) aliceLines).client.sess.state = .transaction ∧
      (runLines id some (newClient true true) aliceLines).client.store.isSome = true ∧
      (runLines id some (newClient true true) aliceLines).exchanges =
        [⟨some (ascii "alice", ascii "secret", .unlisted), true, false⟩] ∧
      (transact (runLines id some (newClient true true) aliceLines).client ⟨.stat, []⟩).2 =
        .reply (ascii "0 0") [] := by
  have hs : (runLines id some (newClient true true) aliceLines).client.sess.state = .transaction := by
    decide +kernel
  have he : (runLines id some (newClient true true) aliceLines).exchanges =
      [⟨some (ascii "alice", ascii "secret", .unlisted), true, false⟩] := by
    decide +kernel
  refine ⟨fun hg => ?_, hs, by decide +kernel, he, by decide +kernel⟩
  have hr := (hg.refused _ (by rw [he]; rfl) rfl).1
  exact absurd (hs.symm.trans hr) (by simp)

end Maildancer.Pop3

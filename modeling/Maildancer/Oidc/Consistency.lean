import Maildancer.Oidc.Discipline

namespace Maildancer.Oidc

open List Text Passwd Service

def drawnToken : Nat × Event → Option Bytes
  | (_, .called (.generateToken _) _ token) => some token
  | _ => none

def storedCode : Nat × Event → Option Bytes
  | (_, .called (.storeCode c) _ _) => some c.code
  | _ => none

def consumedCode : Nat × Event → Option Bytes
  | (_, .called (.consumeCode code) _ (.ok _)) => some code
  | _ => none

-- The code that a request has got its tokens for.
def tokenCode : Nat × Event → Option Bytes
  | (_, .answered (.token _ _ form) (.tokens _)) => some form.code
  | _ => none

-- The random source does not repeat itself.
def Fresh (log : History) : Op → Moment → Prop
  | .generateToken _, x => ∀ entry ∈ log, drawnToken entry ≠ some x.token
  | _, _ => True

instance (log : History) : (o : Op) → (x : Moment) → Decidable (Fresh log o x)
  | .generateToken _, x => inferInstanceAs (Decidable (∀ entry ∈ log, drawnToken entry ≠ some x.token))
  | .clock, _ | .authenticate .., _ | .storeCode _, _ | .consumeCode _, _ | .storeSession _, _
  | .lookupSession _, _ | .deleteSession _, _ | .registerClient _, _ | .lookupClient .., _
  | .currentKeyFor _, _ | .sign _, _ | .sweepExpired _, _ => isTrue trivial

section Inversion

variable {entry : Nat × Event} {code : Bytes}

lemma storedCode_eq_some (h : storedCode entry = some code) :
    ∃ i c x, entry = (i, .called (.storeCode c) x ()) ∧ c.code = code := by
  obtain ⟨i, e⟩ := entry
  cases e with
  | began request | answered request result => cases h
  | called o x a =>
    cases o with
    | storeCode c => exact ⟨i, c, x, rfl, Option.some.inj h⟩
    | _ => cases h

lemma tokenCode_eq_some (h : tokenCode entry = some code) :
    ∃ i scheme host form claims, entry = (i, .answered (.token scheme host form) (.tokens claims)) ∧
      form.code = code := by
  obtain ⟨i, e⟩ := entry
  cases e with
  | began request | called o x a => cases h
  | answered request result =>
    cases request with
    | token scheme host form =>
      cases result with
      | tokens claims => exact ⟨i, scheme, host, form, claims, rfl, Option.some.inj h⟩
      | _ => cases h
    | _ => cases h

end Inversion

variable {c : AuthCode}

section Store

variable {srv : Server} {o : Op} {x : Moment} {t : Store}

lemma update_eq_some {α β : Type} [DecidableEq α] {f : α → Option β} {key key' : α} {value : Option β} {b : β}
    (h : Function.update f key value key' = some b) : f key' = some b ∨ key = key' ∧ value = some b := by
  by_cases hk : key' = key
  · subst hk
    rw [Function.update_self] at h
    exact .inr ⟨rfl, h⟩
  · rw [Function.update_of_ne hk] at h
    exact .inl h

lemma lookupSession_store (srv : Server) (id : Bytes) (x : Moment) (t : Store) :
    (srv.perform (.lookupSession id) x t).1 = t ∨ (srv.perform (.lookupSession id) x t).1 = t.deleteSession id := by
  rw [Server.perform]
  by_cases hr : (!x.replied) = true
  · rw [if_pos hr]
    exact .inl rfl
  rw [if_neg hr]
  rcases t.sessions id with _ | sess
  · exact .inl rfl
  dsimp only
  by_cases he : sess.expiresAt < x.now
  · rw [if_pos he]
    cases x.written with
    | true => exact .inr rfl
    | false => exact .inl rfl
  · rw [if_neg he]
    exact .inl rfl

-- A code in the store was there before, or this call has put it there.
lemma perform_codes {code : Bytes} (h : (srv.perform o x t).1.codes code = some c) :
    t.codes code = some c ∨ ∃ made, o = .storeCode made ∧ made.code = code ∧ srv.keptCode made = c := by
  cases o with
  | storeCode made =>
    rw [Server.perform] at h
    split_ifs at h
    · obtain hold | ⟨hc, hk⟩ := update_eq_some h
      · exact .inl hold
      · exact .inr ⟨made, rfl, hc, Option.some.inj hk⟩
    · exact .inl h
  | consumeCode code' =>
    rw [Server.perform] at h
    dsimp only at h
    split_ifs at h
    · obtain hold | ⟨-, hn⟩ := update_eq_some h
      · exact .inl hold
      · cases hn
    · exact .inl h
  | lookupSession id =>
    obtain hs | hs := lookupSession_store srv id x t
    · rw [hs] at h
      exact .inl h
    · rw [hs] at h
      exact .inl h
  | sweepExpired now =>
    rw [Server.perform] at h
    split_ifs at h
    · exact .inl (Option.eq_some_of_filter_eq_some h)
    · exact .inl h
  | storeSession sess | deleteSession id | registerClient rc =>
    rw [Server.perform] at h
    split_ifs at h <;> exact .inl h
  | _ => exact .inl h

variable {id domain : Bytes} {sess : SsoSession} {rc : RegisteredClient}

lemma perform_sessions (h : (srv.perform o x t).1.sessions id = some sess) :
    t.sessions id = some sess ∨ ∃ made, o = .storeSession made ∧ made.id = id ∧ srv.keptSession made = sess := by
  have hd : ∀ other, (t.deleteSession other).sessions id = some sess → t.sessions id = some sess := by
    intro other hs
    obtain hold | ⟨-, hn⟩ := update_eq_some hs
    · exact hold
    · cases hn
  cases o with
  | storeSession made =>
    rw [Server.perform] at h
    split_ifs at h
    · obtain hold | ⟨hid, hk⟩ := update_eq_some h
      · exact .inl hold
      · exact .inr ⟨made, rfl, hid, Option.some.inj hk⟩
    · exact .inl h
  | deleteSession other =>
    rw [Server.perform] at h
    split_ifs at h
    · exact .inl (hd other h)
    · exact .inl h
  | lookupSession other =>
    obtain hsa | hsa := lookupSession_store srv other x t
    · rw [hsa] at h
      exact .inl h
    · rw [hsa] at h
      exact .inl (hd other h)
  | sweepExpired now =>
    rw [Server.perform] at h
    split_ifs at h
    · exact .inl (Option.eq_some_of_filter_eq_some h)
    · exact .inl h
  | storeCode c | consumeCode code | registerClient rc =>
    rw [Server.perform] at h
    split_ifs at h <;> exact .inl h
  | _ => exact .inl h

lemma perform_clients {key : Bytes × Bytes}
    (h : (srv.perform o x t).1.clients key = some rc) : t.clients key = some rc ∨
      ∃ made, o = .registerClient made ∧ (made.domain, made.clientID) = key ∧ srv.keptClient made = rc := by
  cases o with
  | registerClient made =>
    rw [Server.perform] at h
    split_ifs at h
    · obtain hold | ⟨hkey, hk⟩ := update_eq_some h
      · exact .inl hold
      · exact .inr ⟨made, rfl, hkey, Option.some.inj hk⟩
    · exact .inl h
  | lookupSession id =>
    obtain hs | hs := lookupSession_store srv id x t
    · rw [hs] at h
      exact .inl h
    · rw [hs] at h
      exact .inl h
  | storeCode c | consumeCode code | storeSession sess | deleteSession id | sweepExpired now =>
    rw [Server.perform] at h
    split_ifs at h <;> exact .inl h
  | _ => exact .inl h

lemma consumeCode_ok {code : Bytes} (h : (srv.perform (.consumeCode code) x t).2 = .ok c) :
    t.codes code = some c ∧ x.now ≤ c.expiresAt ∧ (srv.perform (.consumeCode code) x t).1.codes code = none := by
  rw [Server.perform] at h ⊢
  dsimp only at h ⊢
  split_ifs at h with hf
  have hw : x.written = true := by
    cases hx : x.written with
    | true => rfl
    | false => simp [hx] at hf
  rcases hc : t.codes code with _ | c' <;> rw [hc] at h
  · cases h
  dsimp only at h
  split_ifs at h with he
  cases h
  exact ⟨rfl, by omega, by simp [hw, Store.deleteCode]⟩

lemma lookupSession_some
    (h : (srv.perform (.lookupSession id) x t).2 = some sess) : t.sessions id = some sess ∧ x.now ≤ sess.expiresAt := by
  rw [Server.perform] at h
  have hr : ¬ (!x.replied) = true := by
    intro hr
    rw [if_pos hr] at h
    cases h
  rw [if_neg hr] at h
  rcases hs : t.sessions id with _ | found <;> rw [hs] at h
  · cases h
  dsimp only at h
  by_cases he : found.expiresAt < x.now
  · rw [if_pos he] at h
    cases h
  · rw [if_neg he] at h
    cases h
    exact ⟨rfl, by omega⟩

lemma lookupClient_some {clientID : Bytes}
    (h : (srv.perform (.lookupClient domain clientID) x t).2 = some rc) : t.clients (domain, clientID) = some rc := by
  rw [Server.perform] at h
  split_ifs at h
  exact h

lemma authenticate_ok {keys : KeyResult} {username password : Bytes} {session : AuthSession}
    (h : srv.authenticate keys domain username password = .ok session) :
    ∃ de, srv.domainEntry domain = some de ∧ de.agent.accepts srv.hasher username password = true := by
  rw [Server.authenticate] at h
  rcases hde : srv.domainEntry domain with _ | de
  · rw [hde] at h
    cases h
  refine ⟨de, rfl, ?_⟩
  simp only [hde, Agent.authenticate] at h
  rw [Agent.accepts]
  rcases hl : de.agent.lookup username with _ | entry <;> rw [hl] at h
  · cases h
  cases hv : srv.hasher.verifyPassword password entry.hash with
  | false =>
    simp only [hv, Bool.not_false, if_true] at h
    cases h
  | true => simp [hv]

end Store

-- What is in the store was put there, a code that is there has not been consumed, and
-- nothing is drawn, stored, consumed or exchanged twice.
structure Consistent (srv : Server) (t : Store) (log : History) : Prop where
  codes : ∀ code c, t.codes code = some c →
    ∃ i x made, (i, .called (.storeCode made) x ()) ∈ log ∧ made.code = code ∧ srv.keptCode made = c
  sessions : ∀ id sess, t.sessions id = some sess →
    ∃ i x made, (i, .called (.storeSession made) x ()) ∈ log ∧ made.id = id ∧ srv.keptSession made = sess
  clients : ∀ key rc, t.clients key = some rc →
    ∃ i x made, (i, .called (.registerClient made) x ()) ∈ log ∧ (made.domain, made.clientID) = key ∧
      srv.keptClient made = rc
  unconsumed : ∀ code c, t.codes code = some c → ∀ entry ∈ log, consumedCode entry ≠ some code
  stored : ∀ code, ∀ entry ∈ log, consumedCode entry = some code → ∃ other ∈ log, storedCode other = some code
  drawnOnce : Once drawnToken log
  storedOnce : Once storedCode log
  consumedOnce : Once consumedCode log
  exchangedOnce : Once tokenCode log

section Invariant

variable {srv : Server} {log : History} {t : Store} {i : Nat} {o : Op} {x : Moment}

lemma consistent_newStore (srv : Server) : Consistent srv newStore [] where
  codes code c h := by cases h
  sessions id sess h := by cases h
  clients key rc h := by cases h
  unconsumed code c h := by cases h
  stored code entry h := by cases h
  drawnOnce := nodup_nil
  storedOnce := nodup_nil
  consumedOnce := nodup_nil
  exchangedOnce := nodup_nil

-- A code is stored by the request that drew it, and only once.
lemma storedCode_ne (hl : Lawful (Allowed srv) log) (hd : Once drawnToken log)
    (hm : MayStoreCode srv (own i log) c) : ∀ other ∈ log, storedCode other ≠ some c.code := by
  intro other ho hc
  obtain ⟨j, c', y, rfl, hs⟩ := storedCode_eq_some hc
  obtain ⟨earlier, hsu, hmay'⟩ := hl.of_mem ho
  obtain ⟨n, z, hdr⟩ := hm.drawn
  obtain ⟨n', z', hda⟩ := MayStoreCode.drawn hmay'
  have heq := hd.eq_of_eq_some (mem_own.mp hdr) (mem_of_mem_own hda hsu) rfl (congrArg some hs)
  obtain rfl := congrArg Prod.fst heq
  exact hm.first c' y (mem_own.mpr ho)

lemma consumedCode_perform {code : Bytes}
    (h : consumedCode (i, .called o x (srv.perform o x t).2) = some code) :
    ∃ c, t.codes code = some c ∧ (srv.perform o x t).1.codes code = none := by
  cases o with
  | consumeCode code' =>
    rcases hr : (srv.perform (.consumeCode code') x t).2 with e | c
    · rw [hr] at h
      cases h
    rw [hr] at h
    cases h
    obtain ⟨hc, -, hg⟩ := consumeCode_ok hr
    exact ⟨c, hc, hg⟩
  | _ => cases h

lemma Consistent.call (h : Consistent srv t log) (hl : Lawful (Allowed srv) log) (hf : Fresh log o x)
    (ha : CallAllowed srv (own i log) o) :
    Consistent srv (srv.perform o x t).1 ((i, .called o x (srv.perform o x t).2) :: log) where
  codes code c hc := by
    obtain hold | ⟨made, rfl, hco, hk⟩ := perform_codes hc
    · obtain ⟨j, y, made, hmem, hm⟩ := h.codes code c hold
      exact ⟨j, y, made, mem_cons_of_mem _ hmem, hm⟩
    · exact ⟨i, x, made, mem_cons_self, hco, hk⟩
  sessions id sess hs := by
    obtain hold | ⟨made, rfl, hid, hk⟩ := perform_sessions hs
    · obtain ⟨j, y, made, hmem, hm⟩ := h.sessions id sess hold
      exact ⟨j, y, made, mem_cons_of_mem _ hmem, hm⟩
    · exact ⟨i, x, made, mem_cons_self, hid, hk⟩
  clients key rc hrc := by
    obtain hold | ⟨made, rfl, hkey, hk⟩ := perform_clients hrc
    · obtain ⟨j, y, made, hmem, hm⟩ := h.clients key rc hold
      exact ⟨j, y, made, mem_cons_of_mem _ hmem, hm⟩
    · exact ⟨i, x, made, mem_cons_self, hkey, hk⟩
  unconsumed code c hc entry he hv := by
    cases he with
    | head =>
      obtain ⟨-, -, hg⟩ := consumedCode_perform hv
      rw [hg] at hc
      cases hc
    | tail _ he =>
      obtain hold | ⟨made, rfl, rfl, -⟩ := perform_codes hc
      · exact h.unconsumed code c hold entry he hv
      · obtain ⟨other, ho, hst⟩ := h.stored made.code entry he hv
        exact storedCode_ne hl h.drawnOnce ha other ho hst
  stored code entry he hv := by
    cases he with
    | head =>
      obtain ⟨c, hc, -⟩ := consumedCode_perform hv
      obtain ⟨j, y, made, hmem, rfl, -⟩ := h.codes code c hc
      exact ⟨_, mem_cons_of_mem _ hmem, rfl⟩
    | tail _ he =>
      obtain ⟨other, ho, hst⟩ := h.stored code entry he hv
      exact ⟨other, mem_cons_of_mem _ ho, hst⟩
  drawnOnce := by
    cases o with
    | generateToken n => exact h.drawnOnce.cons_of_new rfl hf
    | _ => exact h.drawnOnce.cons_of_none rfl
  storedOnce := by
    cases o with
    | storeCode c => exact h.storedOnce.cons_of_new rfl (storedCode_ne hl h.drawnOnce ha)
    | _ => exact h.storedOnce.cons_of_none rfl
  consumedOnce := by
    rcases hv : consumedCode (i, .called o x (srv.perform o x t).2) with _ | code
    · exact h.consumedOnce.cons_of_none hv
    · obtain ⟨c, hc, -⟩ := consumedCode_perform hv
      exact h.consumedOnce.cons_of_new hv (h.unconsumed code c hc)
  exchangedOnce := h.exchangedOnce.cons_of_none rfl

lemma Consistent.cons (h : Consistent srv t log) {entry : Nat × Event} (hd : drawnToken entry = none)
    (hs : storedCode entry = none) (hco : consumedCode entry = none)
    (he : Once tokenCode (entry :: log)) : Consistent srv t (entry :: log) where
  codes code c hc := by
    obtain ⟨j, y, made, hmem, hm⟩ := h.codes code c hc
    exact ⟨j, y, made, mem_cons_of_mem _ hmem, hm⟩
  sessions id sess hse := by
    obtain ⟨j, y, made, hmem, hm⟩ := h.sessions id sess hse
    exact ⟨j, y, made, mem_cons_of_mem _ hmem, hm⟩
  clients key rc hrc := by
    obtain ⟨j, y, made, hmem, hm⟩ := h.clients key rc hrc
    exact ⟨j, y, made, mem_cons_of_mem _ hmem, hm⟩
  unconsumed code c hc other ho hv := by
    cases ho with
    | head =>
      rw [hco] at hv
      cases hv
    | tail _ ho => exact h.unconsumed code c hc other ho hv
  stored code other ho hv := by
    cases ho with
    | head =>
      rw [hco] at hv
      cases hv
    | tail _ ho =>
      obtain ⟨made, hm, hcd⟩ := h.stored code other ho hv
      exact ⟨made, mem_cons_of_mem _ hm, hcd⟩
  drawnOnce := h.drawnOnce.cons_of_none hd
  storedOnce := h.storedOnce.cons_of_none hs
  consumedOnce := h.consumedOnce.cons_of_none hco
  exchangedOnce := he

lemma Consistent.exchanged (h : Consistent srv t log) (hl : Lawful (Allowed srv) log) {request : Request}
    {result : Response} (ha : AnswerAllowed srv (own i log) request result)
    (hu : ∀ q r, .answered q r ∉ own i log) : Once tokenCode ((i, .answered request result) :: log) := by
  rcases hv : tokenCode (i, .answered request result) with _ | code
  · exact h.exchangedOnce.cons_of_none hv
  refine h.exchangedOnce.cons_of_new hv fun other ho hs => ?_
  obtain ⟨_, scheme, host, form, claims, heq, rfl⟩ := tokenCode_eq_some hv
  obtain ⟨rfl, rfl, rfl⟩ : i = _ ∧ request = _ ∧ result = _ := by simpa using heq
  obtain ⟨j, scheme', host', form', claims', rfl, hc⟩ := tokenCode_eq_some hs
  obtain ⟨_, _, _, de, c, hr, hm⟩ := ha
  cases hr
  obtain ⟨earlier, hsu, hal⟩ := hl.of_mem ho
  obtain ⟨_, _, _, de', c', hr, hmay'⟩ := hal
  cases hr
  obtain ⟨y, hco⟩ := hm.consumed
  obtain ⟨z, hcn⟩ := hmay'.consumed
  have he := h.consumedOnce.eq_of_eq_some (mem_own.mp hco) (mem_of_mem_own hcn hsu) rfl
    (congrArg some hc)
  obtain rfl := congrArg Prod.fst he
  exact hu _ _ (mem_own.mpr ho)

end Invariant

lemma consistent {srv : Server} {p : Pool Op.reply Request Moment Response Store}
    (hr : Reaches srv.service.step (Admits Fresh) (start newStore) p) : Consistent srv p.shared p.log := by
  refine invariant ?_ handler_follows (consistent_newStore srv) ?_ ?_ ?_ hr
  · exact fun request => trivial
  · intro t log i request h
    exact h.cons rfl rfl rfl (h.exchangedOnce.cons_of_none rfl)
  · intro t log i o x h hl hf ha
    exact h.call hl hf ha
  · intro t log i request result h hl ha hu
    exact h.cons rfl rfl rfl (h.exchanged hl ha hu)

end Maildancer.Oidc

import Maildancer.Manager
import Maildancer.Transition

namespace Maildancer.Manager

open Function List Text

variable {m n : Manager}

def tokens (m : Manager) (e : Nat) : Nat := m.byToken.countP fun p => p.2 = e

structure SameRegistry (m n : Manager) : Prop where
  byToken : n.byToken = m.byToken
  byUser : n.byUser = m.byUser
  nextEntry : n.nextEntry = m.nextEntry
  username : ∀ e, (n.entries e).username = (m.entries e).username
  refCount : ∀ e, (n.entries e).refCount = (m.entries e).refCount

variable {e : Nat} {entry : SessionEntry}

lemma username_setEntry (hn : entry.username = (m.entries e).username) (d : Nat) :
    ((m.setEntry e entry).entries d).username = (m.entries d).username := by
  by_cases hd : d = e
  · subst hd
    simpa [Manager.setEntry] using hn
  · simp [Manager.setEntry, update_of_ne hd]

namespace SameRegistry

lemma registered (h : SameRegistry m n) : n.Registered e ↔ m.Registered e := by
  rw [Registered, h.byUser, h.username, Registered]

lemma setEntry (hn : entry.username = (m.entries e).username)
    (hc : entry.refCount = (m.entries e).refCount) : SameRegistry m (m.setEntry e entry) := by
  refine ⟨rfl, rfl, rfl, username_setEntry hn, fun d => ?_⟩
  by_cases hd : d = e
  · subst hd
    simpa [Manager.setEntry]
  · simp [Manager.setEntry, update_of_ne hd]

lemma killEntry (e : Nat) : SameRegistry m (m.killEntry e) := setEntry rfl rfl

lemma stopTimer (e : Nat) : SameRegistry m (m.stopTimer e) := by
  unfold Manager.stopTimer
  split
  · exact ⟨rfl, rfl, rfl, fun _ => rfl, fun _ => rfl⟩
  · have h : SameRegistry m (m.setEntry e { m.entries e with idleTimer := none }) := setEntry rfl rfl
    exact ⟨h.byToken, h.byUser, h.nextEntry, h.username, h.refCount⟩

lemma startTimer (e : Nat) : SameRegistry m (m.startTimer e) := by
  have h : SameRegistry m (m.setEntry e { m.entries e with idleTimer := some m.nextTimer }) :=
    setEntry rfl rfl
  exact ⟨h.byToken, h.byUser, h.nextEntry, h.username, h.refCount⟩

end SameRegistry

structure Inv (m : Manager) : Prop where
  distinct : (m.byToken.map Prod.fst).Nodup
  owner : ∀ p ∈ m.byToken, m.Registered p.2
  user : ∀ u e, m.byUser u = some e → (m.entries e).username = u ∧ e < m.nextEntry
  count : ∀ e, m.Registered e → (m.entries e).refCount = m.tokens e

namespace Inv

lemma new : Inv new := by
  refine ⟨nodup_nil, fun p hp => ?_, fun u e h => ?_, fun e h => ?_⟩
  · exact absurd hp not_mem_nil
  · cases h
  · cases h

lemma registered {u : Bytes} (h : Inv m) (hu : m.byUser u = some e) : m.Registered e := by
  unfold Registered
  rw [(h.user u e hu).1, hu]

-- The same sessions with other tokens and counts.
lemma retoken (h : Inv m) (hn : ∀ d, (n.entries d).username = (m.entries d).username)
    (hus : n.byUser = m.byUser) (hne : n.nextEntry = m.nextEntry)
    (hdi : (n.byToken.map Prod.fst).Nodup) (ho : ∀ p ∈ n.byToken, m.Registered p.2)
    (hc : ∀ d, (m.entries d).refCount = m.tokens d → (n.entries d).refCount = n.tokens d) : Inv n := by
  have hr : ∀ d, n.Registered d ↔ m.Registered d := fun d => by
    rw [Registered, hus, hn, Registered]
  refine ⟨hdi, fun p hp => (hr p.2).mpr (ho p hp), fun u d hu => ?_, fun d hd => ?_⟩
  · rw [hn, hne]
    exact h.user u d (hus ▸ hu)
  · exact hc d (h.count d ((hr d).mp hd))

lemma of_same (h : Inv m) (hs : SameRegistry m n) : Inv n := by
  refine h.retoken hs.username hs.byUser hs.nextEntry (hs.byToken ▸ h.distinct)
    (fun p hp => h.owner p (hs.byToken ▸ hp)) fun d hd => ?_
  rw [hs.refCount, hd, tokens, tokens, hs.byToken]

lemma unregister (h : Inv m)
    (hl : ∀ p ∈ m.byToken, p.2 ≠ e → (m.entries p.2).username ≠ (m.entries e).username) :
    Inv (m.unregister e) := by
  have hr : ∀ d, (m.unregister e).Registered d →
      (m.entries d).username ≠ (m.entries e).username ∧ m.Registered d := by
    intro d hd
    have hne : (m.entries d).username ≠ (m.entries e).username := by
      intro heq
      simp [Registered, Manager.unregister, heq] at hd
    refine ⟨hne, ?_⟩
    simpa [Registered, Manager.unregister, update_of_ne hne] using hd
  refine ⟨?_, fun p hp => ?_, fun u d hu => ?_, fun d hd => ?_⟩
  · exact h.distinct.sublist (filter_sublist.map _)
  · obtain ⟨hp, hne⟩ := mem_filter.mp hp
    have ho := hl p hp (of_decide_eq_true hne)
    have how := h.owner p hp
    simpa [Registered, Manager.unregister, update_of_ne ho] using how
  · by_cases hn : u = (m.entries e).username
    · simp [Manager.unregister, hn] at hu
    · have hu' : m.byUser u = some d := by
        simpa [Manager.unregister, update_of_ne hn] using hu
      exact h.user u d hu'
  · obtain ⟨hne, hd⟩ := hr d hd
    have hde : d ≠ e := fun heq => hne (congrArg (fun d => (m.entries d).username) heq)
    calc (m.entries d).refCount = (m.tokens d : Int) := h.count d hd
      _ = ((m.unregister e).tokens d : Int) := by
        congr 1
        simp only [tokens, Manager.unregister, countP_filter]
        refine countP_congr fun p _ => ?_
        simp only [decide_eq_true_eq, Bool.and_eq_true]
        exact ⟨fun hp => ⟨hp, hp ▸ hde⟩, fun hp => hp.1⟩

lemma last_of_registered (h : Inv m) (he : m.Registered e) :
    ∀ p ∈ m.byToken, p.2 ≠ e → (m.entries p.2).username ≠ (m.entries e).username := by
  intro p hp hne heq
  have ho : m.byUser (m.entries p.2).username = some p.2 := h.owner p hp
  rw [heq] at ho
  exact hne (Option.some.inj (ho.symm.trans he))

lemma unregister_stopTimer (h : Inv m) (he : m.Registered e) : Inv ((m.stopTimer e).unregister e) := by
  have hs := SameRegistry.stopTimer (m := m) e
  have hi := h.of_same hs
  exact hi.unregister (hi.last_of_registered (hs.registered.mpr he))

lemma removeEntry (h : Inv m) (he : m.Registered e) : Inv (m.removeEntry e) :=
  (h.unregister_stopTimer he).of_same (SameRegistry.killEntry e)

variable {token username : Bytes}

lemma distinct_generateToken (h : Inv m) (hf : token ∉ m.byToken.map Prod.fst) :
    ((m.generateToken e token).byToken.map Prod.fst).Nodup := by
  rw [generateToken, map_append]
  exact h.distinct.append (nodup_singleton token) (disjoint_singleton.mpr hf)

lemma addToken (h : Inv m) (he : m.Registered e)
    (hf : token ∉ m.byToken.map Prod.fst) (hn : entry.username = (m.entries e).username)
    (hc : entry.refCount = (m.entries e).refCount + 1) :
    Inv ((m.setEntry e entry).generateToken e token) := by
  refine h.retoken (username_setEntry hn) rfl rfl (h.distinct_generateToken hf) (fun p hp => ?_)
    fun d hold => ?_
  · rcases mem_append.mp hp with hp | hp
    · exact h.owner p hp
    · rw [mem_singleton.mp hp]
      exact he
  · by_cases hde : d = e
    · subst hde
      simp [generateToken, Manager.setEntry, tokens, hc, hold]
    · have hed : e ≠ d := fun heq => hde heq.symm
      simpa [generateToken, Manager.setEntry, update_of_ne hde, tokens, hed] using hold

lemma reuse (h : Inv m) (he : m.Registered e)
    (hf : token ∉ m.byToken.map Prod.fst) : Inv (m.reuse e token) := by
  have hs := SameRegistry.stopTimer (m := m) e
  exact (h.of_same hs).addToken (hs.registered.mpr he) (hs.byToken ▸ hf) rfl rfl

variable {mailbox : Bytes}

lemma login {alive : Bool} (h : Inv m)
    (hf : token ∉ m.byToken.map Prod.fst) : Inv (m.login username mailbox token alive) := by
  unfold Manager.login
  rcases hu : m.byUser username with _ | e
  · exact ⟨h.distinct, h.owner, h.user, h.count⟩
  have he := h.registered hu
  rcases alive with _ | _
  · have hg := h.removeEntry he
    exact ⟨hg.distinct, hg.owner, hg.user, hg.count⟩
  · exact h.reuse he hf

lemma addEntry (h : Inv m) (username mailbox : Bytes) : Inv (m.addEntry username mailbox) := by
  have hold : ∀ d, d < m.nextEntry → (m.addEntry username mailbox).entries d = m.entries d :=
    fun d hd => update_of_ne (Nat.ne_of_lt hd) _ _
  have hlt : ∀ d, (m.addEntry username mailbox).Registered d → d < m.nextEntry :=
    fun d hd => (h.user _ d hd).2
  have hr : ∀ d, d < m.nextEntry →
      ((m.addEntry username mailbox).Registered d ↔ m.Registered d) := fun d hd => by
    rw [Registered, hold d hd]
    rfl
  refine ⟨h.distinct, fun p hp => ?_, fun u d hu => ?_, fun d hd => ?_⟩
  · have ho := h.owner p hp
    exact (hr p.2 (h.user _ p.2 ho).2).mpr ho
  · obtain ⟨hn, hd⟩ := h.user u d hu
    exact ⟨(congrArg SessionEntry.username (hold d hd)).trans hn, Nat.lt_succ_of_lt hd⟩
  · rw [hold d (hlt d hd)]
    exact h.count d ((hr d (hlt d hd)).mp hd)

lemma register (h : Inv m) (he : e < m.nextEntry)
    (hn : (m.entries e).username = username) (hno : m.byUser username = none)
    (hc : (m.entries e).refCount = 1) (hf : token ∉ m.byToken.map Prod.fst) :
    Inv { m.generateToken e token with
      byUser := update m.byUser username (some e) } := by
  subst hn
  have hun : ∀ p ∈ m.byToken, p.2 ≠ e := by
    rintro p hp rfl
    have ho := h.owner p hp
    rw [Registered, hno] at ho
    cases ho
  have hot : ∀ d, m.Registered d → (m.entries d).username ≠ (m.entries e).username := by
    intro d hd heq
    rw [Registered, heq, hno] at hd
    cases hd
  refine ⟨?_, fun p hp => ?_, fun u d hu => ?_, fun d hd => ?_⟩
  · exact h.distinct_generateToken hf
  · rcases mem_append.mp hp with hp | hp
    · have ho := h.owner p hp
      simpa [Registered, generateToken, update_of_ne (hot p.2 ho)] using ho
    · rw [mem_singleton.mp hp]
      simp [Registered, generateToken]
  · by_cases hu' : u = (m.entries e).username
    · subst hu'
      obtain rfl : e = d := by simpa using hu
      exact ⟨rfl, he⟩
    · have hold : m.byUser u = some d := by simpa [update_of_ne hu'] using hu
      exact h.user u d hold
  · by_cases hde : d = e
    · subst hde
      have hz := countP_eq_zero.mpr fun p hp hpd => hun p hp (of_decide_eq_true hpd)
      simp [generateToken, tokens, hc, hz]
    · have hne : (m.entries d).username ≠ (m.entries e).username := by
        intro heq
        have hed : e = d := by simpa [Registered, generateToken, heq] using hd
        exact hde hed.symm
      have hold : m.Registered d := by
        simpa [Registered, generateToken, update_of_ne hne] using hd
      have hed : e ≠ d := fun heq => hde heq.symm
      simpa [generateToken, tokens, hed] using h.count d hold

lemma spawned (h : Inv m)
    (hf : token ∉ m.byToken.map Prod.fst) : Inv (m.spawned username mailbox token) := by
  have ha : Inv { m.addEntry username mailbox with
      spawning := m.spawning.erase (username, mailbox) } :=
    (h.addEntry username mailbox).of_same ⟨rfl, rfl, rfl, fun _ => rfl, fun _ => rfl⟩
  have he : (m.addEntry username mailbox).entries m.nextEntry =
      ⟨username, mailbox, 1, none, false⟩ := update_self _ _ _
  simp only [Manager.spawned]
  split
  case h_1 existing hu =>
    have hk := ha.of_same (SameRegistry.killEntry m.nextEntry)
    exact hk.reuse (hk.registered hu) hf
  case h_2 hu =>
    have hr := ha.register (Nat.lt_succ_self _) (congrArg SessionEntry.username he) hu
      (congrArg SessionEntry.refCount he) hf
    exact hr.of_same ⟨rfl, rfl, rfl, fun _ => rfl, fun _ => rfl⟩

lemma dropToken (entry : SessionEntry) (h : Inv m)
    (hm : (token, e) ∈ m.byToken) (hn : entry.username = (m.entries e).username)
    (hc : entry.refCount = (m.entries e).refCount - 1) :
    Inv ({ m with byToken := m.byToken.filter fun p => p.1 ≠ token }.setEntry e entry) := by
  have he : (m.byToken.filter fun p => p.1 ≠ token) = m.byToken.erase (token, e) := by
    rw [(List.Nodup.of_map _ h.distinct).erase_eq_filter]
    refine filter_congr fun p hp => ?_
    have hk : p.1 = token ↔ p = (token, e) :=
      ⟨fun heq => inj_on_of_nodup_map h.distinct hp hm heq, fun heq => heq ▸ rfl⟩
    by_cases hpe : p = (token, e)
    · simp [hpe]
    · simp [hk, hpe]
  refine h.retoken (username_setEntry hn) rfl rfl (h.distinct.sublist (filter_sublist.map _))
    (fun p hp => h.owner p (mem_of_mem_filter hp)) fun d hold => ?_
  have hs : m.tokens d =
      (m.byToken.erase (token, e)).countP (fun p => p.2 = d) + if e = d then 1 else 0 := by
    rw [tokens, (perm_cons_erase hm).countP_eq, countP_cons]
    simp
  by_cases hde : d = e
  · subst hde
    rw [if_pos rfl] at hs
    simp only [Manager.setEntry, update_self, tokens, he, hc]
    omega
  · rw [if_neg fun heq => hde heq.symm] at hs
    simp only [Manager.setEntry, update_of_ne hde, tokens, he]
    omega

lemma logout (h : Inv m) (hs : m.logout token = some n) : Inv n := by
  unfold Manager.logout at hs
  split at hs
  · cases hs
  case h_2 key e hf =>
    obtain rfl : key = token := by simpa using List.find?_some hf
    have hd := dropToken { m.entries e with refCount := (m.entries e).refCount - 1 } h
      (mem_of_find?_eq_some hf) rfl rfl
    cases hs
    split
    · exact hd.of_same (SameRegistry.startTimer e)
    · exact hd

lemma reapSession (h : Inv m) (hl : (m.entries e).refCount ≤ 0 →
      ∀ p ∈ m.byToken, p.2 ≠ e → (m.entries p.2).username ≠ (m.entries e).username) :
    Inv (m.reapSession e) := by
  unfold Manager.reapSession
  split
  case isTrue => exact h
  case isFalse hi =>
    exact (h.unregister (hl (Int.not_lt.mp hi))).of_same (SameRegistry.killEntry e)

lemma monitorProcess (h : Inv m) : Inv (m.monitorProcess e) := by
  have hk := h.of_same (SameRegistry.killEntry e)
  simp only [Manager.monitorProcess]
  split
  case isTrue he => exact hk.unregister_stopTimer he
  case isFalse => exact hk

lemma close : Inv m.close := by
  refine ⟨nodup_nil, fun p hp => absurd hp not_mem_nil, fun u e hu => ?_, fun e he => ?_⟩
  · cases hu
  · cases he

end Inv

-- A reap that goes through finds no token of another session of its user.
def Prompt (m : Manager) : ManagerStep → Prop
  | .reap e => (m.entries e).refCount ≤ 0 →
      ∀ p ∈ m.byToken, p.2 ≠ e → (m.entries p.2).username ≠ (m.entries e).username
  | _ => True

instance : (a : ManagerStep) → Decidable (Prompt m a)
  | .reap e => inferInstanceAs (Decidable ((m.entries e).refCount ≤ 0 → ∀ p ∈ m.byToken, _))
  | .login _ _ _ _ | .spawned _ _ _ | .spawnFailed _ _ | .logout _ | .fire _ _ | .exit _ | .close => isTrue trivial

variable {a : ManagerStep}

lemma Inv.step (h : Inv m) (hp : Prompt m a) (hs : m.step a = some n) : Inv n := by
  cases a with
  | login username mailbox token alive =>
    simp only [Manager.step] at hs
    split_ifs at hs with hf
    exact Option.some.inj hs ▸ h.login hf
  | spawned username mailbox token =>
    simp only [Manager.step] at hs
    split_ifs at hs with he
    exact Option.some.inj hs ▸ h.spawned fun hu => he (.inl hu)
  | logout token => exact h.logout hs
  | reap e =>
    simp only [Manager.step] at hs
    split_ifs at hs
    have hr := h.reapSession hp
    exact Option.some.inj hs ▸ ⟨hr.distinct, hr.owner, hr.user, hr.count⟩
  | exit e =>
    simp only [Manager.step] at hs
    split_ifs at hs
    have hex := h.monitorProcess (e := e)
    exact Option.some.inj hs ▸ ⟨hex.distinct, hex.owner, hex.user, hex.count⟩
  | spawnFailed _ _ | fire _ _ =>
    simp only [Manager.step] at hs
    split_ifs at hs
    exact Option.some.inj hs ▸ ⟨h.distinct, h.owner, h.user, h.count⟩
  | close => exact Option.some.inj hs ▸ Inv.close

def Consistent (m : Manager) : Prop :=
  ∀ p ∈ m.byToken, m.Registered p.2 ∧ (m.entries p.2).refCount = m.tokens p.2

instance : Decidable m.Consistent := inferInstanceAs (Decidable (∀ p ∈ m.byToken, _))

lemma Inv.consistent (h : Inv m) : m.Consistent :=
  fun p hp => ⟨h.owner p hp, h.count p.2 (h.owner p hp)⟩

lemma prompt_of_consistent (hs : m.step a = some n) (hc : n.Consistent) : Prompt m a := by
  cases a with
  | reap e =>
    intro hi p hp hne hn
    simp only [Manager.step] at hs
    split_ifs at hs
    have hr : m.reapSession e = (m.unregister e).killEntry e := if_neg (Int.not_lt.mpr hi)
    have hk := SameRegistry.killEntry (m := m.unregister e) e
    cases hs
    rw [hr] at hc
    have hke : p ∈ m.byToken.filter fun p => p.2 ≠ e :=
      mem_filter.mpr ⟨hp, decide_eq_true hne⟩
    have ho := (hc p hke).1
    have hg : (m.unregister e).byUser (m.entries p.2).username = none := by
      rw [hn]
      exact update_self _ _ _
    have hna := hk.username p.2
    simp only [Registered] at ho
    rw [hna] at ho
    cases hg.symm.trans ho
  | login _ _ _ _ | spawned _ _ _ | spawnFailed _ _ | logout _ | fire _ _ | exit _ | close => trivial

theorem registry_consistent (h : Reaches step Prompt new m) :
    m.Consistent ∧ ∀ a n, m.step a = some n → (n.Consistent ↔ Prompt m a) := by
  have hi := h.invariant Inv.new fun _ _ _ hs hp hst => hs.step hp hst
  refine ⟨hi.consistent, fun a n hst => ⟨prompt_of_consistent hst, fun hp => ?_⟩⟩
  exact (hi.step hp hst).consistent

def alice : Bytes := ascii "alice@example.org"

-- The mail-session exits while the reap of its entry waits for the lock, and
-- its user logs in again before the reap runs.
def lateReap : List ManagerStep :=
  [.login alice alice (ascii "a0") true, .spawned alice alice (ascii "a0"), .logout (ascii "a0"),
    .fire 0 0, .exit 0, .login alice alice (ascii "b1") true, .spawned alice alice (ascii "b1"),
    .reap 0]

-- The session that is left idle is reaped before its user logs in again, twice over one mail-session.
def loginTwice : List ManagerStep :=
  [.login alice alice (ascii "a0") true, .spawned alice alice (ascii "a0"), .logout (ascii "a0"), .fire 0 0, .reap 0,
    .login alice alice (ascii "b1") true, .spawned alice alice (ascii "b1"),
    .login alice alice (ascii "c2") true, .logout (ascii "b1")]

theorem late_reap_orphans_token : ∃ m, Reaches step (fun _ _ => True) new m ∧ ¬ m.Consistent := by
  have hr : (runSteps step new lateReap).map (fun m => decide m.Consistent) = some false := by
    decide +kernel
  obtain ⟨m, hm, hf⟩ := Option.map_eq_some_iff.mp hr
  exact ⟨m, Reaches.of_runSteps (fun _ _ _ => trivial) hm, of_decide_eq_false hf⟩

theorem registry_consistent_login_twice :
    ∃ m, runSteps step new loginTwice = some m ∧ m.byToken = [(ascii "c2", 1)] ∧ m.Consistent ∧
      ∀ a n, m.step a = some n → (n.Consistent ↔ Prompt m a) := by
  have hr : (runSteps step new loginTwice).map Manager.byToken = some [(ascii "c2", 1)] := by
    decide +kernel
  obtain ⟨m, hm, ht⟩ := Option.map_eq_some_iff.mp hr
  have hprompt : Along step Prompt new loginTwice := by
    decide +kernel
  exact ⟨m, hm, ht, registry_consistent (Reaches.of_along hprompt hm)⟩

end Maildancer.Manager

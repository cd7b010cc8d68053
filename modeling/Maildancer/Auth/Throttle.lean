import Maildancer.Auth.RateLimit

namespace Maildancer.Auth

open Function List Text

variable {e : LimitEntry}

namespace LimitStore

variable {s : LimitStore} {now t : Int} {key other : Bytes}

lemma live_eq_some : s.live now key = some e ↔ s key = some e ∧ now < e.expiresAt := by
  simp [live, Option.filter_eq_some_iff]

lemma live_prune (h : now ≤ t) : (s.prune now).live t key = s.live t key := by
  apply Option.ext
  intro e
  simp only [live_eq_some, prune]
  constructor
  · exact fun he => ⟨he.1.1, he.2⟩
  · exact fun he => ⟨⟨he.1, h.trans_lt he.2⟩, he.2⟩

lemma live_update_ne (value : Option LimitEntry) (hne : key ≠ other) (h : now ≤ t) :
    LimitStore.live (update (s.prune now) other value) t key = s.live t key := by
  have hs : LimitStore.live (update (s.prune now) other value) t key = (s.prune now).live t key := by
    unfold live
    rw [update_of_ne hne]
  rw [hs, live_prune h]

lemma live_update_self (e : LimitEntry) (h : t < e.expiresAt) :
    LimitStore.live (update (s.prune now) key (some e)) t key = some e := by
  rw [live_eq_some, update_self]
  exact ⟨rfl, h⟩

-- A counter that has expired starts again at one.
def counted (s : LimitStore) (now : Int) (key : Bytes) (ttl : Int) : LimitEntry :=
  match s.live now key with
  | some e => { e with count := e.count + 1 }
  | none => ⟨1, now + ttl⟩

lemma incr_eq (ttl : Int) : s.incr now key ttl =
    (update (s.prune now) key (some (s.counted now key ttl)), (s.counted now key ttl).count) := by
  unfold incr counted
  cases s.live now key with
  | none | some e => rfl

end LimitStore

section Count

variable {cfg : RateLimitConfig} {s : LimitStore} {now t : Int} {counterKey lockKey key : Bytes} {maxFailures : Int}

lemma live_countFailure_ne (hc : key ≠ counterKey) (hl : key ≠ lockKey) (h : now ≤ t) :
    (countFailure cfg s now counterKey lockKey maxFailures).live t key = s.live t key := by
  unfold countFailure
  split
  · rfl
  rw [LimitStore.incr_eq]
  dsimp only
  split
  · exact LimitStore.live_update_ne _ hc h
  · rw [LimitStore.set, LimitStore.live_update_ne _ hl h, LimitStore.live_update_ne _ hc h]

lemma live_countFailure_counter (hmax : 0 < maxFailures) (hne : counterKey ≠ lockKey) (h : now ≤ t)
    (hl : t < (s.counted now counterKey cfg.window).expiresAt) :
    (countFailure cfg s now counterKey lockKey maxFailures).live t counterKey =
      some (s.counted now counterKey cfg.window) := by
  unfold countFailure
  rw [if_neg (by omega), LimitStore.incr_eq]
  dsimp only
  split
  · exact LimitStore.live_update_self _ hl
  · rw [LimitStore.set, LimitStore.live_update_ne _ hne h]
    exact LimitStore.live_update_self _ hl

lemma live_countFailure_lock (hmax : 0 < maxFailures)
    (hc : maxFailures ≤ (s.counted now counterKey cfg.window).count) (hl : t < now + cfg.lockout) :
    ((countFailure cfg s now counterKey lockKey maxFailures).live t lockKey).isSome := by
  unfold countFailure
  rw [if_neg (by omega), LimitStore.incr_eq]
  dsimp only
  rw [if_neg (by omega), LimitStore.set, LimitStore.live_update_self _ hl]
  rfl

end Count

def failKey (ip username : Bytes) : Bytes := keyFailIPUser ++ ipUserKey ip username

def lockKey (ip username : Bytes) : Bytes := keyLockIPUser ++ ipUserKey ip username

section Keys

variable (ip username : Bytes)

lemma ne_of_byte {key other : Bytes} (i : Nat) (h : key[i]? ≠ other[i]?) : key ≠ other :=
  fun heq => h (congrArg (fun key : Bytes => key[i]?) heq)

-- The prefixes differ at the byte after "auth:" or at the one after "ip".
lemma failKey_ne_lockKey (other : Bytes) : failKey ip username ≠ lockKey ip other :=
  ne_of_byte 5 (show some (102 : UInt8) ≠ some 108 by decide)

lemma failKey_ne_keyFailIP : failKey ip username ≠ keyFailIP ++ ip :=
  ne_of_byte 12 (show some (117 : UInt8) ≠ some 58 by decide)

lemma failKey_ne_keyLockIP : failKey ip username ≠ keyLockIP ++ ip :=
  ne_of_byte 5 (show some (102 : UInt8) ≠ some 108 by decide)

lemma lockKey_ne_keyFailIP : lockKey ip username ≠ keyFailIP ++ ip :=
  ne_of_byte 5 (show some (108 : UInt8) ≠ some 102 by decide)

lemma lockKey_ne_keyLockIP : lockKey ip username ≠ keyLockIP ++ ip :=
  ne_of_byte 12 (show some (117 : UInt8) ≠ some 58 by decide)

variable {username}

lemma failKey_ne {other : Bytes} (hne : username ≠ other) : failKey ip username ≠ failKey ip other := by
  simpa [failKey, ipUserKey] using hne

lemma lockKey_ne {other : Bytes} (hne : username ≠ other) : lockKey ip username ≠ lockKey ip other := by
  simpa [lockKey, ipUserKey] using hne

end Keys

section Record

variable {cfg : RateLimitConfig} {s : LimitStore} {now t : Int} {ip username other : Bytes}

lemma live_recordFailure_of_ne {key : Bytes} (hf : key ≠ failKey ip other) (hl : key ≠ lockKey ip other)
    (hfa : key ≠ keyFailIP ++ ip) (hlo : key ≠ keyLockIP ++ ip) (h : now ≤ t) :
    (recordFailure cfg s now ip other).live t key = s.live t key := by
  unfold recordFailure
  split
  · rfl
  rw [live_countFailure_ne hfa hlo h]
  split
  · rfl
  · exact live_countFailure_ne hf hl h

variable (hmax : 0 < cfg.maxFailuresPerIPUser) (hip : ip ≠ []) (huser : username ≠ [])

include hmax hip huser

lemma live_failKey_self (h : now ≤ t) (hl : t < (s.counted now (failKey ip username) cfg.window).expiresAt) :
    (recordFailure cfg s now ip username).live t (failKey ip username) =
      some (s.counted now (failKey ip username) cfg.window) := by
  unfold recordFailure
  rw [if_neg hip, if_neg huser]
  rw [live_countFailure_ne (failKey_ne_keyFailIP ip username) (failKey_ne_keyLockIP ip username) h]
  exact live_countFailure_counter hmax (failKey_ne_lockKey ip username username) h hl

lemma live_lockKey_self (h : now ≤ t) (hl : t < now + cfg.lockout)
    (hc : cfg.maxFailuresPerIPUser ≤ (s.counted now (failKey ip username) cfg.window).count) :
    ((recordFailure cfg s now ip username).live t (lockKey ip username)).isSome := by
  unfold recordFailure
  rw [if_neg hip, if_neg huser]
  rw [live_countFailure_ne (lockKey_ne_keyFailIP ip username) (lockKey_ne_keyLockIP ip username) h]
  exact live_countFailure_lock hmax hc hl

end Record

-- A call that the limits let through, and whether its failure found no counter.
structure Attempt where
  call : LoginCall
  opens : Bool

section Runs

variable (cfg : RateLimitConfig) (ip : Bytes)

def outcomes (s : LimitStore) : List LoginCall → List LoginOutcome
  | [] => []
  | call :: rest =>
    (authenticateWithDomain cfg ip s call).2 :: outcomes (authenticateWithDomain cfg ip s call).1 rest

-- The calls that reach the password, with whether they opened a new window.
def attempts (s : LimitStore) : List LoginCall → List Attempt
  | [] => []
  | call :: rest =>
    let later := attempts (authenticateWithDomain cfg ip s call).1 rest
    if (authenticateWithDomain cfg ip s call).2 = .limited then later
    else ⟨call, (s.live call.recordedAt (failKey ip call.username)).isNone⟩ :: later

end Runs

def Clock : Int → List LoginCall → Prop
  | _, [] => True
  | now, call :: rest => now ≤ call.checkedAt ∧ call.checkedAt ≤ call.recordedAt ∧ Clock call.recordedAt rest

structure Account where
  domain : Bytes
  base : Bytes

-- Spellings of a username may lead to one account.
def Account.hitBy (c : CaseMap) (account : Account) (call : LoginCall) : Bool :=
  authRoute c call.hosting call.username = .domain account.domain account.base

def hits (c : CaseMap) (cfg : RateLimitConfig) (ip : Bytes) (account : Account) (s : LimitStore)
    (calls : List LoginCall) : List Attempt :=
  (attempts cfg ip s calls).filter fun a => account.hitBy c a.call

-- In the span that starts with the first failure there are few enough attempts,
-- and after the last that is allowed there is none for the time of a lockout.
structure Throttled (cfg : RateLimitConfig) (first : Attempt) (rest : List Attempt) : Prop where
  span : ((first :: rest.filter fun a => a.call.checkedAt < first.call.recordedAt + cfg.window).length : Int) ≤
    cfg.maxFailuresPerIPUser
  lockout : ∀ made last after, first :: rest = made ++ last :: after →
    (made.length : Int) + 1 = cfg.maxFailuresPerIPUser →
    last.call.recordedAt < first.call.recordedAt + cfg.window →
    ∀ later ∈ after, last.call.recordedAt + cfg.lockout ≤ later.call.checkedAt

lemma username_ne_nil {c : CaseMap} {account : Account} {call : LoginCall} (h : account.hitBy c call = true) :
    call.username ≠ [] := by
  intro he
  simp only [Account.hitBy, decide_eq_true_eq, he] at h
  unfold authRoute at h
  simp only [show splitUsername [] = ([], []) from rfl, ne_eq, not_true_eq_false, false_and, ite_false] at h
  split at h <;> cases h

section Step

variable {cfg : RateLimitConfig} {ip : Bytes} {s : LimitStore} {call : LoginCall} {rest : List LoginCall}

lemma failed_cases (h : LoginOutcome.accepted ∉ outcomes cfg ip s (call :: rest)) :
    (isLimited s call.checkedAt ip call.username = true ∧
      attempts cfg ip s (call :: rest) = attempts cfg ip s rest ∧ .accepted ∉ outcomes cfg ip s rest) ∨
    (isLimited s call.checkedAt ip call.username = false ∧ attempts cfg ip s (call :: rest) =
        ⟨call, (s.live call.recordedAt (failKey ip call.username)).isNone⟩ ::
          attempts cfg ip (recordFailure cfg s call.recordedAt ip call.username) rest ∧
      .accepted ∉ outcomes cfg ip (recordFailure cfg s call.recordedAt ip call.username) rest) := by
  rw [outcomes, mem_cons, not_or] at h
  rw [attempts]
  rcases hl : isLimited s call.checkedAt ip call.username with _ | _
  · rcases hs : call.succeeds with _ | _
    · have hc : authenticateWithDomain cfg ip s call =
          (recordFailure cfg s call.recordedAt ip call.username, .refused) := by
        simp [authenticateWithDomain, hl, hs]
      rw [hc] at h ⊢
      exact .inr ⟨rfl, if_neg nofun, h.2⟩
    · have hc : authenticateWithDomain cfg ip s call = (recordSuccess s ip call.username, .accepted) := by
        simp [authenticateWithDomain, hl, hs]
      rw [hc] at h
      exact absurd rfl h.1
  · have hc : authenticateWithDomain cfg ip s call = (s, .limited) := by
      simp [authenticateWithDomain, hl]
    rw [hc] at h ⊢
    exact .inl ⟨rfl, if_pos rfl, h.2⟩

lemma lock_of_not_limited (hip : ip ≠ []) (huser : call.username ≠ [])
    (h : isLimited s call.checkedAt ip call.username = false) :
    s.live call.checkedAt (lockKey ip call.username) = none := by
  simp only [isLimited, hip, huser, decide_eq_false_iff_not, ne_eq, not_false_eq_true, true_and, not_or,
    Bool.not_eq_true, Option.isSome_eq_false_iff, Option.isNone_iff_eq_none] at h
  exact h.1

end Step

def Locked (s : LimitStore) (ip username : Bytes) (now till : Int) : Prop :=
  ∀ t, now ≤ t → t < till → (s.live t (lockKey ip username)).isSome

def Counted (s : LimitStore) (ip username : Bytes) (now till : Int) (count : Nat) : Prop :=
  ∀ t, now ≤ t → t < till → ∃ e, s.live t (failKey ip username) = some e ∧ e.expiresAt = till ∧ count ≤ e.count

section Invariants

variable {cfg : RateLimitConfig} {ip username other : Bytes} {s : LimitStore} {now later till : Int} {count : Nat}

lemma Locked.mono (h : Locked s ip username now till) (hle : now ≤ later) : Locked s ip username later till :=
  fun t ht => h t (hle.trans ht)

lemma Counted.mono (h : Counted s ip username now till count) (hle : now ≤ later) :
    Counted s ip username later till count :=
  fun t ht => h t (hle.trans ht)

lemma Locked.of_other (h : Locked s ip username now till) (hle : now ≤ later) (hne : username ≠ other) :
    Locked (recordFailure cfg s later ip other) ip username later till := by
  intro t ht hti
  rw [live_recordFailure_of_ne (failKey_ne_lockKey ip other username).symm (lockKey_ne ip hne)
    (lockKey_ne_keyFailIP ip username) (lockKey_ne_keyLockIP ip username) ht]
  exact h t (hle.trans ht) hti

lemma Counted.of_other (h : Counted s ip username now till count) (hle : now ≤ later) (hne : username ≠ other) :
    Counted (recordFailure cfg s later ip other) ip username later till count := by
  intro t ht hti
  rw [live_recordFailure_of_ne (failKey_ne ip hne) (failKey_ne_lockKey ip username other)
    (failKey_ne_keyFailIP ip username) (failKey_ne_keyLockIP ip username) ht]
  exact h t (hle.trans ht) hti

variable (hmax : 0 < cfg.maxFailuresPerIPUser) (hip : ip ≠ []) (huser : username ≠ [])

include hmax hip huser

lemma locked_of_count
    (hc : cfg.maxFailuresPerIPUser ≤ (s.counted now (failKey ip username) cfg.window).count) :
    Locked (recordFailure cfg s now ip username) ip username now (now + cfg.lockout) :=
  fun _ ht hti => live_lockKey_self hmax hip huser ht hti hc

lemma counted_of_opens (ho : s.live now (failKey ip username) = none) :
    Counted (recordFailure cfg s now ip username) ip username now (now + cfg.window) 1 := by
  have hc : s.counted now (failKey ip username) cfg.window = ⟨1, now + cfg.window⟩ := by
    rw [LimitStore.counted, ho]
  intro t ht hti
  refine ⟨⟨1, now + cfg.window⟩, ?_, rfl, le_rfl⟩
  rw [live_failKey_self hmax hip huser ht (by rw [hc]; exact hti), hc]

lemma Counted.succ (h : Counted s ip username now till count) (hle : now ≤ later) (hlt : later < till) :
    Counted (recordFailure cfg s later ip username) ip username later till (count + 1) ∧
      count + 1 ≤ (s.counted later (failKey ip username) cfg.window).count := by
  obtain ⟨e, hl, he, hc⟩ := h later hle hlt
  have hco : s.counted later (failKey ip username) cfg.window = { e with count := e.count + 1 } := by
    rw [LimitStore.counted, hl]
  refine ⟨?_, by rw [hco]; exact Nat.succ_le_succ hc⟩
  intro t ht hti
  refine ⟨{ e with count := e.count + 1 }, ?_, he, Nat.succ_le_succ hc⟩
  rw [live_failKey_self hmax hip huser ht (by rw [hco]; exact hti.trans_eq he.symm), hco]

end Invariants

variable {calls : List LoginCall}

variable {made after : List Attempt} {last first : Attempt}

section Run

variable {c : CaseMap} {cfg : RateLimitConfig} {ip username : Bytes} {account : Account}
  (hmax : 0 < cfg.maxFailuresPerIPUser) (hip : ip ≠ []) (huser : username ≠ [])

lemma attempts_mem {s : LimitStore} {a : Attempt} (h : a ∈ attempts cfg ip s calls) : a.call ∈ calls := by
  induction calls generalizing s with
  | nil => simp [attempts] at h
  | cons call rest ih =>
    rw [attempts] at h
    split at h
    · exact mem_cons_of_mem _ (ih h)
    · obtain rfl | h := mem_cons.mp h
      · exact mem_cons_self
      · exact mem_cons_of_mem _ (ih h)

lemma Clock.le {now : Int} (h : Clock now calls) :
    ∀ call ∈ calls, now ≤ call.checkedAt ∧ call.checkedAt ≤ call.recordedAt := by
  induction calls generalizing now with
  | nil => exact fun call hm => absurd hm not_mem_nil
  | cons first rest ih =>
    obtain ⟨hn, hf, hr⟩ := h
    intro call hm
    obtain rfl | hm := mem_cons.mp hm
    · exact ⟨hn, hf⟩
    · have := ih hr call hm
      exact ⟨by omega, this.2⟩

lemma attempts_pairwise {s : LimitStore} {now : Int} (h : Clock now calls) :
    (attempts cfg ip s calls).Pairwise fun a b => a.call.recordedAt ≤ b.call.checkedAt := by
  induction calls generalizing s now with
  | nil => exact List.Pairwise.nil
  | cons call rest ih =>
    obtain ⟨-, -, hr⟩ := h
    rw [attempts]
    split
    · exact ih hr
    · exact pairwise_cons.mpr ⟨fun b hb => (hr.le b.call (attempts_mem hb)).1, ih hr⟩

include hip huser in
lemma Locked.no_attempt {s : LimitStore} {now till : Int}
    (h : Locked s ip username now till) (hc : Clock now calls) (hf : .accepted ∉ outcomes cfg ip s calls) :
    ∀ a ∈ attempts cfg ip s calls, a.call.username = username → till ≤ a.call.checkedAt := by
  induction calls generalizing s now with
  | nil => exact fun a ha => absurd ha not_mem_nil
  | cons call rest ih =>
    obtain ⟨hnow, hca, hr⟩ := hc
    obtain ⟨-, hat, hf⟩ | ⟨hfr, hat, hf⟩ := failed_cases hf
    · rw [hat]
      exact ih (h.mono (hnow.trans hca)) hr hf
    rw [hat]
    have ho : call.username = username → till ≤ call.checkedAt := by
      rintro rfl
      have hl := lock_of_not_limited hip huser hfr
      by_contra hlt
      have hs := h call.checkedAt hnow (not_le.mp hlt)
      rw [hl] at hs
      cases hs
    have hn : Locked (recordFailure cfg s call.recordedAt ip call.username) ip username call.recordedAt till := by
      by_cases hna : call.username = username
      · intro t ht hti
        exact absurd ((ho hna).trans (hca.trans ht)) (not_le.mpr hti)
      · exact h.of_other (hnow.trans hca) (Ne.symm hna)
    intro a ha
    obtain rfl | ha := mem_cons.mp ha
    · exact ho
    · exact ih hn hr hf a ha

include hmax hip huser in
lemma Counted.lockout {s : LimitStore} {now till : Int} {count : Nat}
    (h : Counted s ip username now till count) (hc : Clock now calls)
    (hf : .accepted ∉ outcomes cfg ip s calls)
    (hone : ∀ call ∈ calls, account.hitBy c call = true → call.username = username)
    (hh : hits c cfg ip account s calls = made ++ last :: after)
    (he : cfg.maxFailuresPerIPUser ≤ count + made.length + 1) (hl : last.call.recordedAt < till) :
    ∀ a ∈ after, last.call.recordedAt + cfg.lockout ≤ a.call.checkedAt := by
  induction calls generalizing s now count made with
  | nil => simp [hits, attempts] at hh
  | cons call rest ih =>
    obtain ⟨hnow, hca, hr⟩ := hc
    have ho := fun call hm => hone call (mem_cons_of_mem _ hm)
    obtain ⟨-, hat, hf⟩ | ⟨hfr, hat, hf⟩ := failed_cases hf
    · rw [hits, hat] at hh
      exact ih (h.mono (hnow.trans hca)) hr hf ho hh he
    rw [hits, hat] at hh
    by_cases hhit : account.hitBy c call = true
    · have hn := hone call mem_cons_self hhit
      rw [filter_cons, if_pos hhit] at hh
      rcases made with _ | ⟨head, made⟩
      · obtain ⟨rfl, haf⟩ := cons_eq_cons.mp hh
        obtain ⟨-, hco⟩ := h.succ hmax hip huser (hnow.trans hca) hl
        have hre : cfg.maxFailuresPerIPUser ≤
            (s.counted call.recordedAt (failKey ip username) cfg.window).count := by
          simp only [length_nil] at he
          omega
        have hlo := locked_of_count hmax hip huser hre
        intro a ha
        rw [← haf] at ha
        obtain ⟨hae, hhi⟩ := mem_filter.mp ha
        have hna := ho a.call (attempts_mem hae) hhi
        rw [hn] at hae hf
        exact hlo.no_attempt hip huser hr hf a hae hna
      · obtain ⟨rfl, hta⟩ := cons_eq_cons.mp hh
        have hla : last ∈ attempts cfg ip (recordFailure cfg s call.recordedAt ip call.username) rest := by
          apply mem_of_mem_filter (p := fun a => account.hitBy c a.call)
          rw [hta]
          simp
        have hti := hr.le last.call (attempts_mem hla)
        have hlt : call.recordedAt < till := by omega
        obtain ⟨hne, -⟩ := h.succ hmax hip huser (hnow.trans hca) hlt
        rw [hn] at hta hf
        apply ih hne hr hf ho hta
        simp only [length_cons] at he
        omega
    · rw [filter_cons, if_neg hhit] at hh
      have hne : Counted (recordFailure cfg s call.recordedAt ip call.username) ip username call.recordedAt till
          count := by
        by_cases hn : call.username = username
        · rw [hn]
          intro t ht htl
          obtain ⟨hs, -⟩ := h.succ hmax hip huser (hnow.trans hca) (ht.trans_lt htl)
          obtain ⟨e, hli, hex, hco⟩ := hs t ht htl
          exact ⟨e, hli, hex, by omega⟩
        · exact h.of_other (hnow.trans hca) (Ne.symm hn)
      exact ih hne hr hf ho hh he

end Run

def Positive (s : LimitStore) : Prop := ∀ key e, s key = some e → 1 ≤ e.count

lemma positive_empty : Positive .empty := by
  intro key e h
  cases h

lemma Positive.update {s : LimitStore} (h : Positive s) (now : Int) (key : Bytes)
    (he : 1 ≤ e.count) : Positive (update (s.prune now) key (some e)) := by
  intro other d hd
  rcases eq_or_ne other key with rfl | hne
  · rw [update_self, Option.some.injEq] at hd
    rwa [← hd]
  · rw [update_of_ne hne] at hd
    exact h other d (LimitStore.live_eq_some.mp hd).1

lemma Positive.counted {s : LimitStore} (h : Positive s) (now : Int) (key : Bytes) (ttl : Int) :
    1 ≤ (s.counted now key ttl).count ∧ (s.live now key ≠ none → 2 ≤ (s.counted now key ttl).count) := by
  unfold LimitStore.counted
  rcases hl : s.live now key with _ | e
  · exact ⟨le_rfl, fun hne => absurd rfl hne⟩
  · have he := h key e (LimitStore.live_eq_some.mp hl).1
    exact ⟨Nat.le_add_left 1 _, fun _ => Nat.succ_le_succ he⟩

lemma Positive.countFailure {s : LimitStore} (h : Positive s) (cfg : RateLimitConfig) (now : Int)
    (counterKey lockKey : Bytes) (maxFailures : Int) :
    Positive (countFailure cfg s now counterKey lockKey maxFailures) := by
  unfold Auth.countFailure
  split
  · exact h
  rw [LimitStore.incr_eq]
  have hc := h.update now counterKey (h.counted now counterKey cfg.window).1
  dsimp only
  split
  · exact hc
  · exact hc.update now lockKey le_rfl

lemma Positive.recordFailure {s : LimitStore} (h : Positive s) (cfg : RateLimitConfig) (now : Int)
    (ip username : Bytes) : Positive (recordFailure cfg s now ip username) := by
  unfold Auth.recordFailure
  split
  · exact h
  · split
    · exact h.countFailure cfg now _ _ _
    · exact (h.countFailure cfg now _ _ _).countFailure cfg now _ _ _

lemma split_of_filter {l : List Attempt} (hs : l.Pairwise fun a b => a.call.checkedAt ≤ b.call.checkedAt)
    {bound : Int} {k : Nat} (hk : k < (l.filter fun a => a.call.checkedAt < bound).length) :
    ∃ made last after, l = made ++ last :: after ∧ made.length = k ∧ last.call.checkedAt < bound := by
  induction l generalizing k with
  | nil => simp at hk
  | cons a l ih =>
    obtain ⟨hf, hr⟩ := pairwise_cons.mp hs
    by_cases ha : a.call.checkedAt < bound
    · rcases k with _ | k
      · exact ⟨[], a, l, rfl, rfl, ha⟩
      · rw [filter_cons, if_pos (decide_eq_true ha), length_cons] at hk
        obtain ⟨made, last, after, rfl, rfl, hl⟩ := ih hr (Nat.lt_of_succ_lt_succ hk)
        exact ⟨a :: made, last, after, rfl, rfl, hl⟩
    · have hn : (a :: l).filter (fun a => a.call.checkedAt < bound) = [] := by
        rw [filter_eq_nil_iff]
        intro b hb
        obtain rfl | hb := mem_cons.mp hb
        · simpa using ha
        · have := hf b hb
          simp only [decide_eq_true_eq]
          omega
      rw [hn] at hk
      exact absurd hk (Nat.not_lt_zero k)

lemma Throttled.of_lockout {cfg : RateLimitConfig} {rest : List Attempt}
    (hmax : 0 < cfg.maxFailuresPerIPUser) (hwindow : cfg.window ≤ cfg.lockout)
    (hs : (first :: rest).Pairwise fun a b => a.call.recordedAt ≤ b.call.checkedAt)
    (ht : ∀ a ∈ first :: rest, a.call.checkedAt ≤ a.call.recordedAt)
    (hl : ∀ made last after, first :: rest = made ++ last :: after →
      (made.length : Int) + 1 = cfg.maxFailuresPerIPUser →
      last.call.recordedAt < first.call.recordedAt + cfg.window →
      ∀ later ∈ after, last.call.recordedAt + cfg.lockout ≤ later.call.checkedAt) : Throttled cfg first rest := by
  refine ⟨?_, hl⟩
  by_contra hm
  have hc : (first :: rest).Pairwise fun a b => a.call.checkedAt ≤ b.call.checkedAt := by
    refine hs.imp_of_mem fun {a b} ha _ hab => ?_
    exact (ht a ha).trans hab
  obtain ⟨k, hk⟩ : ∃ k : Nat, (k : Int) + 1 = cfg.maxFailuresPerIPUser :=
    ⟨(cfg.maxFailuresPerIPUser - 1).toNat, by omega⟩
  rw [length_cons] at hm
  have hco : k < (rest.filter fun a => a.call.checkedAt < first.call.recordedAt + cfg.window).length := by
    omega
  obtain ⟨made, later, after, rfl, hle, hla⟩ :=
    split_of_filter (pairwise_cons.mp hc).2 hco
  -- The attempt before it is the last that is allowed.
  obtain ⟨before, last, hls⟩ : ∃ before last, first :: made = before ++ [last] :=
    (eq_nil_or_concat (first :: made)).elim nofun fun ⟨before, last, h⟩ => ⟨before, last, by simpa using h⟩
  have hsp : first :: (made ++ later :: after) = before ++ last :: later :: after := by
    rw [← cons_append, hls, append_assoc, singleton_append]
  have hb : (before.length : Int) + 1 = cfg.maxFailuresPerIPUser := by
    have := congrArg List.length hls
    simp only [length_cons, length_append, length_nil] at this
    omega
  have ho : last.call.recordedAt ≤ later.call.checkedAt := by
    rw [hsp] at hs
    exact (pairwise_cons.mp (pairwise_append.mp hs).2.1).1 later mem_cons_self
  have hst : first.call.recordedAt ≤ last.call.recordedAt := by
    have hmem : last ∈ first :: made := by rw [hls]; simp
    obtain rfl | hmem := mem_cons.mp hmem
    · exact le_rfl
    · have hmem : last ∈ made ++ later :: after := mem_append_left _ hmem
      exact ((pairwise_cons.mp hs).1 last hmem).trans (ht last (mem_cons_of_mem _ hmem))
  have haf := hl before last _ hsp hb (by omega) later mem_cons_self
  omega

section

variable {c : CaseMap} {cfg : RateLimitConfig} {ip username : Bytes} {account : Account}
  (hmax : 0 < cfg.maxFailuresPerIPUser) (hip : ip ≠ []) (hwindow : cfg.window ≤ cfg.lockout)

include hmax hip hwindow

lemma lockout_after_first {s : LimitStore} {call : LoginCall} {rest : List LoginCall} (hp : Positive s)
    (hc : Clock call.recordedAt rest) (hhit : account.hitBy c call = true)
    (hf : .accepted ∉ outcomes cfg ip (recordFailure cfg s call.recordedAt ip call.username) rest)
    (hone : ∀ other ∈ rest, account.hitBy c other = true → other.username = call.username)
    (ho : s.live call.recordedAt (failKey ip call.username) = none ∨ cfg.maxFailuresPerIPUser ≤ 2)
    (hfi : first.call = call)
    (hh : first :: hits c cfg ip account (recordFailure cfg s call.recordedAt ip call.username) rest =
      made ++ last :: after) (hm : (made.length : Int) + 1 = cfg.maxFailuresPerIPUser)
    (hl : last.call.recordedAt < call.recordedAt + cfg.window) :
    ∀ later ∈ after, last.call.recordedAt + cfg.lockout ≤ later.call.checkedAt := by
  have huser := username_ne_nil hhit
  have hp := hp.counted call.recordedAt (failKey ip call.username) cfg.window
  -- A failure that locks the name out keeps every later attempt away.
  have hlo : cfg.maxFailuresPerIPUser ≤ (s.counted call.recordedAt (failKey ip call.username) cfg.window).count →
      ∀ a ∈ hits c cfg ip account (recordFailure cfg s call.recordedAt ip call.username) rest,
        call.recordedAt + cfg.lockout ≤ a.call.checkedAt := by
    intro hco a ha
    obtain ⟨hat, hhi⟩ := mem_filter.mp ha
    exact (locked_of_count hmax hip huser hco).no_attempt hip huser hc hf a hat
      (hone a.call (attempts_mem hat) hhi)
  rcases made with _ | ⟨head, made⟩
  · obtain ⟨rfl, haf⟩ := cons_eq_cons.mp hh
    simp only [length_nil] at hm
    rw [← haf, hfi]
    exact hlo (by omega)
  · obtain ⟨-, hr⟩ := cons_eq_cons.mp hh
    simp only [length_cons] at hm
    by_cases hop : s.live call.recordedAt (failKey ip call.username) = none
    · exact (counted_of_opens hmax hip huser hop).lockout hmax hip huser hc hf hone hr (by omega) hl
    have hs := ho.resolve_left hop
    have hco := hp.2 hop
    have hmem : last ∈ hits c cfg ip account (recordFailure cfg s call.recordedAt ip call.username) rest := by
      rw [hr]
      simp
    have hla := hlo (by omega) last hmem
    have ht := hc.le last.call (attempts_mem (mem_of_mem_filter hmem))
    omega

lemma throttled_of_hits {s : LimitStore} {now : Int} (hp : Positive s)
    (hc : Clock now calls) (hf : .accepted ∉ outcomes cfg ip s calls)
    (hone : ∀ call ∈ calls, account.hitBy c call = true → call.username = username)
    {before rest : List Attempt} (hh : hits c cfg ip account s calls = before ++ first :: rest)
    (hfi : first.opens = true ∨ cfg.maxFailuresPerIPUser ≤ 2) : Throttled cfg first rest := by
  induction calls generalizing s now before with
  | nil => simp [hits, attempts] at hh
  | cons call others ih =>
    have hs : (hits c cfg ip account s (call :: others)).Pairwise fun a b =>
        a.call.recordedAt ≤ b.call.checkedAt := (attempts_pairwise hc).filter _
    have ht : ∀ a ∈ hits c cfg ip account s (call :: others), a.call.checkedAt ≤ a.call.recordedAt :=
      fun a ha => (hc.le a.call (attempts_mem (mem_of_mem_filter ha))).2
    obtain ⟨hnow, hca, hcl⟩ := hc
    have ho := fun call hmem => hone call (mem_cons_of_mem _ hmem)
    obtain ⟨-, hat, hf⟩ | ⟨-, hat, hf⟩ := failed_cases hf
    · rw [hits, hat] at hh
      exact ih hp hcl hf ho hh
    have hn := hp.recordFailure cfg call.recordedAt ip call.username
    rw [hits, hat, filter_cons] at hh hs ht
    by_cases hhit : account.hitBy c call = true
    · rw [if_pos hhit] at hh hs ht
      rcases before with _ | ⟨head, before⟩
      · obtain ⟨rfl, rfl⟩ := cons_eq_cons.mp hh
        have hna := hone call mem_cons_self hhit
        refine Throttled.of_lockout hmax hwindow hs ht fun made last after hsp hm hl => ?_
        exact lockout_after_first hmax hip hwindow hp hcl hhit hf
          (fun other hmem hot => (ho other hmem hot).trans hna.symm)
          (hfi.imp Option.isNone_iff_eq_none.mp id) rfl hsp hm hl
      · exact ih hn hcl hf ho (cons_eq_cons.mp hh).2
    · rw [if_neg hhit] at hh
      exact ih hn hcl hf ho hh

end

theorem guesses_throttled (c : CaseMap) (cfg : RateLimitConfig) (ip username : Bytes) (account : Account)
    (calls : List LoginCall) (start : Int) (hmax : 0 < cfg.maxFailuresPerIPUser) (hip : ip ≠ [])
    (hclock : Clock start calls) (hfail : .accepted ∉ outcomes cfg ip .empty calls)
    (hwindow : cfg.window ≤ cfg.lockout)
    (hone : ∀ call ∈ calls, account.hitBy c call = true → call.username = username) :
    ∀ before first rest, hits c cfg ip account .empty calls = before ++ first :: rest →
      (first.opens = true ∨ cfg.maxFailuresPerIPUser ≤ 2) → Throttled cfg first rest :=
  fun _ _ _ hhits hfirst => throttled_of_hits hmax hip hwindow positive_empty hclock hfail hone hhits hfirst

def second : Int := 1000000000

def defaultRateLimitConfig : RateLimitConfig := ⟨5, 20, 300 * second, 900 * second⟩

def guess (username : String) (time : Int) : LoginCall where
  username := ascii username
  hosting := ⟨fun name => name = ascii "example.com", true, false⟩
  checkedAt := time * second
  recordedAt := time * second
  succeeds := false

def sampleIP : Bytes := ascii "192.0.2.1"

def sampleAccount : Account := ⟨ascii "example.com", ascii "alice"⟩

def sampleHits (cfg : RateLimitConfig) (calls : List LoginCall) : List Attempt :=
  hits CaseMap.asciiOnly cfg sampleIP sampleAccount .empty calls

instance decidableClock : (now : Int) → (calls : List LoginCall) → Decidable (Clock now calls)
  | _, [] => isTrue trivial
  | _, call :: rest =>
    have := decidableClock call.recordedAt rest
    inferInstanceAs (Decidable (_ ∧ _ ∧ _))

-- The sixth call is turned away.
def oneSpelling : List LoginCall :=
  [guess "alice@example.com" 0, guess "alice@example.com" 1, guess "alice@example.com" 2,
    guess "alice@example.com" 3, guess "alice@example.com" 4, guess "alice@example.com" 5,
    guess "bob@example.com" 6]

theorem guesses_throttled_oneSpelling :
    ∃ first rest, sampleHits defaultRateLimitConfig oneSpelling = first :: rest ∧ rest.length = 4 ∧
      Throttled defaultRateLimitConfig first rest :=
  ⟨⟨guess "alice@example.com" 0, true⟩, _, rfl, rfl,
    guesses_throttled CaseMap.asciiOnly defaultRateLimitConfig sampleIP (ascii "alice@example.com") sampleAccount
      oneSpelling 0 (by decide) (by decide) (by decide +kernel) (by decide +kernel) (by decide)
      (by decide +kernel) [] _ _ rfl (.inl rfl)⟩

def otherSpelling : List LoginCall := oneSpelling ++ [guess "alice+1@Example.COM" 7]

-- The counter of the first failure expires between the two halves.
def acrossWindows : List LoginCall :=
  [guess "alice@example.com" 0, guess "alice@example.com" 298, guess "alice@example.com" 299,
    guess "alice@example.com" 300, guess "alice@example.com" 301, guess "alice@example.com" 302,
    guess "alice@example.com" 303]

def shortLockout : RateLimitConfig := ⟨1, 0, 300 * second, 60 * second⟩

-- The guesses go on although the limit is reached.
def Defeats (cfg : RateLimitConfig) (calls : List LoginCall) : Prop :=
  Clock 0 calls ∧ .accepted ∉ outcomes cfg sampleIP .empty calls ∧
    ∃ before first rest, sampleHits cfg calls = before ++ first :: rest ∧ ¬ Throttled cfg first rest

theorem throttle_defeated :
    Defeats defaultRateLimitConfig otherSpelling ∧ Defeats defaultRateLimitConfig acrossWindows ∧
      Defeats shortLockout [guess "alice@example.com" 0, guess "alice@example.com" 60] := by
  refine ⟨⟨by decide +kernel, by decide +kernel, [], ⟨guess "alice@example.com" 0, true⟩, _, rfl, ?_⟩,
    ⟨by decide +kernel, by decide +kernel, [⟨guess "alice@example.com" 0, true⟩],
      ⟨guess "alice@example.com" 298, false⟩, _, rfl, ?_⟩,
    ⟨by decide +kernel, by decide +kernel, [], ⟨guess "alice@example.com" 0, true⟩, _, rfl, ?_⟩⟩
  · exact fun h => absurd h.span (by decide)
  · exact fun h => absurd h.span (by decide)
  · exact fun h => absurd h.span (by decide)

end Maildancer.Auth

import Maildancer.PeerFilter

namespace Maildancer.PeerFilter

open Keyspace Option List Text

lemma append_ne_append {first second : Bytes} (n : Nat) (hf : n ≤ first.length)
    (hs : n ≤ second.length) (hne : first.take n ≠ second.take n) (p q : Bytes) :
    first ++ p ≠ second ++ q := by
  intro h
  apply hne
  have ht := congrArg (List.take n) h
  rwa [take_append_of_le_length hf, take_append_of_le_length hs] at ht

lemma keyBan_ne_keyStrikes (p q : Bytes) : keyBan ++ p ≠ keyStrikes ++ q :=
  append_ne_append 6 (by decide) (by decide) (by decide) p q

variable {answer : Bool} {ttl : Int}

variable {value : Bytes} {n : Int} {c₁ : Conn}

namespace Conn

variable {c c' : Conn} {cmd : Command} {key : Bytes}

lemma get_ok {answer : Option (Option Bytes)} (h : c.get cmd key = (c', answer)) (hok : c'.erred = false) :
    c' = c ∧ answer = some (Keyspace.get c.keys c.now key) := by
  unfold get at h
  split at h
  · obtain ⟨rfl, -⟩ := Prod.mk.inj h
    cases hok
  · cases h
    exact ⟨rfl, rfl⟩

lemma incr_ok {answer : Option Int} (h : c.incr cmd key = (c', answer)) (hok : c'.erred = false) :
    ∃ keys n, Keyspace.incr c.keys c.now key = some (keys, n) ∧ c' = { c with keys := keys } ∧ answer = some n := by
  unfold incr at h
  split at h
  · obtain ⟨rfl, -⟩ := Prod.mk.inj h
    cases hok
  split at h
  · obtain ⟨rfl, -⟩ := Prod.mk.inj h
    cases hok
  · next keys n hi =>
      cases h
      exact ⟨keys, n, hi, rfl, rfl⟩

lemma expire_ok (h : c.expire cmd key ttl = (c', answer)) (hok : c'.erred = false) :
    c' = { c with keys := Keyspace.expire c.keys c.now key (expireSeconds ttl) } := by
  unfold expire at h
  split at h
  · obtain ⟨rfl, -⟩ := Prod.mk.inj h
    cases hok
  · exact (Prod.mk.inj h).1.symm

lemma set_ok (h : c.set cmd key value ttl = (c', answer)) (hok : c'.erred = false) :
    c' = { c with keys := Keyspace.set c.keys c.now key value (setExpiration ttl) } := by
  unfold set at h
  split at h
  · obtain ⟨rfl, -⟩ := Prod.mk.inj h
    cases hok
  · exact (Prod.mk.inj h).1.symm

lemma window_ok (hok : (if n = 1 then (c.expire cmd key ttl).1 else c).erred = false) :
    (if n = 1 then (c.expire cmd key ttl).1 else c) =
      { c with keys := if n = 1 then Keyspace.expire c.keys c.now key (expireSeconds ttl) else c.keys } := by
  split_ifs at hok ⊢
  · exact expire_ok (Prod.mk.eta).symm hok
  · rfl

lemma del_ok {answer : Option Bool} {keys : List Bytes} (h : c.del cmd keys = (c', answer))
    (hok : c'.erred = false) : c' = { c with keys := keys.foldl Keyspace.del c.keys } := by
  unfold del at h
  split at h
  · obtain ⟨rfl, -⟩ := Prod.mk.inj h
    cases hok
  · exact (Prod.mk.inj h).1.symm

end Conn

-- Neither bans nor strikes have changed.
structure Untouched (c c' : Conn) : Prop where
  now : c'.now = c.now
  erred : c'.erred = c.erred
  bans : ∀ peer, c'.keys.lookup (keyBan ++ peer) = c.keys.lookup (keyBan ++ peer)
  strikes : ∀ peer, c'.keys.lookup (keyStrikes ++ peer) = c.keys.lookup (keyStrikes ++ peer)

-- With a Redis error nothing is promised.
def Spares (c c' : Conn) : Prop := c'.erred = false → Untouched c c'

lemma Spares.refl (c : Conn) : Spares c c := fun _ => ⟨rfl, rfl, fun _ => rfl, fun _ => rfl⟩

lemma Spares.trans {c c₂ : Conn} (h : Spares c c₁) (h' : Spares c₁ c₂) : Spares c c₂ := by
  intro hok
  have hl := h' hok
  have hf := h (hl.erred.symm.trans hok)
  exact ⟨hl.now.trans hf.now, hl.erred.trans hf.erred, fun peer => (hl.bans peer).trans (hf.bans peer),
    fun peer => (hl.strikes peer).trans (hf.strikes peer)⟩

-- A key that is neither a ban nor a strike counter.
def Aside (key : Bytes) : Prop := (∀ peer, keyBan ++ peer ≠ key) ∧ ∀ peer, keyStrikes ++ peer ≠ key

lemma aside_keyGood (peer : Bytes) : Aside (keyGood ++ peer) :=
  ⟨fun p => append_ne_append 6 (by decide) (by decide) (by decide) p peer,
    fun p => append_ne_append 6 (by decide) (by decide) (by decide) p peer⟩

lemma aside_keySuppressed (peer : Bytes) : Aside (keySuppressed ++ peer) :=
  ⟨fun p => append_ne_append 6 (by decide) (by decide) (by decide) p peer,
    fun p => append_ne_append 7 (by decide) (by decide) (by decide) p peer⟩

lemma aside_abuseKey (peer signal : Bytes) : Aside (Filter.abuseKey peer signal) := by
  unfold Aside Filter.abuseKey
  simp only [append_assoc]
  exact ⟨fun p => append_ne_append 1 (by decide) (by decide) (by decide) p _,
    fun p => append_ne_append 1 (by decide) (by decide) (by decide) p _⟩

def Writes (touched : List Bytes) (c c' : Conn) : Prop :=
  c'.erred = false → c'.now = c.now ∧ c'.erred = c.erred ∧ ∀ key ∉ touched, c'.keys.lookup key = c.keys.lookup key

section Commands

variable {c c' c₂ : Conn} {cmd : Command} {key : Bytes} {touched : List Bytes}

lemma Writes.refl (touched : List Bytes) (c : Conn) : Writes touched c c := fun _ => ⟨rfl, rfl, fun _ _ => rfl⟩

lemma Writes.trans (h : Writes touched c c') (h' : Writes touched c' c₂) : Writes touched c c₂ := by
  intro hok
  obtain ⟨hn, he, hk⟩ := h' hok
  obtain ⟨hnow, her, hke⟩ := h (he.symm.trans hok)
  exact ⟨hn.trans hnow, he.trans her, fun key hkey => (hk key hkey).trans (hke key hkey)⟩

lemma Writes.spares (h : Writes touched c c') (ha : ∀ key ∈ touched, Aside key) : Spares c c' := by
  intro hok
  obtain ⟨hn, he, hk⟩ := h hok
  exact ⟨hn, he, fun peer => hk _ fun hm => (ha _ hm).1 peer rfl,
    fun peer => hk _ fun hm => (ha _ hm).2 peer rfl⟩

lemma writes_incr {answer : Option Int} (hk : key ∈ touched) (h : c.incr cmd key = (c', answer)) :
    Writes touched c c' := by
  intro hok
  obtain ⟨keys, n, hi, rfl, -⟩ := Conn.incr_ok h hok
  exact ⟨rfl, rfl, fun other ho => lookup_incr_ne (ne_of_mem_of_not_mem hk ho).symm hi⟩

lemma writes_expire (hk : key ∈ touched) (h : c.expire cmd key ttl = (c', answer)) :
    Writes touched c c' := by
  intro hok
  rw [Conn.expire_ok h hok]
  exact ⟨rfl, rfl, fun other ho => lookup_expire_ne (ne_of_mem_of_not_mem hk ho).symm _⟩

lemma writes_set (hk : key ∈ touched)
    (h : c.set cmd key value ttl = (c', answer)) : Writes touched c c' := by
  intro hok
  rw [Conn.set_ok h hok]
  exact ⟨rfl, rfl, fun other ho => lookup_set_ne (ne_of_mem_of_not_mem hk ho).symm _ _⟩

lemma writes_window (hk : key ∈ touched) (n ttl : Int) :
    Writes touched c (if n = 1 then (c.expire cmd key ttl).1 else c) := by
  split_ifs
  · exact writes_expire hk rfl
  · exact Writes.refl touched c

end Commands

namespace Filter

variable {f : Filter} {c : Conn} {ip peer : Bytes}

-- The prefix an address is filed under, unless it is exempt or does not parse.
def subject (f : Filter) (ip : Bytes) : Option Bytes :=
  if f.allowed ip ∨ normalizePrefix f.net ip = [] then none else some (normalizePrefix f.net ip)

lemma subject_eq_some :
    f.subject ip = some peer ↔ f.allowed ip = false ∧ normalizePrefix f.net ip = peer ∧ peer ≠ [] := by
  unfold subject
  split
  · next h =>
      refine iff_of_false (by simp) ?_
      rintro ⟨ha, rfl, hp⟩
      exact hp (h.resolve_left (by simp [ha]))
  · next h =>
      rw [not_or, Bool.not_eq_true] at h
      simp only [Option.some.injEq, h.1, true_and]
      exact ⟨fun heq => ⟨heq, heq ▸ h.2⟩, And.left⟩

-- The counter of suppressions, where it is still there, stands at n.
def Raised (peer : Bytes) (n : Int) (keys : Keyspace) : Prop :=
  ∀ stored, keys.lookup (keySuppressed ++ peer) = some stored → stored.value = decimalInt n

-- A ban is passed over only by a live marker, and then the suppression is counted.
inductive Suppression (f : Filter) (peer : Bytes) (c : Conn) : Conn → Bool → Prop
  | unmarked (h : f.cfg.knownGood = true → Keyspace.live c.keys c.now (keyGood ++ peer) = none) :
      Suppression f peer c c false
  | counted (n : Int) (keys : Keyspace) (hon : f.cfg.knownGood = true)
      (hmarked : (Keyspace.live c.keys c.now (keyGood ++ peer)).isSome = true)
      (hn : n = Keyspace.count c.keys c.now (keySuppressed ++ peer) + 1)
      (hlt : n < 2 ^ 63) (hwithin : 0 < f.cfg.revokeAfter → n ≤ f.cfg.revokeAfter) (hraised : Raised peer n keys)
      (hkeys : ∀ key ≠ keySuppressed ++ peer, keys.lookup key = c.keys.lookup key) :
      Suppression f peer c { c with keys := keys } true
  | revoked (n : Int) (keys : Keyspace) (hn : n = Keyspace.count c.keys c.now (keySuppressed ++ peer) + 1)
      (hlt : n < 2 ^ 63) (hraised : Raised peer n keys) (hgood : keys.lookup (keyGood ++ peer) = none)
      (hkeys : ∀ key, key ≠ keySuppressed ++ peer → key ≠ keyGood ++ peer → keys.lookup key = c.keys.lookup key) :
      Suppression f peer c { c with keys := keys } false

lemma keyGood_ne_keySuppressed (p q : Bytes) : keyGood ++ p ≠ keySuppressed ++ q :=
  append_ne_append 6 (by decide) (by decide) (by decide) p q

lemma raised_window {keys k : Keyspace} {now seconds : Int}
    (hi : Keyspace.incr keys now (keySuppressed ++ peer) = some (k, n)) :
    Raised peer n (if n = 1 then Keyspace.expire k now (keySuppressed ++ peer) seconds else k) := by
  obtain ⟨-, -, expiry, rfl, ha⟩ := incr_cases hi
  intro stored hs
  have hl : Keyspace.live (AList.insert (keySuppressed ++ peer) ⟨decimalInt n, expiry⟩ keys) now
      (keySuppressed ++ peer) = some ⟨decimalInt n, expiry⟩ :=
    live_eq_some.mpr ⟨AList.lookup_insert _, ha⟩
  split at hs
  · rcases le_or_gt seconds 0 with he | hp
    · rw [lookup_expire_ended hl he] at hs
      cases hs
    · rw [lookup_expire_self hl hp] at hs
      cases hs
      rfl
  · rw [AList.lookup_insert] at hs
    cases hs
    rfl

lemma counted_ok {c₂ : Conn} {marker : Bytes}
    (hg : c.get .getGood (keyGood ++ peer) = (c₁, some (some marker)))
    (hi : c₁.incr .incrSuppressed (keySuppressed ++ peer) = (c₂, some n))
    (hok : (if n = 1 then (c₂.expire .expireSuppressed (keySuppressed ++ peer) f.cfg.goodTTL).1 else c₂).erred =
      false) : (Keyspace.live c.keys c.now (keyGood ++ peer)).isSome = true ∧
      n = Keyspace.count c.keys c.now (keySuppressed ++ peer) + 1 ∧ n < 2 ^ 63 ∧ ∃ keys,
      (if n = 1 then (c₂.expire .expireSuppressed (keySuppressed ++ peer) f.cfg.goodTTL).1 else c₂) =
        { c with keys := keys } ∧ Raised peer n keys ∧
      ∀ key ≠ keySuppressed ++ peer, keys.lookup key = c.keys.lookup key := by
  have hw := Conn.window_ok hok
  have hok₂ : c₂.erred = false := by
    rw [hw] at hok
    exact hok
  obtain ⟨k, _, hk, rfl, hn⟩ := Conn.incr_ok hi hok₂
  cases hn
  obtain ⟨rfl, hm⟩ := Conn.get_ok hg hok₂
  obtain ⟨stored, hl, -⟩ := map_eq_some_iff.mp (Option.some.inj hm).symm
  obtain ⟨hc, hlt, -⟩ := incr_cases hk
  refine ⟨isSome_iff_exists.mpr ⟨stored, hl⟩, hc, hlt, _, hw, raised_window hk, fun key hne => ?_⟩
  split
  · exact (lookup_expire_ne hne _).trans (lookup_incr_ne hne hk)
  · exact lookup_incr_ne hne hk

variable {suppressed : Bool}

lemma suppressBan_ok {c' : Conn} (h : f.suppressBan c peer = (c', suppressed))
    (hok : c'.erred = false) : Suppression f peer c c' suppressed := by
  unfold suppressBan at h
  split at h
  · next ho =>
      cases h
      exact .unmarked fun hon => absurd hon ho
  next hon =>
  split at h
  · next hget =>
      cases h
      cases (Conn.get_ok hget hok).2
  · next hget =>
      cases h
      obtain ⟨rfl, hno⟩ := Conn.get_ok hget hok
      exact .unmarked fun _ => map_eq_none_iff.mp (Option.some.inj hno).symm
  · next hget =>
      split at h
      · next hi =>
          cases h
          obtain ⟨_, _, _, _, hs⟩ := Conn.incr_ok hi hok
          cases hs
      · next c₂ n hi =>
          have hc := counted_ok (f := f) hget hi
          generalize (if n = 1 then (c₂.expire .expireSuppressed (keySuppressed ++ peer) f.cfg.goodTTL).1
            else c₂) = c₃ at h hc
          split at h
          · obtain ⟨hd, rfl⟩ := Prod.mk.inj h
            have hk := Conn.del_ok (Prod.mk.eta (p := c₃.del .delGood [keyGood ++ peer])).symm (hd ▸ hok)
            rw [← hd, hk] at hok ⊢
            obtain ⟨-, hn, hlt, keys, rfl, hr, hf⟩ := hc hok
            refine .revoked n _ hn hlt (fun stored hst => hr stored ?_) (AList.lookup_erase _ keys)
              fun key hkey hg => (AList.lookup_erase_ne hg).trans (hf key hkey)
            rwa [foldl_cons, foldl_nil, lookup_del_ne (keyGood_ne_keySuppressed peer peer).symm] at hst
          · next hw =>
              cases h
              obtain ⟨hm, hn, hlt, keys, rfl, hr, hf⟩ := hc hok
              exact .counted n keys (not_not.mp hon) hm hn hlt
                (fun hp => not_lt.mp fun hlt => hw ⟨hp, hlt⟩) hr hf

lemma Suppression.untouched {c' : Conn} (h : Suppression f peer c c' suppressed)
    (hok : c'.erred = false) : Untouched c c' := by
  obtain ⟨hs, hg⟩ : Aside (keySuppressed ++ peer) ∧ Aside (keyGood ++ peer) :=
    ⟨aside_keySuppressed peer, aside_keyGood peer⟩
  cases h with
  | unmarked => exact Spares.refl c hok
  | counted n keys _ _ _ _ _ _ hk =>
    exact ⟨rfl, rfl, fun p => hk _ (hs.1 p), fun p => hk _ (hs.2 p)⟩
  | revoked n keys _ _ _ _ hk =>
    exact ⟨rfl, rfl, fun p => hk _ (hs.1 p) (hg.1 p), fun p => hk _ (hs.2 p) (hg.2 p)⟩

-- The answer to a ban that is not suppressed: on listeners where nobody logs in
-- an auth-derived ban is only reported.
def sentence (f : Filter) (authFacing : Bool) (reason : Bytes) : Verdict :=
  if ¬ authFacing ∧ f.cfg.authBanScope = .authListeners ∧ isAuthDerived reason then ⟨false, 0, reasonBanned, true⟩
  else ⟨true, f.cfg.acceptTarpit, reasonBanned, false⟩

lemma check_idle (hs : f.subject ip = none) (c : Conn) (authFacing : Bool) :
    f.check c ip authFacing = (c, .allow) := by
  unfold check
  split
  · rfl
  next hn =>
    rw [if_pos]
    by_contra hp
    rw [subject, if_neg (by simp [hn, hp])] at hs
    cases hs

lemma check_ok {authFacing : Bool} (hs : f.subject ip = some peer)
    (hok : (f.check c ip authFacing).1.erred = false) :
    Keyspace.live c.keys c.now (keyBan ++ peer) = none ∧ f.check c ip authFacing = (c, .allow) ∨
      ∃ found, Keyspace.live c.keys c.now (keyBan ++ peer) = some found ∧
        ∃ suppressed, f.suppressBan c peer = ((f.check c ip authFacing).1, suppressed) ∧
          (f.check c ip authFacing).2 = if suppressed then .allow else f.sentence authFacing found.value := by
  obtain ⟨ha, rfl, hp⟩ := subject_eq_some.mp hs
  unfold check at hok ⊢
  rw [ha, if_neg Bool.false_ne_true, if_neg hp] at hok ⊢
  rcases hg : c.get .getBan (keyBan ++ normalizePrefix f.net ip) with ⟨c₁, answer⟩
  rw [hg] at hok
  rcases answer with _ | _ | reason
  · cases (Conn.get_ok hg hok).2
  · obtain ⟨rfl, hn⟩ := Conn.get_ok hg hok
    exact Or.inl ⟨map_eq_none_iff.mp (Option.some.inj hn).symm, rfl⟩
  dsimp only at hok ⊢
  rcases hsu : f.suppressBan c₁ (normalizePrefix f.net ip) with ⟨c₂, suppressed⟩
  have hf : c₂.erred = false → ∃ found,
      Keyspace.live c.keys c.now (keyBan ++ normalizePrefix f.net ip) = some found ∧ found.value = reason ∧
        f.suppressBan c (normalizePrefix f.net ip) = (c₂, suppressed) := by
    intro hok₂
    have hu := (suppressBan_ok hsu hok₂).untouched hok₂
    obtain ⟨rfl, hr⟩ := Conn.get_ok hg (hu.erred.symm.trans hok₂)
    obtain ⟨found, hl, hv⟩ := map_eq_some_iff.mp (Option.some.inj hr).symm
    exact ⟨found, hl, hv, hsu⟩
  rw [hsu] at hok
  cases suppressed with
  | true =>
    obtain ⟨found, hl, -, hc⟩ := hf hok
    exact Or.inr ⟨found, hl, true, hc, rfl⟩
  | false =>
    right
    dsimp only at hok ⊢
    split at hok
    · next hsh =>
        obtain ⟨found, hl, rfl, hc⟩ := hf hok
        rw [if_pos hsh]
        exact ⟨found, hl, false, hc, (if_pos hsh).symm⟩
    · next hsh =>
        obtain ⟨found, hl, rfl, hc⟩ := hf hok
        rw [if_neg hsh]
        exact ⟨found, hl, false, hc, (if_neg hsh).symm⟩

lemma spares_check (c : Conn) (ip : Bytes) (authFacing : Bool) : Spares c (f.check c ip authFacing).1 := by
  intro hok
  rcases hs : f.subject ip with _ | peer
  · rw [check_idle hs] at hok ⊢
    exact Spares.refl c hok
  obtain ⟨-, hsa⟩ | ⟨_, -, _, hsu, -⟩ := check_ok hs hok
  · rw [hsa] at hok ⊢
    exact Spares.refl c hok
  · exact (suppressBan_ok hsu hok).untouched hok

lemma writes_recordGood (c : Conn) (ip : Bytes) :
    Writes ((f.subject ip).toList.map (keyGood ++ ·)) c (f.recordGood c ip).1 := by
  unfold recordGood
  split
  · exact Writes.refl _ c
  split
  · exact Writes.refl _ c
  next ha =>
    split
    · exact Writes.refl _ c
    next hp =>
      have hk : keyGood ++ normalizePrefix f.net ip ∈ (f.subject ip).toList.map (keyGood ++ ·) := by
        rw [subject_eq_some.mpr ⟨Bool.eq_false_of_not_eq_true ha, rfl, hp⟩]
        exact mem_singleton.mpr rfl
      split
      · next hi => exact writes_incr hk hi
      next hi =>
        apply (writes_incr hk hi).trans
        split
        · next he => exact writes_expire hk he
        · next he => exact writes_expire hk he

lemma spares_recordGood (c : Conn) (ip : Bytes) : Spares c (f.recordGood c ip).1 := by
  apply (writes_recordGood c ip).spares
  intro key hk
  obtain ⟨peer, -, rfl⟩ := mem_map.mp hk
  exact aside_keyGood peer

-- The expiry that Ban writes, by the strikes that are live before it.
def newExpiry (f : Filter) (keys : Keyspace) (now : Int) (peer : Bytes) : Option Int :=
  Keyspace.expiryOf keys now (keyBan ++ peer)
    (setExpiration (f.ttlFor (Keyspace.count keys now (keyStrikes ++ peer) + 1)))

-- One more strike for the peer and none for the others.
def Struck (peer : Bytes) (c c' : Conn) : Prop :=
  (∃ n, n = Keyspace.count c.keys c.now (keyStrikes ++ peer) + 1 ∧ n < 2 ^ 63 ∧
    c'.keys.lookup (keyStrikes ++ peer) = some ⟨decimalInt n, some (c.now + 1000 * expireSeconds strikeTTL)⟩) ∧
  ∀ other ≠ peer, c'.keys.lookup (keyStrikes ++ other) = c.keys.lookup (keyStrikes ++ other)

-- What Ban leaves: its reason and expiry for the peer, and all else as it was.
structure Rebanned (f : Filter) (peer reason : Bytes) (c c' : Conn) : Prop where
  now : c'.now = c.now
  erred : c'.erred = c.erred
  ban : c'.keys.lookup (keyBan ++ peer) = some ⟨reason, f.newExpiry c.keys c.now peer⟩
  otherBans : ∀ other ≠ peer, c'.keys.lookup (keyBan ++ other) = c.keys.lookup (keyBan ++ other)
  struck : Struck peer c c'

lemma newExpiry_congr (h : Untouched c c₁) (peer : Bytes) :
    f.newExpiry c₁.keys c₁.now peer = f.newExpiry c.keys c.now peer := by
  unfold newExpiry
  rw [h.now, count_congr (h.strikes peer), expiryOf_congr (h.bans peer)]

variable {reason : Bytes}

lemma Rebanned.after {peer : Bytes} {c₂ : Conn} (h : Untouched c c₁) (h' : Rebanned f peer reason c₁ c₂) :
    Rebanned f peer reason c c₂ where
  now := h'.now.trans h.now
  erred := h'.erred.trans h.erred
  ban := newExpiry_congr (f := f) h peer ▸ h'.ban
  otherBans other hne := (h'.otherBans other hne).trans (h.bans other)
  struck := by
    obtain ⟨hs, ho⟩ := h'.struck
    rw [h.now, count_congr (h.strikes peer)] at hs
    exact ⟨hs, fun other hne => (ho other hne).trans (h.strikes other)⟩

lemma strike_ok (hok : (strike c peer).1.erred = false) :
    (strike c peer).1.now = c.now ∧ (strike c peer).1.erred = c.erred ∧
      (strike c peer).2 = Keyspace.count c.keys c.now (keyStrikes ++ peer) + 1 ∧
      (∀ p, (strike c peer).1.keys.lookup (keyBan ++ p) = c.keys.lookup (keyBan ++ p)) ∧
      Struck peer c (strike c peer).1 := by
  unfold strike at hok ⊢
  rcases hi : c.incr .incrStrikes (keyStrikes ++ peer) with ⟨c₁, answer⟩
  rcases answer with _ | n
  · rw [hi] at hok
    obtain ⟨_, _, _, _, hs⟩ := Conn.incr_ok hi hok
    cases hs
  rw [hi] at hok
  have he := Conn.expire_ok (Prod.mk.eta).symm hok
  have hok₁ : c₁.erred = false := by
    rw [he] at hok
    exact hok
  obtain ⟨keys, _, hk, rfl, hn⟩ := Conn.incr_ok hi hok₁
  cases hn
  obtain ⟨hc, hlt, expiry, hin, ha⟩ := incr_cases hk
  have hl : Keyspace.live keys c.now (keyStrikes ++ peer) = some ⟨decimalInt n, expiry⟩ := by
    rw [live_eq_some, hin]
    exact ⟨AList.lookup_insert _, ha⟩
  rw [he]
  refine ⟨rfl, rfl, hc, fun p => ?_, ⟨n, hc, hlt, ?_⟩, fun other hne => ?_⟩
  · have hkey := keyBan_ne_keyStrikes p peer
    exact (lookup_expire_ne hkey _).trans (lookup_incr_ne hkey hk)
  · exact lookup_expire_self hl (by decide)
  · have hkey : keyStrikes ++ other ≠ keyStrikes ++ peer := fun heq => hne (append_cancel_left heq)
    exact (lookup_expire_ne hkey _).trans (lookup_incr_ne hkey hk)

lemma rebanned_set {c₂ : Conn}
    (h : (strike c peer).1.set .setBan (keyBan ++ peer) reason (f.ttlFor (strike c peer).2) = (c₂, answer))
    (hok : c₂.erred = false) : Rebanned f peer reason c c₂ := by
  have hk := Conn.set_ok h hok
  obtain ⟨hnow, he, hc, hb, ⟨n, hn, hlt, hl⟩, ho⟩ := @strike_ok c peer (by
    rw [hk] at hok
    exact hok)
  rw [hk]
  refine ⟨hnow, he, ?_, fun other hne => ?_, ⟨n, hn, hlt, ?_⟩, fun other hne => ?_⟩
  · refine (lookup_set_self reason _).trans ?_
    rw [hnow, hc, expiryOf_congr (hb peer)]
    rfl
  · have hkey : keyBan ++ other ≠ keyBan ++ peer := fun heq => hne (append_cancel_left heq)
    exact (lookup_set_ne hkey reason _).trans (hb other)
  · exact (lookup_set_ne (keyBan_ne_keyStrikes peer peer).symm reason _).trans hl
  · exact (lookup_set_ne (keyBan_ne_keyStrikes peer other).symm reason _).trans (ho other hne)

lemma rebanned_ban (ha : f.allowed ip = false) (hp : normalizePrefix f.net ip ≠ [])
    (hok : (f.ban c ip reason).1.erred = false) :
    Rebanned f (normalizePrefix f.net ip) reason c (f.ban c ip reason).1 := by
  unfold ban at hok ⊢
  rw [ha, if_neg Bool.false_ne_true, if_neg hp] at hok ⊢
  dsimp only at hok ⊢
  cases hs : (strike c (normalizePrefix f.net ip)).1.set .setBan (keyBan ++ normalizePrefix f.net ip) reason
      (f.ttlFor (strike c (normalizePrefix f.net ip)).2) with
  | mk c₂ answer =>
    rw [hs] at hok
    cases answer with
    | false | true => exact rebanned_set hs hok

-- The ban that an operation writes, told from the keyspace before it.
def bans (f : Filter) (keys : Keyspace) (now : Int) : Op → Option (Bytes × Bytes)
  | .ban ip reason =>
    if f.allowed ip ∨ normalizePrefix f.net ip = [] then none else some (normalizePrefix f.net ip, reason)
  | .report ip signal =>
    if signal = [] ∨ f.allowed ip ∨ normalizePrefix f.net ip = [] then none
    else if f.crosses signal (Keyspace.count keys now (abuseKey (normalizePrefix f.net ip) signal) + 1) then
      some (normalizePrefix f.net ip, reasonAbuse ++ ascii ":" ++ signal)
    else none
  | _ => none

-- An operation without errors writes exactly the ban that bans tells, or none.
def Outcome (f : Filter) (op : Op) (c c' : Conn) : Prop :=
  f.bans c.keys c.now op = none ∧ Untouched c c' ∨
    ∃ peer reason, f.bans c.keys c.now op = some (peer, reason) ∧ Rebanned f peer reason c c'

lemma outcome_ban (hok : (f.ban c ip reason).1.erred = false) :
    f.Outcome (.ban ip reason) c (f.ban c ip reason).1 := by
  by_cases hs : f.allowed ip ∨ normalizePrefix f.net ip = []
  · refine Or.inl ⟨if_pos hs, ?_⟩
    have hsa : (f.ban c ip reason).1 = c := by
      unfold ban
      split
      · rfl
      · next hn => rw [if_pos (hs.resolve_left hn)]
    rw [hsa] at hok ⊢
    exact Spares.refl c hok
  · refine Or.inr ⟨_, _, if_neg hs, ?_⟩
    rw [not_or, Bool.not_eq_true] at hs
    exact rebanned_ban hs.1 hs.2 hok

lemma outcome_report {signal : Bytes} (hok : (f.report c ip signal).1.erred = false) :
    f.Outcome (.report ip signal) c (f.report c ip signal).1 := by
  by_cases hs : signal = [] ∨ f.allowed ip ∨ normalizePrefix f.net ip = []
  · refine Or.inl ⟨if_pos hs, ?_⟩
    have hsa : (f.report c ip signal).1 = c := by
      unfold report
      split
      · rfl
      next hsi =>
        split
        · rfl
        · next hnot => rw [if_pos ((hs.resolve_left hsi).resolve_left hnot)]
    rw [hsa] at hok ⊢
    exact Spares.refl c hok
  · have hb : f.bans c.keys c.now (.report ip signal) =
        if f.crosses signal (Keyspace.count c.keys c.now (abuseKey (normalizePrefix f.net ip) signal) + 1) then
          some (normalizePrefix f.net ip, reasonAbuse ++ ascii ":" ++ signal) else none := if_neg hs
    rw [not_or, not_or, Bool.not_eq_true] at hs
    obtain ⟨hsi, ha, hp⟩ := hs
    have hai : ∀ key ∈ [abuseKey (normalizePrefix f.net ip) signal], Aside key :=
      fun _ hkey => mem_singleton.mp hkey ▸ aside_abuseKey _ signal
    unfold Outcome
    rw [hb]
    unfold report at hok ⊢
    rw [if_neg hsi, ha, if_neg Bool.false_ne_true, if_neg hp] at hok ⊢
    rcases hi : c.incr .incrAbuse (abuseKey (normalizePrefix f.net ip) signal) with ⟨c₁, answer⟩
    have hsp := (writes_incr (mem_singleton.mpr rfl) hi).spares hai
    rw [hi] at hok
    rcases answer with _ | n
    · obtain ⟨_, _, _, _, hso⟩ := Conn.incr_ok hi hok
      cases hso
    dsimp only at hok ⊢
    have hw : Spares c₁ (if n = 1 then (c₁.expire .expireAbuse
        (abuseKey (normalizePrefix f.net ip) signal) f.cfg.abuseWindow).1 else c₁) :=
      (writes_window (mem_singleton.mpr rfl) n _).spares hai
    generalize (if n = 1 then (c₁.expire .expireAbuse
      (abuseKey (normalizePrefix f.net ip) signal) f.cfg.abuseWindow).1 else c₁) = c₂ at hok hw ⊢
    have hc : c₂.erred = false →
        n = Keyspace.count c.keys c.now (abuseKey (normalizePrefix f.net ip) signal) + 1 := by
      intro hok₂
      obtain ⟨_, _, hk, -, hn⟩ := Conn.incr_ok hi ((hw hok₂).erred.symm.trans hok₂)
      cases hn
      exact (incr_cases hk).1
    by_cases hcr : f.crosses signal n = true
    · rw [if_pos hcr] at hok ⊢
      have hban := rebanned_ban ha hp hok
      have hok₂ := hban.erred.symm.trans hok
      rw [← hc hok₂, if_pos hcr]
      exact Or.inr ⟨_, _, rfl, hban.after (hsp.trans hw hok₂)⟩
    · rw [if_neg hcr] at hok ⊢
      rw [← hc hok, if_neg hcr]
      exact Or.inl ⟨rfl, hsp.trans hw hok⟩

lemma outcome_exec {op : Op} (hop : ∀ ip, op ≠ .unban ip) (hok : (f.exec c op).erred = false) :
    f.Outcome op c (f.exec c op) := by
  cases op with
  | ban ip reason => exact outcome_ban hok
  | report ip signal => exact outcome_report hok
  | recordGood ip => exact Or.inl ⟨rfl, f.spares_recordGood c ip hok⟩
  | check ip authFacing => exact Or.inl ⟨rfl, f.spares_check c ip authFacing hok⟩
  | unban ip => exact absurd rfl (hop ip)

end Filter

end Maildancer.PeerFilter

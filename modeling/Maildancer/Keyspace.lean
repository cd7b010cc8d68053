import Maildancer.Text.Decimal
import Mathlib.Data.List.AList

namespace Maildancer

open Option Text

-- A value under a key and the last millisecond at which it can be read.
structure Stored where
  value : Bytes
  expiry : Option Int
deriving DecidableEq

def Stored.alive (now : Int) (s : Stored) : Bool :=
  match s.expiry with
  | none => true
  | some last => now ≤ last

lemma Stored.alive_iff (now : Int) (s : Stored) :
    s.alive now = true ↔ ∀ last, s.expiry = some last → now ≤ last := by
  unfold alive
  cases s.expiry with
  | none | some last => simp

lemma Stored.alive_mono {now later : Int} (s : Stored) (hle : now ≤ later) (h : s.alive later = true) :
    s.alive now = true := by
  rw [alive_iff] at h ⊢
  exact fun last hl => hle.trans (h last hl)

-- A key-value store whose keys can expire. An expired key is still there until a
-- command replaces it, but no command sees it.
abbrev Keyspace := AList (fun _ : Bytes => Stored)

inductive Expiration
  | never
  | keep
  | after (ms : Int)

namespace Keyspace

def live (k : Keyspace) (now : Int) (key : Bytes) : Option Stored :=
  (k.lookup key).filter (Stored.alive now)

def get (k : Keyspace) (now : Int) (key : Bytes) : Option Bytes := (live k now key).map Stored.value

def expiryOf (k : Keyspace) (now : Int) (key : Bytes) : Expiration → Option Int
  | .never => none
  | .keep => (live k now key).bind Stored.expiry
  | .after ms => some (now + ms)

def set (k : Keyspace) (now : Int) (key value : Bytes) (e : Expiration) : Keyspace :=
  k.insert key ⟨value, expiryOf k now key e⟩

-- The decimal form of a number, and no other text, counts as an integer.
def integer (value : Bytes) : Option Int := (atoi value).filter fun n => decimalInt n = value

-- A missing key counts as 0 and is created without expiry. There is no answer
-- where the value is not an integer or the result does not fit in 64 bits.
def incr (k : Keyspace) (now : Int) (key : Bytes) : Option (Keyspace × Int) :=
  match live k now key with
  | none => some (k.insert key ⟨decimalInt 1, none⟩, 1)
  | some s =>
    match integer s.value with
    | none => none
    | some n =>
      if n + 1 < 2 ^ 63 then some (k.insert key ⟨decimalInt (n + 1), s.expiry⟩, n + 1) else none

def expire (k : Keyspace) (now : Int) (key : Bytes) (seconds : Int) : Keyspace :=
  match live k now key with
  | none => k
  | some s => if seconds ≤ 0 then k.erase key else k.insert key ⟨s.value, some (now + 1000 * seconds)⟩

def del (k : Keyspace) (key : Bytes) : Keyspace := k.erase key

def count (k : Keyspace) (now : Int) (key : Bytes) : Int := ((get k now key).bind integer).getD 0

variable {k : Keyspace} {now : Int} {key other : Bytes}

variable {s : Stored} {k' : Keyspace} {n seconds : Int}

lemma live_eq_some : live k now key = some s ↔ k.lookup key = some s ∧ s.alive now = true := by
  rw [live, filter_eq_some_iff]

lemma live_congr (h : k'.lookup key = k.lookup key) (now : Int) :
    live k' now key = live k now key := by
  rw [live, live, h]

lemma count_congr (h : k'.lookup key = k.lookup key) (now : Int) :
    count k' now key = count k now key := by
  rw [count, count, get, get, live_congr h]

lemma expiryOf_congr (h : k'.lookup key = k.lookup key) (now : Int) (e : Expiration) :
    expiryOf k' now key e = expiryOf k now key e := by
  cases e with
  | never | after ms => rfl
  | keep => exact congrArg (·.bind Stored.expiry) (live_congr h now)

lemma lookup_set_self (value : Bytes) (e : Expiration) :
    (set k now key value e).lookup key = some ⟨value, expiryOf k now key e⟩ := AList.lookup_insert k

lemma lookup_set_ne (hne : other ≠ key) (value : Bytes) (e : Expiration) :
    (set k now key value e).lookup other = k.lookup other := AList.lookup_insert_ne hne

lemma lookup_del_ne (hne : other ≠ key) : (del k key).lookup other = k.lookup other := AList.lookup_erase_ne hne

lemma incr_cases (h : incr k now key = some (k', n)) :
    n = count k now key + 1 ∧ n < 2 ^ 63 ∧ ∃ expiry, k' = k.insert key ⟨decimalInt n, expiry⟩ ∧
      Stored.alive now ⟨decimalInt n, expiry⟩ = true := by
  unfold incr at h
  unfold count get
  split at h
  · next hl =>
      cases h
      rw [hl]
      exact ⟨rfl, by decide, none, rfl, rfl⟩
  · next s hl =>
      split at h
      · cases h
      next m hm =>
        split at h
        · next hlt =>
            cases h
            rw [hl, map_some, bind_some, hm]
            exact ⟨rfl, hlt, s.expiry, rfl, (live_eq_some.mp hl).2⟩
        · cases h

lemma lookup_incr_ne (hne : other ≠ key) (h : incr k now key = some (k', n)) :
    k'.lookup other = k.lookup other := by
  obtain ⟨-, -, expiry, rfl, -⟩ := incr_cases h
  exact AList.lookup_insert_ne hne

lemma lookup_expire_ne (hne : other ≠ key) (seconds : Int) :
    (expire k now key seconds).lookup other = k.lookup other := by
  unfold expire
  split
  · rfl
  · split_ifs
    · exact AList.lookup_erase_ne hne
    · exact AList.lookup_insert_ne hne

lemma lookup_expire_self (hl : live k now key = some s) (hp : 0 < seconds) :
    (expire k now key seconds).lookup key = some ⟨s.value, some (now + 1000 * seconds)⟩ := by
  unfold expire
  rw [hl]
  dsimp only
  rw [if_neg (by omega)]
  exact AList.lookup_insert k

lemma lookup_expire_ended (hl : live k now key = some s) (he : seconds ≤ 0) :
    (expire k now key seconds).lookup key = none := by
  unfold expire
  rw [hl]
  dsimp only
  rw [if_pos he]
  exact AList.lookup_erase key k

lemma integer_decimalInt (hlo : -2 ^ 63 ≤ n) (hhi : n < 2 ^ 63) : integer (decimalInt n) = some n := by
  rw [integer, atoi_decimalInt n hlo hhi, filter_some, if_pos (decide_eq_true rfl)]

lemma count_eq_of_live (hl : live k now key = some s) (hv : s.value = decimalInt n)
    (hlo : -2 ^ 63 ≤ n) (hhi : n < 2 ^ 63) : count k now key = n := by
  rw [count, get, hl, map_some, bind_some, hv, integer_decimalInt hlo hhi]
  rfl

lemma count_eq_zero (hl : live k now key = none) : count k now key = 0 := by
  rw [count, get, hl]
  rfl

end Keyspace

end Maildancer

import Mathlib.Order.Nat

namespace Maildancer

-- Numbers handed out to keys from a counter. No two keys hold one number, and
-- the counter has passed every number held.
@[ext]
structure Ledger (κ : Type*) where
  next : Nat
  idOf : κ → Option Nat
  below_next : ∀ {key n}, idOf key = some n → n < next
  injective : ∀ {key other n}, idOf key = some n → idOf other = some n → key = other

namespace Ledger

variable {κ : Type*} {a b c : Ledger κ}

def retain (a : Ledger κ) (keep : κ → Prop) [DecidablePred keep] : Ledger κ where
  next := a.next
  idOf key := if keep key then a.idOf key else none
  below_next := by
    intro key n h
    split at h
    · exact a.below_next h
    · cases h
  injective := by
    intro key other n hkey hother
    split at hkey <;> split at hother
    · exact a.injective hkey hother
    all_goals simp_all

def issue [DecidableEq κ] (a : Ledger κ) (key : κ) : Ledger κ where
  next := a.next + 1
  idOf := Function.update a.idOf key (some a.next)
  below_next := by
    intro other n h
    rcases eq_or_ne other key with rfl | hne
    · simp only [Function.update_self, Option.some.injEq] at h
      omega
    · rw [Function.update_of_ne hne] at h
      exact Nat.lt_succ_of_lt (a.below_next h)
  injective := by
    intro first second n hfirst hsecond
    rcases eq_or_ne first key with rfl | hf <;> rcases eq_or_ne second first with rfl | hs
    · rfl
    · rw [Function.update_self, Option.some.injEq] at hfirst
      rw [Function.update_of_ne hs, ← hfirst] at hsecond
      exact absurd (a.below_next hsecond) (lt_irrefl _)
    · rfl
    rw [Function.update_of_ne hf] at hfirst
    rcases eq_or_ne second key with rfl | hk
    · rw [Function.update_self, Option.some.injEq] at hsecond
      exact absurd (a.below_next hfirst) (hsecond ▸ lt_irrefl _)
    · rw [Function.update_of_ne hk] at hsecond
      exact a.injective hfirst hsecond

def advance (a : Ledger κ) (n : Nat) (hn : a.next ≤ n) : Ledger κ where
  next := n
  idOf := a.idOf
  below_next h := (a.below_next h).trans_le hn
  injective := a.injective

-- The number of one key is handed on to another, which loses its own.
def move [DecidableEq κ] (a : Ledger κ) (source target : κ) : Ledger κ where
  next := a.next
  idOf := Function.update (Function.update a.idOf source none) target (a.idOf source)
  below_next := by
    intro key n h
    rcases eq_or_ne key target with rfl | ht
    · rw [Function.update_self] at h
      exact a.below_next h
    rw [Function.update_of_ne ht] at h
    rcases eq_or_ne key source with rfl | hs
    · simp at h
    · rw [Function.update_of_ne hs] at h
      exact a.below_next h
  injective := by
    -- The key that held the number before is the same for both.
    have hold : ∀ {key n}, Function.update (Function.update a.idOf source none) target (a.idOf source) key = some n →
        a.idOf (if key = target then source else key) = some n ∧ (key ≠ target → key ≠ source) := by
      intro key n h
      rcases eq_or_ne key target with rfl | ht
      · rw [Function.update_self] at h
        exact ⟨by rw [if_pos rfl]; exact h, fun hne => absurd rfl hne⟩
      rw [Function.update_of_ne ht] at h
      rcases eq_or_ne key source with rfl | hs
      · simp at h
      · rw [Function.update_of_ne hs] at h
        exact ⟨by rw [if_neg ht]; exact h, fun _ => hs⟩
    intro first second n hfirst hsecond
    obtain ⟨hf, hfs⟩ := hold hfirst
    obtain ⟨hs, hss⟩ := hold hsecond
    have hsame := a.injective hf hs
    by_cases h1 : first = target <;> by_cases h2 : second = target
    · rw [h1, h2]
    · rw [if_pos h1, if_neg h2] at hsame
      exact absurd hsame.symm (hss h2)
    · rw [if_neg h1, if_pos h2] at hsame
      exact absurd hsame (hfs h1)
    · rwa [if_neg h1, if_neg h2] at hsame

def comap {ι : Type*} (a : Ledger κ) (f : ι → κ) (hf : Function.Injective f) : Ledger ι where
  next := a.next
  idOf i := a.idOf (f i)
  below_next := a.below_next
  injective h h' := hf (a.injective h h')

-- A later ledger may have forgotten keys; what it holds is either unchanged or
-- was numbered from the earlier counter on.
structure Extends (a b : Ledger κ) : Prop where
  next_le : a.next ≤ b.next
  old_or_fresh : ∀ {key n}, b.idOf key = some n → a.idOf key = some n ∨ a.next ≤ n

lemma Extends.refl (a : Ledger κ) : a.Extends a :=
  ⟨le_rfl, Or.inl⟩

lemma Extends.trans (hab : a.Extends b) (hbc : b.Extends c) : a.Extends c := by
  refine ⟨hab.next_le.trans hbc.next_le, fun h => ?_⟩
  rcases hbc.old_or_fresh h with hb | hf
  · exact hab.old_or_fresh hb
  · exact Or.inr (hab.next_le.trans hf)

lemma extends_retain (a : Ledger κ) (keep : κ → Prop) [DecidablePred keep] : a.Extends (a.retain keep) := by
  refine ⟨le_rfl, fun {key n} h => Or.inl ?_⟩
  simp only [retain] at h
  split at h
  · exact h
  · cases h

lemma extends_issue [DecidableEq κ] (a : Ledger κ) (key : κ) : a.Extends (a.issue key) := by
  refine ⟨Nat.le_succ _, fun {other n} h => ?_⟩
  simp only [issue] at h
  rcases eq_or_ne other key with rfl | hne
  · rw [Function.update_self, Option.some.injEq] at h
    exact Or.inr h.le
  · rw [Function.update_of_ne hne] at h
    exact Or.inl h

lemma extends_advance (a : Ledger κ) {n : Nat} (hn : a.next ≤ n) : a.Extends (a.advance n hn) :=
  ⟨hn, Or.inl⟩

lemma Extends.comap {ι : Type*} {f : ι → κ} (hf : Function.Injective f) (h : a.Extends b) :
    (a.comap f hf).Extends (b.comap f hf) := ⟨h.next_le, h.old_or_fresh⟩

lemma extends_comap_move [DecidableEq κ] {ι : Type*} (a : Ledger κ) {f : ι → κ} (hf : Function.Injective f)
    {source target : κ} (ht : ∀ i, f i ≠ target) :
    (a.comap f hf).Extends ((a.move source target).comap f hf) := by
  refine ⟨le_rfl, fun {i n} h => Or.inl ?_⟩
  simp only [Ledger.comap, move, Function.update_of_ne (ht i)] at h ⊢
  rcases eq_or_ne (f i) source with hs | hs
  · simp [hs] at h
  · rwa [Function.update_of_ne hs] at h

lemma Extends.never_reused (hab : a.Extends b) {key other : κ} {n : Nat}
    (ha : a.idOf key = some n) (hb : b.idOf other = some n) : other = key := by
  rcases hab.old_or_fresh hb with hold | hf
  · exact a.injective hold ha
  · exact absurd (a.below_next ha) (Nat.not_lt.mpr hf)

end Ledger

end Maildancer

import Mathlib.Data.List.Basic

namespace Maildancer.Semaphore

-- A channel of tokens with a capacity. A token is put in to take a permit and
-- read back to return it; a nil channel limits nothing.
def take (capacity : Option Nat) (used : Nat) : Option Nat :=
  match capacity with
  | none => some used
  | some limit => if used < limit then some (used + 1) else none

def giveBack (capacity : Option Nat) (used : Nat) : Option Nat :=
  match capacity with
  | none => some used
  | some _ => if 0 < used then some (used - 1) else none

def Used (capacity : Option Nat) (used holders : Nat) : Prop :=
  ∀ limit, capacity = some limit → used = holders ∧ holders ≤ limit

namespace Used

variable {capacity : Option Nat} {used used' holders : Nat}

lemma take (h : Used capacity used holders) (ht : Semaphore.take capacity used = some used') :
    Used capacity used' (holders + 1) := by
  rintro limit rfl
  obtain ⟨rfl, -⟩ := h limit rfl
  rw [Semaphore.take, Option.ite_none_right_eq_some] at ht
  obtain ⟨hlt, hn⟩ := ht
  exact ⟨(Option.some.inj hn).symm, hlt⟩

lemma exists_take (h : Used capacity used holders) (hr : ∀ limit, capacity = some limit → holders < limit) :
    ∃ used', Semaphore.take capacity used = some used' := by
  rcases capacity with _ | limit
  · exact ⟨used, rfl⟩
  · obtain ⟨rfl, -⟩ := h limit rfl
    exact ⟨used + 1, if_pos (hr limit rfl)⟩

lemma giveBack (h : Used capacity used (holders + 1)) (hg : Semaphore.giveBack capacity used = some used') :
    Used capacity used' holders := by
  rintro limit rfl
  obtain ⟨rfl, hle⟩ := h limit rfl
  rw [Semaphore.giveBack, if_pos (Nat.succ_pos holders)] at hg
  cases hg
  exact ⟨rfl, by omega⟩

lemma exists_giveBack (h : Used capacity used (holders + 1)) :
    ∃ used', Semaphore.giveBack capacity used = some used' := by
  rcases capacity with _ | limit
  · exact ⟨used, rfl⟩
  · obtain ⟨rfl, -⟩ := h limit rfl
    exact ⟨holders, by rw [Semaphore.giveBack, if_pos (Nat.succ_pos holders), Nat.add_sub_cancel]⟩

end Used

lemma countP_replace {α : Type*} {p : α → Bool} {xs : List α} {n : Nat} {x : α} (h : xs[n]? = some x) (y : α) :
    (xs.set n y).countP p + (p x).toNat = xs.countP p + (p y).toNat := by
  obtain ⟨hn, rfl⟩ := List.getElem?_eq_some_iff.mp h
  rw [List.countP_set hn]
  rcases hx : p xs[n] with _ | _
  · cases p y <;> rfl
  have hp := List.countP_pos_iff.mpr ⟨xs[n], List.getElem_mem hn, hx⟩
  rw [if_pos rfl, Bool.toNat_true]
  cases p y with
  | false => exact Nat.sub_add_cancel hp
  | true => exact congrArg (· + 1) (Nat.sub_add_cancel hp)

end Maildancer.Semaphore

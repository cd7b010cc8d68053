import Mathlib.Data.List.Basic

namespace Maildancer

-- The values of a partial function that were asked for before. What has no value is not kept.
structure Memo {α β : Type*} (f : α → Option β) where
  entries : List (α × β)
  sound : ∀ e ∈ entries, f e.1 = some e.2

namespace Memo

variable {α β : Type*} {f : α → Option β}

def empty : Memo f := ⟨[], nofun⟩

lemma sound_cons (m : Memo f) {a : α} {b : β} (h : f a = some b) :
    ∀ e ∈ (a, b) :: m.entries, f e.1 = some e.2 := by
  intro e he
  rcases List.mem_cons.mp he with rfl | he
  · exact h
  · exact m.sound e he

def add (m : Memo f) (a : α) (b : β) (h : f a = some b) : Memo f := ⟨(a, b) :: m.entries, m.sound_cons h⟩

def get [DecidableEq α] (m : Memo f) (a : α) : Option β × Memo f :=
  match m.entries.lookup a with
  | some b => (some b, m)
  | none =>
    match h : f a with
    | some b => (some b, m.add a b h)
    | none => (none, m)

lemma get_fst [DecidableEq α] (m : Memo f) (a : α) : (m.get a).1 = f a := by
  unfold get
  split
  · rename_i b hl
    obtain ⟨before, after, he, -⟩ := List.lookup_eq_some_iff.mp hl
    exact (m.sound (a, b) (by simp [he])).symm
  split
  · rename_i b hb
    exact hb.symm
  · rename_i hn
    exact hn.symm

end Memo

end Maildancer

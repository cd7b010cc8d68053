import Maildancer.Text
import Mathlib.Data.List.Infix

namespace Maildancer.Text

open List

variable {sep : UInt8} {s front tail : Bytes}

lemma cut_eq_some : cut sep s = some (front, tail) ↔ s = front ++ sep :: tail ∧ sep ∉ front := by
  induction s generalizing front tail with
  | nil => simp [cut]
  | cons b s ih =>
    by_cases hb : b = sep
    · simp only [cut, hb, ite_true, Option.some.injEq, Prod.mk.injEq]
      constructor
      · rintro ⟨rfl, rfl⟩
        simp
      rintro ⟨heq, hf⟩
      rcases front with _ | ⟨c, front⟩
      · simpa using heq
      · obtain ⟨rfl, _⟩ := cons_eq_cons.mp heq
        exact absurd mem_cons_self hf
    · simp only [cut, hb, ite_false, Option.map_eq_some_iff, Prod.exists, Prod.mk.injEq, ih]
      constructor
      · rintro ⟨front, _, ⟨rfl, hf⟩, rfl, rfl⟩
        exact ⟨rfl, by simp [hf, Ne.symm hb]⟩
      rintro ⟨heq, hf⟩
      rcases front with _ | ⟨c, front⟩
      · exact absurd (cons_eq_cons.mp heq).1 hb
      · obtain ⟨rfl, rfl⟩ := cons_eq_cons.mp heq
        exact ⟨front, tail, ⟨rfl, fun hm => hf (mem_cons_of_mem _ hm)⟩, rfl, rfl⟩

lemma cut_eq_none (h : sep ∉ s) : cut sep s = none := by
  rcases hc : cut sep s with _ | parts
  · rfl
  · obtain ⟨rfl, -⟩ := cut_eq_some.mp hc
    exact absurd (mem_append_right _ mem_cons_self) h

-- strings.SplitN with a one-byte separator: at most so many parts.
def splitN (sep : UInt8) : Nat → Bytes → List Bytes
  | 0, _ => []
  | 1, s => [s]
  | n + 2, s =>
    match cut sep s with
    | none => [s]
    | some (part, rest) => part :: splitN sep (n + 1) rest

lemma splitN_cons (h : sep ∉ front) (n : Nat) (rest : Bytes) :
    splitN sep (n + 2) (front ++ sep :: rest) = front :: splitN sep (n + 1) rest := by
  rw [splitN, cut_eq_some.mpr ⟨rfl, h⟩]

lemma splitN_ne_nil (sep : UInt8) (n : Nat) (s : Bytes) : splitN sep (n + 1) s ≠ [] := by
  rcases n with _ | n
  · exact cons_ne_nil _ _
  · rw [splitN]
    cases cut sep s <;> exact cons_ne_nil _ _

lemma head?_splitN (sep : UInt8) (n m : Nat) (s : Bytes) :
    (splitN sep (n + 2) s).head? = (splitN sep (m + 2) s).head? := by
  rw [splitN, splitN]
  cases cut sep s <;> rfl

lemma mem_of_mem_splitN {b : UInt8} {n : Nat} {part : Bytes} (h : part ∈ splitN sep n s) (hb : b ∈ part) :
    b ∈ s := by
  induction n generalizing s with
  | zero => exact absurd h not_mem_nil
  | succ n ih =>
    rcases n with _ | n
    · exact mem_singleton.mp h ▸ hb
    rw [splitN] at h
    rcases hc : cut sep s with _ | parts
    · rw [hc] at h
      exact mem_singleton.mp h ▸ hb
    obtain ⟨front, rest⟩ := parts
    rw [hc] at h
    obtain ⟨rfl, -⟩ := cut_eq_some.mp hc
    rcases mem_cons.mp h with rfl | h
    · exact mem_append_left _ hb
    · exact mem_append_right _ (mem_cons_of_mem _ (ih h))

lemma cutLast_eq_some : cutLast sep s = some (front, tail) ↔ s = front ++ sep :: tail ∧ sep ∉ tail := by
  simp only [cutLast, Option.map_eq_some_iff, Prod.exists, Prod.mk.injEq, cut_eq_some]
  constructor
  · rintro ⟨after, before, ⟨heq, ha⟩, rfl, rfl⟩
    refine ⟨?_, by simpa using ha⟩
    rw [← s.reverse_reverse, heq]
    simp
  · rintro ⟨rfl, ht⟩
    exact ⟨tail.reverse, front.reverse, ⟨by simp, by simpa using ht⟩, by simp, by simp⟩

lemma exists_cut (h : sep ∈ s) : ∃ front tail, cut sep s = some (front, tail) := by
  obtain ⟨front, tail, rfl, hf⟩ := eq_append_cons_of_mem h
  exact ⟨front, tail, cut_eq_some.mpr ⟨rfl, hf⟩⟩

lemma exists_cutLast (h : sep ∈ s) : ∃ front tail, cutLast sep s = some (front, tail) := by
  obtain ⟨front, tail, hc⟩ := exists_cut (mem_reverse.mpr h)
  exact ⟨tail.reverse, front.reverse, by rw [cutLast, hc]; rfl⟩

lemma cut_cutLast {after before : Bytes} (hf : cut sep s = some (front, after))
    (hl : cutLast sep s = some (before, tail)) (hm : sep ∈ after) :
    ∃ middle, after = middle ++ sep :: tail := by
  obtain ⟨rfl, -⟩ := cut_eq_some.mp hf
  obtain ⟨middle, rest, hc⟩ := exists_cutLast hm
  obtain ⟨rfl, hr⟩ := cutLast_eq_some.mp hc
  have hs : cutLast sep (front ++ sep :: (middle ++ sep :: rest)) = some (front ++ sep :: middle, rest) :=
    cutLast_eq_some.mpr ⟨by simp, hr⟩
  rw [hs] at hl
  cases hl
  exact ⟨middle, rfl⟩

lemma contains_iff {sub : Bytes} : contains sub s = true ↔ sub <:+: s := by
  simp only [contains, hasPrefix, any_eq_true, mem_tails, isPrefixOf_iff_prefix]
  rw [infix_iff_prefix_suffix]
  exact ⟨fun ⟨t, hs, hp⟩ => ⟨t, hp, hs⟩, fun ⟨t, hp, hs⟩ => ⟨t, hs, hp⟩⟩

lemma hasSuffix_eq_false {a b : UInt8} (ht : tail.getLast? = some a)
    (hs : s.getLast? = some b) (hne : a ≠ b) : hasSuffix tail s = false := by
  rw [Bool.eq_false_iff]
  intro h
  obtain ⟨front, rfl⟩ := isSuffixOf_iff_suffix.mp h
  rw [List.getLast?_append, ht, Option.some_or, Option.some.injEq] at hs
  exact hne hs

lemma hasPrefix_byte (b : UInt8) (s : Bytes) : hasPrefix [b] s = decide (s.head? = some b) := by
  cases s with
  | nil => rfl
  | cons a rest =>
    rw [Bool.eq_iff_iff, decide_eq_true_iff, List.head?_cons, Option.some.injEq]
    simpa [hasPrefix] using eq_comm

lemma hasSuffix_byte (b : UInt8) (s : Bytes) : hasSuffix [b] s = decide (s.getLast? = some b) := by
  rw [hasSuffix, List.isSuffixOf, reverse_singleton, ← hasPrefix, hasPrefix_byte, List.head?_reverse]

lemma trimPrefix_append (start s : Bytes) : trimPrefix start (start ++ s) = s := by
  simp [trimPrefix, hasPrefix, isPrefixOf_iff_prefix]

lemma mem_of_mem_trimPrefix {start : Bytes} {b : UInt8} (h : b ∈ trimPrefix start s) : b ∈ s := by
  unfold trimPrefix at h
  split at h
  · exact mem_of_mem_drop h
  · exact h

lemma mem_of_mem_trimSuffix {b : UInt8} (h : b ∈ trimSuffix tail s) : b ∈ s := by
  unfold trimSuffix at h
  split at h
  · exact mem_of_mem_take h
  · exact h

lemma trimPrefix_byte (b : UInt8) (s : Bytes) :
    trimPrefix [b] s = if s.head? = some b then s.tail else s := by
  simp [trimPrefix, hasPrefix_byte]

lemma trimSuffix_byte (b : UInt8) (s : Bytes) :
    trimSuffix [b] s = if s.getLast? = some b then s.dropLast else s := by
  simp [trimSuffix, hasSuffix_byte, dropLast_eq_take]

-- strings.ReplaceAll for a text that is not empty, where the first bytes of an
-- occurrence are still to be skipped.
def replaceFrom (old new : Bytes) : Nat → Bytes → Bytes
  | _, [] => []
  | skip + 1, _ :: rest => replaceFrom old new skip rest
  | 0, b :: rest =>
    if hasPrefix old (b :: rest) then new ++ replaceFrom old new (old.length - 1) rest
    else b :: replaceFrom old new 0 rest

def replaceAll (s old new : Bytes) : Bytes := replaceFrom old new 0 s

end Maildancer.Text

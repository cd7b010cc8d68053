import Maildancer.Text.Path

namespace Maildancer.Text

open List

def dotDot : Bytes := ascii ".."

-- Where a relative path leads from a directory, by the components on the stack.
def walk (rooted : Bool) (stack : List Bytes) (path : Bytes) : List Bytes :=
  (split slash path).foldl (pushComponent rooted) stack

variable {base parts : List Bytes} {dir : Bytes}

section Push

variable {rooted : Bool} {stack rest : List Bytes} {part top name : Bytes}

lemma pushComponent_skip (h : part = [] ∨ part = ascii ".") : pushComponent rooted stack part = stack := if_pos h

lemma pushComponent_name (hs : ¬ (part = [] ∨ part = ascii ".")) (hup : part ≠ dotDot) :
    pushComponent rooted stack part = part :: stack := (if_neg hs).trans (if_neg hup)

lemma pushComponent_up (ht : top ≠ dotDot) : pushComponent rooted (top :: rest) dotDot = rest := if_neg ht

lemma pushComponent_up_up : pushComponent rooted (dotDot :: rest) dotDot = dotDot :: dotDot :: rest := rfl

-- A relative path that has gone above its start does not come back.
lemma dotDot_mem_pushComponent (h : dotDot ∈ stack) (part : Bytes) : dotDot ∈ pushComponent false stack part := by
  by_cases hs : part = [] ∨ part = ascii "."
  · rwa [pushComponent_skip hs]
  by_cases hup : part = dotDot
  · obtain ⟨top, rest, rfl⟩ := exists_cons_of_ne_nil (ne_nil_of_mem h)
    by_cases ht : top = dotDot
    · rw [hup, ht, pushComponent_up_up]
      exact mem_cons_self
    · rw [hup, pushComponent_up ht]
      exact (mem_cons.mp h).resolve_left (Ne.symm ht)
  · rw [pushComponent_name hs hup]
    exact mem_cons_of_mem _ h

lemma dotDot_mem_foldl (h : dotDot ∈ stack) (parts : List Bytes) :
    dotDot ∈ parts.foldl (pushComponent false) stack := by
  induction parts generalizing stack with
  | nil => exact h
  | cons part rest ih => exact ih (dotDot_mem_pushComponent h part)

lemma pushComponent_below (rooted : Bool) (base : List Bytes) (h : dotDot ∉ pushComponent false stack part) :
    pushComponent rooted (stack ++ base) part = pushComponent false stack part ++ base := by
  by_cases hs : part = [] ∨ part = ascii "."
  · rw [pushComponent_skip hs, pushComponent_skip hs]
  by_cases hup : part = dotDot
  · obtain rfl := hup
    rcases stack with _ | ⟨top, rest⟩
    · exact absurd mem_cons_self h
    have ht : top ≠ dotDot := by
      rintro rfl
      exact h mem_cons_self
    rw [cons_append, pushComponent_up ht, pushComponent_up ht]
  · rw [pushComponent_name hs hup, pushComponent_name hs hup, cons_append]

lemma notMem_pushComponent (h : name ∉ stack) (hp : name ≠ part) : name ∉ pushComponent rooted stack part := by
  by_cases hs : part = [] ∨ part = ascii "."
  · rwa [pushComponent_skip hs]
  by_cases hup : part = dotDot
  · obtain rfl := hup
    rcases stack with _ | ⟨top, rest⟩
    · cases rooted with
      | true => exact not_mem_nil
      | false => exact fun hm => hp (mem_singleton.mp hm)
    by_cases ht : top = dotDot
    · rw [ht, pushComponent_up_up]
      rw [ht] at h
      exact fun hm => (mem_cons.mp hm).elim hp h
    · rw [pushComponent_up ht]
      exact fun hm => h (mem_cons_of_mem _ hm)
  · rw [pushComponent_name hs hup]
    exact fun hm => (mem_cons.mp hm).elim hp h

-- The step that leaves the start takes its name off the stack.
lemma pushComponent_above (hs : dotDot ∉ stack) (hn : name ≠ dotDot)
    (hl : dotDot ∈ pushComponent false stack part) : pushComponent rooted (stack ++ name :: base) part = base := by
  by_cases hsk : part = [] ∨ part = ascii "."
  · rw [pushComponent_skip hsk] at hl
    exact absurd hl hs
  by_cases hup : part = dotDot
  · obtain rfl := hup
    cases stack with
    | nil => exact pushComponent_up hn
    | cons top rest =>
      have ht : top ≠ dotDot := fun ht => hs (ht ▸ mem_cons_self)
      rw [pushComponent_up ht] at hl
      exact absurd (mem_cons_of_mem _ hl) hs
  · rw [pushComponent_name hsk hup] at hl
    exact absurd ((mem_cons.mp hl).resolve_left (Ne.symm hup)) hs

end Push

-- A path that stays below its start says nothing about what is above.
lemma foldl_below (rooted : Bool) {stack : List Bytes} (base : List Bytes)
    (h : dotDot ∉ parts.foldl (pushComponent false) stack) :
    parts.foldl (pushComponent rooted) (stack ++ base) = parts.foldl (pushComponent false) stack ++ base := by
  induction parts generalizing stack with
  | nil => rfl
  | cons part rest ih =>
    have hf : dotDot ∉ pushComponent false stack part := fun hm => h (dotDot_mem_foldl hm rest)
    rw [foldl_cons, foldl_cons, pushComponent_below rooted base hf]
    exact ih h

lemma notMem_foldl {rooted : Bool} {stack : List Bytes} {name : Bytes} (h : name ∉ stack) (hp : name ∉ parts) :
    name ∉ parts.foldl (pushComponent rooted) stack := by
  induction parts generalizing stack with
  | nil => exact h
  | cons part rest ih =>
    rw [mem_cons, not_or] at hp
    exact ih (notMem_pushComponent h hp.1) hp.2

lemma foldl_above {rooted : Bool} {stack found : List Bytes} {name : Bytes} (hs : dotDot ∉ stack)
    (hn : name ≠ dotDot) (hb : name ∉ base) (hp : name ∉ parts)
    (h : parts.foldl (pushComponent rooted) (stack ++ name :: base) = found ++ name :: base) :
    parts.foldl (pushComponent false) stack = found := by
  induction parts generalizing stack with
  | nil => exact append_cancel_right h
  | cons part rest ih =>
    rw [mem_cons, not_or] at hp
    by_cases hl : dotDot ∈ pushComponent false stack part
    · -- the step went above the name, which does not come back
      rw [foldl_cons, pushComponent_above hs hn hl] at h
      have hg := h ▸ notMem_foldl hb hp.2
      exact absurd (by simp) hg
    · rw [foldl_cons, pushComponent_below rooted _ hl] at h
      exact ih hl hp.2 h

lemma joinPath_pair (hdir : dir ≠ []) (path : Bytes) :
    joinPath [dir, path] = cleanPath (dir ++ slash :: path) := by
  have hd : [dir, path].dropWhile (· = []) = [dir, path] := by simp [hdir]
  rw [joinPath, hd]
  simp [List.intercalate]

lemma isAbs_pair (hd : dir ≠ []) (path : Bytes) : isAbs (dir ++ slash :: path) = isAbs dir := by
  obtain ⟨b, rest, rfl⟩ := exists_cons_of_ne_nil hd
  rfl

lemma components_pair (hd : dir ≠ []) (path : Bytes) :
    components (dir ++ slash :: path) = (walk (isAbs dir) (components dir).reverse path).reverse := by
  rw [components, isAbs_pair hd, split_append, foldl_append, walk, components, reverse_reverse]

lemma components_joinPath_walk (hd : dir ≠ []) (path : Bytes) :
    components (joinPath [dir, path]) = (walk (isAbs dir) (components dir).reverse path).reverse := by
  rw [joinPath_pair hd, ← components_pair hd]
  exact (components_normal _).components_renderPath

lemma foldl_pushComponent_names {rooted : Bool} (h : ∀ part ∈ parts, part = [] ∨ PlainName part)
    (stack : List Bytes) : parts.foldl (pushComponent rooted) stack = (parts.filter (· ≠ [])).reverse ++ stack := by
  induction parts generalizing stack with
  | nil => rfl
  | cons part rest ih =>
    rw [foldl_cons, ih fun p hp => h p (mem_cons_of_mem _ hp)]
    obtain rfl | hpa := h part mem_cons_self
    · simp [pushComponent]
    · have hs := not_or.mpr ⟨hpa.ne_nil, hpa.ne_dot⟩
      simp [pushComponent_name hs hpa.ne_dotDot, hpa.ne_nil]

lemma components_joinPath_names {path : Bytes} (hd : dir ≠ [])
    (h : ∀ part ∈ split slash path, part = [] ∨ PlainName part) :
    components (joinPath [dir, path]) = components dir ++ (split slash path).filter (· ≠ []) := by
  rw [components_joinPath_walk hd, walk, foldl_pushComponent_names h]
  simp

end Maildancer.Text

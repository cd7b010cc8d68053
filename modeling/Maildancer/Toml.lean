import Maildancer.Text

namespace Maildancer

open Text

-- A TOML value. Of values that are neither text, integers nor tables only the kind matters.
inductive Toml
  | text (s : Bytes)
  | integer (n : Int)
  | other
  | table (entries : List (Bytes × Toml))

namespace Toml

abbrev Table := List (Bytes × Toml)

mutual

-- A value over one that may stand under the same key. Tables are merged, any other value replaces.
def overlay (base : Option Toml) : Toml → Toml
  | .table entries =>
    match base with
    | some (.table lower) =>
      .table (lower.filter (fun e => (entries.lookup e.1).isNone) ++ overlayEach lower entries)
    | _ => .table entries
  | value => value

def overlayEach (lower : Table) : Table → Table
  | [] => []
  | (key, value) :: rest => (key, overlay (lower.lookup key) value) :: overlayEach lower rest

end

def deepMergeMaps (base override : Table) : Table :=
  base.filter (fun e => (override.lookup e.1).isNone) ++ overlayEach base override

lemma overlay_table (base : Option Toml) (entries : Table) : overlay base (.table entries) = .table entries ∨
      ∃ lower, overlay base (.table entries) = .table (deepMergeMaps lower entries) := by
  rcases base with _ | base
  · exact .inl rfl
  · cases base with
    | table lower => exact .inr ⟨lower, rfl⟩
    | text s | integer n | other => exact .inl rfl

lemma lookup_overlayEach (lower entries : Table) (key : Bytes) :
    (overlayEach lower entries).lookup key = (entries.lookup key).map (overlay (lower.lookup key)) := by
  induction entries with
  | nil => rfl
  | cons e rest ih =>
    obtain ⟨name, value⟩ := e
    rw [overlayEach, List.lookup_cons, List.lookup_cons, ih]
    by_cases h : key = name
    · subst h
      simp
    · simp [beq_false_of_ne h]

lemma lookup_filter_key {α : Type*} (p : Bytes → Bool) (entries : List (Bytes × α)) (key : Bytes) :
    (entries.filter (p ·.1)).lookup key = if p key then entries.lookup key else none := by
  induction entries with
  | nil => simp
  | cons e rest ih =>
    obtain ⟨name, value⟩ := e
    by_cases h : key = name
    · subst h
      by_cases hp : p key = true
      · simp [hp]
      · simp [hp, ih]
    · have ho := beq_false_of_ne h
      by_cases hp : p name = true
      · simp [hp, List.lookup_cons, ho, ih]
      · simp [hp, List.lookup_cons, ho, ih]

lemma lookup_deepMergeMaps (base override : Table) (key : Bytes) : (deepMergeMaps base override).lookup key =
      match override.lookup key with
      | some value => some (overlay (base.lookup key) value)
      | none => base.lookup key := by
  rw [deepMergeMaps, List.lookup_append, lookup_overlayEach, lookup_filter_key fun k => (override.lookup k).isNone]
  cases override.lookup key <;> simp

end Toml

end Maildancer

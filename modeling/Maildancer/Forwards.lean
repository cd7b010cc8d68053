import Maildancer.Text.Path
import Maildancer.Text.Lines

namespace Maildancer.Forwards

open Text

def star : Bytes := ascii "*"

def comma : UInt8 := 44

structure ForwardMap where
  exact : Bytes → Option (List Bytes)
  catchall : List Bytes

def ForwardMap.empty : ForwardMap := ⟨fun _ => none, []⟩

variable (c : CaseMap)

def parseTargets (value : Bytes) : List Bytes :=
  ((split comma value).map fun t => trimSpace (c.lower t)).filter (· ≠ [])

-- A rule that has been read. A rule without targets is skipped.
def ForwardMap.add (m : ForwardMap) (catchall : Bool) (key : Bytes) (targets : List Bytes) : ForwardMap :=
  if targets = [] then m
  else if catchall then { m with catchall := targets }
  else { m with exact := Function.update m.exact key (some targets) }

def loadLine (m : ForwardMap) (line : Bytes) : ForwardMap :=
  let line := trimSpace line
  if line = [] ∨ hasPrefix (ascii "#") line then m
  else match cut 58 line with
    | none => m
    | some (key, value) =>
      let key := trimSpace (c.lower key)
      m.add (key = star) key (parseTargets c value)

-- A missing file is empty.
def load : ReadResult → Option ForwardMap
  | .notExist => some .empty
  | .failed => none
  | .content data =>
    let scan := scanLines data
    if scan.tooLong then none else some (scan.lines.foldl (loadLine c) .empty)

def loadTargets : ReadResult → Option (List Bytes)
  | .notExist => some []
  | .failed => none
  | .content data =>
    let scan := scanLines data
    if scan.tooLong then none
    else some ((scan.lines.map fun line => trimSpace (c.lower line)).filter fun t =>
      t ≠ [] ∧ !hasPrefix (ascii "#") t)

def addRule (m : ForwardMap) (rule : Bytes × Bytes) : ForwardMap :=
  m.add (rule.1 = star) (c.lower rule.1) (parseTargets c rule.2)

-- The rules of a map in the order in which it is walked.
def fromMap (rules : List (Bytes × Bytes)) : ForwardMap := rules.foldl (addRule c) .empty

def ForwardMap.resolve (m : ForwardMap) (localpart : Bytes) : Option (List Bytes) :=
  match m.exact (c.lower localpart) with
  | some targets => some targets
  | none => if m.catchall ≠ [] then some m.catchall else none

def Names (localpart : Bytes) (rule : Bytes × Bytes) : Prop :=
  rule.1 ≠ star ∧ c.lower rule.1 = c.lower localpart ∧ parseTargets c rule.2 ≠ []

-- The rule is one that counts for the local part: it names it, or it is a catchall and no rule names it.
def Applies (rules : List (Bytes × Bytes)) (localpart : Bytes) (rule : Bytes × Bytes) : Prop :=
  rule ∈ rules ∧ (Names c localpart rule ∨
    rule.1 = star ∧ parseTargets c rule.2 ≠ [] ∧ ∀ other ∈ rules, ¬ Names c localpart other)

lemma exact_addRule (m : ForwardMap) (rule : Bytes × Bytes) (localpart : Bytes) :
    (addRule c m rule).exact (c.lower localpart) = some (parseTargets c rule.2) ∧ Names c localpart rule ∨
      (addRule c m rule).exact (c.lower localpart) = m.exact (c.lower localpart) ∧ ¬ Names c localpart rule := by
  unfold addRule ForwardMap.add Names
  by_cases he : parseTargets c rule.2 = []
  · simp [he]
  by_cases hs : rule.1 = star
  · simp [he, hs]
  by_cases hk : c.lower rule.1 = c.lower localpart
  · simp [he, hs, hk]
  · simp [he, hs, hk, Function.update_of_ne (Ne.symm hk)]

lemma catchall_addRule (m : ForwardMap) (rule : Bytes × Bytes) :
    (addRule c m rule).catchall = parseTargets c rule.2 ∧ rule.1 = star ∧ parseTargets c rule.2 ≠ [] ∨
      (addRule c m rule).catchall = m.catchall ∧ ¬ (rule.1 = star ∧ parseTargets c rule.2 ≠ []) := by
  unfold addRule ForwardMap.add
  by_cases he : parseTargets c rule.2 = []
  · simp [he]
  by_cases hs : rule.1 = star
  · simp [he, hs]
  · simp [he, hs]

lemma fromMap_concat (rules : List (Bytes × Bytes)) (rule : Bytes × Bytes) :
    fromMap c (rules ++ [rule]) = addRule c (fromMap c rules) rule := by
  rw [fromMap, List.foldl_append, List.foldl_cons, List.foldl_nil, fromMap]

-- What is read of the map is what the last rule of a kind has set.
lemma fromMap_cases {β : Type*} (read : ForwardMap → β) (unset : β) (hu : read .empty = unset)
    {sets : Bytes × Bytes → Prop} {value : Bytes × Bytes → β}
    (h : ∀ m rule, read (addRule c m rule) = value rule ∧ sets rule ∨ read (addRule c m rule) = read m ∧ ¬ sets rule)
    (rules : List (Bytes × Bytes)) :
    (∃ rule ∈ rules, sets rule ∧ read (fromMap c rules) = value rule) ∨
      (∀ rule ∈ rules, ¬ sets rule) ∧ read (fromMap c rules) = unset := by
  induction rules using List.reverseRecOn with
  | nil => exact .inr ⟨nofun, hu⟩
  | append_singleton rules rule ih =>
    rw [fromMap_concat]
    obtain ⟨he, hn⟩ | ⟨hs, hn⟩ := h (fromMap c rules) rule
    · exact .inl ⟨rule, by simp, hn, he⟩
    rw [hs]
    obtain ⟨old, hold, hold', he⟩ | ⟨hno, he⟩ := ih
    · exact .inl ⟨old, by simp [hold], hold', he⟩
    refine .inr ⟨fun other ho => ?_, he⟩
    rcases List.mem_append.mp ho with ho | ho
    · exact hno other ho
    · rwa [List.mem_singleton.mp ho]

lemma resolve_fromMap (rules : List (Bytes × Bytes)) (localpart : Bytes) :
    (∃ rule, Applies c rules localpart rule ∧
        (fromMap c rules).resolve c localpart = some (parseTargets c rule.2)) ∨
      (∀ rule, ¬ Applies c rules localpart rule) ∧ (fromMap c rules).resolve c localpart = none := by
  unfold ForwardMap.resolve
  obtain ⟨rule, hr, hn, he⟩ | ⟨hno, he⟩ := fromMap_cases c (·.exact _) none rfl (exact_addRule c · · localpart) rules
  · rw [he]
    exact .inl ⟨rule, ⟨hr, .inl hn⟩, rfl⟩
  rw [he]
  obtain ⟨rule, hr, ⟨hs, ht⟩, hc⟩ | ⟨hns, hc⟩ := fromMap_cases c (·.catchall) [] rfl (catchall_addRule c) rules
  · refine .inl ⟨rule, ⟨hr, .inr ⟨hs, ht, hno⟩⟩, ?_⟩
    simp [hc, ht]
  refine .inr ⟨?_, by simp [hc]⟩
  rintro rule ⟨hr, hn | ⟨hs, ht, -⟩⟩
  · exact hno rule hr hn
  · exact hns rule hr ⟨hs, ht⟩

lemma applies_perm {rules other : List (Bytes × Bytes)} (h : rules.Perm other) (localpart : Bytes)
    (rule : Bytes × Bytes) : Applies c rules localpart rule ↔ Applies c other localpart rule := by
  simp [Applies, h.mem_iff]

lemma resolve_last {rules : List (Bytes × Bytes)} {localpart : Bytes} {rule : Bytes × Bytes}
    (h : Applies c (rules ++ [rule]) localpart rule) :
    (fromMap c (rules ++ [rule])).resolve c localpart = some (parseTargets c rule.2) := by
  obtain ⟨-, hn | ⟨hs, ht, hno⟩⟩ := h
  · obtain ⟨he, -⟩ | ⟨-, hnot⟩ := exact_addRule c _ rule localpart
    · rw [fromMap_concat, ForwardMap.resolve, he]
    · exact absurd hn hnot
  obtain ⟨other, ho, hn, -⟩ | ⟨-, he⟩ := fromMap_cases c (·.exact _) none rfl (exact_addRule c · · localpart) _
  · exact absurd hn (hno other ho)
  rw [ForwardMap.resolve, he, fromMap_concat]
  obtain ⟨hc, -, -⟩ | ⟨-, hnot⟩ := catchall_addRule c (fromMap c rules) rule
  · simp [hc, ht]
  · exact absurd ⟨hs, ht⟩ hnot

end Maildancer.Forwards

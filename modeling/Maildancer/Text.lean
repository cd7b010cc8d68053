import Mathlib.Data.List.Sort
import Mathlib.Data.Nat.Digits.Defs

namespace Maildancer.Text

open List

-- Go strings are byte strings; they are compared byte by byte.
abbrev Bytes := List UInt8

instance : LawfulBEq Bytes := inferInstance

-- Literals are ASCII, so every character is one byte.
def ascii (s : String) : Bytes := s.toList.map Char.toUInt8

def newline : UInt8 := 10

def carriageReturn : UInt8 := 13

def space : UInt8 := 32

-- strings.Cut with a one-byte separator.
def cut (sep : UInt8) : Bytes → Option (Bytes × Bytes)
  | [] => none
  | b :: rest =>
    if b = sep then some ([], rest)
    else (cut sep rest).map fun (before, after) => (b :: before, after)

-- The parts around the last separator, as strings.LastIndex finds it.
def cutLast (sep : UInt8) (s : Bytes) : Option (Bytes × Bytes) :=
  (cut sep s.reverse).map fun (after, before) => (before.reverse, after.reverse)

-- strings.Split with a one-byte separator; the result is never empty.
def split (sep : UInt8) : Bytes → List Bytes
  | [] => [[]]
  | b :: rest =>
    if b = sep then [] :: split sep rest
    else match split sep rest with
      | [] => [[b]]
      | part :: parts => (b :: part) :: parts

def hasPrefix (start s : Bytes) : Bool := start.isPrefixOf s

def hasSuffix (tail s : Bytes) : Bool := tail.isSuffixOf s

def trimPrefix (start s : Bytes) : Bytes :=
  if hasPrefix start s then s.drop start.length else s

def trimSuffix (tail s : Bytes) : Bytes :=
  if hasSuffix tail s then s.take (s.length - tail.length) else s

def unbracket (addr : Bytes) : Bytes := trimSuffix (ascii ">") (trimPrefix (ascii "<") addr)

def contains (sub s : Bytes) : Bool := s.tails.any (hasPrefix sub)

-- The width of the white space character that starts the text, 0 where there
-- is none. unicode.IsSpace in UTF-8: a lead byte is never part of another rune.
def spaceWidth : Bytes → Nat
  | 0xE1 :: 0x9A :: 0x80 :: _ => 3
  | 0xE3 :: 0x80 :: 0x80 :: _ => 3
  | 0xE2 :: 0x81 :: 0x9F :: _ => 3
  | 0xE2 :: 0x80 :: b :: _ =>
    if (0x80 ≤ b ∧ b ≤ 0x8A) ∨ b = 0xA8 ∨ b = 0xA9 ∨ b = 0xAF then 3 else 0
  | 0xC2 :: 0x85 :: _ => 2
  | 0xC2 :: 0xA0 :: _ => 2
  | b :: _ => if (9 ≤ b ∧ b ≤ 13) ∨ b = space then 1 else 0
  | [] => 0

def flushWord (word : Bytes) : List Bytes := if word = [] then [] else [word]

-- The scan keeps the word read so far and the rest of a wide space to skip.
def fieldsFrom : Nat → Bytes → Bytes → List Bytes
  | _, word, [] => flushWord word
  | skip + 1, word, _ :: rest => fieldsFrom skip word rest
  | 0, word, b :: rest =>
    match spaceWidth (b :: rest) with
    | 0 => fieldsFrom 0 (word ++ [b]) rest
    | width + 1 => flushWord word ++ fieldsFrom width [] rest

-- strings.Fields
def fields (s : Bytes) : List Bytes := fieldsFrom 0 [] s

-- The scan keeps the rest of a wide space to skip.
def trimSpaceLeft : Nat → Bytes → Bytes
  | _, [] => []
  | skip + 1, _ :: rest => trimSpaceLeft skip rest
  | 0, b :: rest =>
    match spaceWidth (b :: rest) with
    | 0 => b :: rest
    | width + 1 => trimSpaceLeft width rest

def trimSpaceRight : Bytes → Bytes
  | [] => []
  | b :: rest => if fields (b :: rest) = [] then [] else b :: trimSpaceRight rest

-- strings.TrimSpace
def trimSpace (s : Bytes) : Bytes := trimSpaceRight (trimSpaceLeft 0 s)

def lowerByte (b : UInt8) : UInt8 := if 65 ≤ b ∧ b ≤ 90 then b + 32 else b

-- strings.EqualFold where one side is ASCII without the letters K and S, whose
-- folding orbits are the only ones of ASCII letters that leave ASCII.
def equalFold (s t : Bytes) : Bool := s.map lowerByte = t.map lowerByte

-- strings.ToLower follows the Unicode tables outside ASCII; the development fixes it only on ASCII text.
structure CaseMap where
  lower : Bytes → Bytes
  lower_ascii : ∀ s, (∀ b ∈ s, b < 128) → lower s = s.map lowerByte

def CaseMap.asciiOnly : CaseMap := ⟨List.map lowerByte, fun _ _ => rfl⟩

-- strings.ToLower works rune by rune, and an ASCII byte is a rune of its own wherever it stands.
structure RuneCase extends CaseMap where
  lower_around : ∀ s b t, b < 128 → lower (s ++ b :: t) = lower s ++ lowerByte b :: lower t

def RuneCase.asciiOnly : RuneCase := ⟨CaseMap.asciiOnly, fun _ _ _ _ => List.map_append⟩

-- strings.EqualFold where neither side is known to be ASCII.
structure Folding extends CaseMap where
  foldEq : Bytes → Bytes → Bool
  foldEq_ascii : ∀ s t, (∀ b ∈ s, b < 128) → (∀ b ∈ t, b < 128) → foldEq s t = equalFold s t

def Folding.asciiOnly : Folding := ⟨CaseMap.asciiOnly, equalFold, fun _ _ _ _ => rfl⟩

-- sort.Strings
def sortStrings (words : List Bytes) : List Bytes := words.insertionSort (· ≤ ·)

lemma mem_sortStrings (words : List Bytes) (w : Bytes) :
    w ∈ sortStrings words ↔ w ∈ words := mem_insertionSort _

lemma sortStrings_perm (words : List Bytes) : (sortStrings words).Perm words :=
  perm_insertionSort _ _

lemma sortStrings_pairwise (words : List Bytes) :
    (sortStrings words).Pairwise (· ≤ ·) := pairwise_insertionSort _ _

lemma find?_insertionSort_eq_some {α : Type} {r : α → α → Prop} [DecidableRel r] [Std.Total r]
    [IsTrans α r] {l : List α} {p : α → Bool} {a : α}
    (han : ∀ x ∈ l, ∀ y ∈ l, p x = true → p y = true → r x y → r y x → x = y) :
    (l.insertionSort r).find? p = some a ↔ a ∈ l ∧ p a = true ∧ ∀ x ∈ l, p x = true → r a x := by
  have hm : ∀ x, x ∈ l.insertionSort r ↔ x ∈ l := fun x => mem_insertionSort r
  have hl : ∀ x, (l.insertionSort r).find? p = some x →
      x ∈ l ∧ p x = true ∧ ∀ y ∈ l, p y = true → r x y := by
    intro x hx
    obtain ⟨hpx, before, after, hs, hn⟩ := List.find?_eq_some_iff_append.mp hx
    have hso := pairwise_insertionSort r l
    rw [hs] at hso
    have haf := (pairwise_cons.mp (pairwise_append.mp hso).2.1).1
    refine ⟨(hm x).mp (mem_of_find?_eq_some hx), hpx, fun y hy hpy => ?_⟩
    have hy := hs ▸ (hm y).mpr hy
    rcases mem_append.mp hy with hb | hr
    · have hno := hn y hb
      rw [hpy] at hno
      cases hno
    · rcases mem_cons.mp hr with rfl | hy
      · exact (Std.Total.total y y).elim id id
      · exact haf y hy
  refine ⟨hl a, fun ⟨ha, hpa, hle⟩ => ?_⟩
  rcases hf : (l.insertionSort r).find? p with _ | x
  · exact absurd hpa (List.find?_eq_none.mp hf a ((hm a).mpr ha))
  · obtain ⟨hx, hpx, hxle⟩ := hl x hf
    rw [han x hx a ha hpx hpa (hxle a ha hpa) (hle x hx hpx)]

lemma find?_sortStrings_eq_some {words : List Bytes} {p : Bytes → Bool} {w : Bytes} :
    (sortStrings words).find? p = some w ↔ w ∈ words ∧ p w = true ∧ ∀ v ∈ words, p v = true → w ≤ v :=
  find?_insertionSort_eq_some fun _ _ _ _ _ _ hvw hwv => List.le_antisymm hvw hwv

lemma getLast?_sortStrings_eq_some {words : List Bytes} {w : Bytes} :
    (sortStrings words).getLast? = some w ↔ w ∈ words ∧ ∀ v ∈ words, v ≤ w := by
  have hg : ∀ v, (sortStrings words).getLast? = some v → v ∈ words ∧ ∀ u ∈ words, u ≤ v := by
    intro v hv
    refine ⟨(mem_sortStrings words v).mp (mem_of_getLast? hv), fun u hu => ?_⟩
    obtain ⟨before, hs⟩ := List.getLast?_eq_some_iff.mp hv
    have hso := sortStrings_pairwise words
    have hm := (mem_sortStrings words u).mpr hu
    rw [hs] at hso hm
    rcases mem_append.mp hm with hb | hl
    · exact (pairwise_append.mp hso).2.2 u hb v (mem_singleton_self v)
    · rw [mem_singleton.mp hl]
      exact List.le_refl v
  refine ⟨hg w, fun ⟨hw, hle⟩ => ?_⟩
  have hne := ne_nil_of_mem ((mem_sortStrings words w).mpr hw)
  have hl := List.getLast?_eq_some_getLast hne
  obtain ⟨hm, hge⟩ := hg _ hl
  rw [hl, List.le_antisymm (hle _ hm) (hge w hw)]

end Maildancer.Text

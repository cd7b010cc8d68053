import Maildancer.Text
import Mathlib.Data.List.TakeWhile

namespace Maildancer.Text

open List

-- bufio.MaxScanTokenSize
def maxScanTokenSize : Nat := 64 * 1024

def dropCR (line : Bytes) : Bytes :=
  if line.getLast? = some carriageReturn then line.dropLast else line

-- The text between newlines. What follows the last newline is a line unless it is empty.
def rawLinesFrom : Bytes → Bytes → List Bytes
  | line, [] => flushWord line
  | line, b :: rest =>
    if b = newline then line :: rawLinesFrom [] rest else rawLinesFrom (line ++ [b]) rest

structure Scan where
  lines : List Bytes
  tooLong : Bool
deriving DecidableEq

-- bufio.Scanner with its default buffer and split function. It stops with an
-- error at a line that fills the buffer and has delivered the lines before it.
def scanLines (data : Bytes) : Scan :=
  let raw := rawLinesFrom [] data
  ⟨(raw.takeWhile (·.length < maxScanTokenSize)).map dropCR,
    raw.any (maxScanTokenSize ≤ ·.length)⟩

def unlines (lines : List Bytes) : Bytes := lines.flatMap (· ++ [newline])

structure LineSafe (line : Bytes) : Prop where
  noNewline : newline ∉ line
  noReturn : line.getLast? ≠ some carriageReturn
  short : line.length < maxScanTokenSize

lemma rawLinesFrom_line (line word rest : Bytes) (h : newline ∉ word) :
    rawLinesFrom line (word ++ newline :: rest) = (line ++ word) :: rawLinesFrom [] rest := by
  induction word generalizing line with
  | nil => simp [rawLinesFrom]
  | cons b word ih =>
    have hb : b ≠ newline := fun he => h (by simp [he])
    have hw : newline ∉ word := fun hm => h (mem_cons_of_mem _ hm)
    simp only [cons_append, rawLinesFrom, hb, ite_false]
    rw [ih _ hw, append_assoc, singleton_append]

lemma rawLinesFrom_unlines (lines : List Bytes) (h : ∀ line ∈ lines, newline ∉ line) :
    rawLinesFrom [] (unlines lines) = lines := by
  induction lines with
  | nil => rfl
  | cons line lines ih =>
    have hl := rawLinesFrom_line [] line (unlines lines) (h line (by simp))
    rw [ih fun other hm => h other (mem_cons_of_mem _ hm)] at hl
    simpa [unlines] using hl

lemma lineSafe_append (front tail : Bytes) (hf : newline ∉ front) (hne : tail ≠ [])
    (ht : newline ∉ tail) (hr : tail.getLast? ≠ some carriageReturn)
    (hs : front.length + tail.length < maxScanTokenSize) : LineSafe (front ++ tail) := by
  refine ⟨?_, ?_, by simpa using hs⟩
  · simp [hf, ht]
  · rwa [List.getLast?_append_of_ne_nil _ hne]

lemma dropCR_of_lineSafe (line : Bytes) (h : LineSafe line) : dropCR line = line := by
  simp [dropCR, h.noReturn]

lemma scanLines_unlines (lines : List Bytes) (h : ∀ line ∈ lines, LineSafe line) :
    scanLines (unlines lines) = ⟨lines, false⟩ := by
  have hr := rawLinesFrom_unlines lines fun line hl => (h line hl).noNewline
  have hs : lines.takeWhile (·.length < maxScanTokenSize) = lines := by
    rw [takeWhile_eq_self_iff]
    intro line hl
    simpa using (h line hl).short
  have hm : lines.map dropCR = lines := by
    conv_rhs => rw [← map_id lines]
    exact map_congr_left fun line hl => dropCR_of_lineSafe line (h line hl)
  have ha : lines.any (maxScanTokenSize ≤ ·.length) = false := by
    rw [any_eq_false]
    intro line hl
    simpa using (h line hl).short
  simp [scanLines, hr, hs, hm, ha]

def Terminated (data : Bytes) : Prop := data = [] ∨ data.getLast? = some newline

lemma terminated_append (data : Bytes) : Terminated (data ++ [newline]) := .inr List.getLast?_concat

lemma terminated_unlines (lines : List Bytes) : Terminated (unlines lines) := by
  rcases lines.eq_nil_or_concat with rfl | ⟨init, last, rfl⟩
  · exact .inl rfl
  · rw [concat_eq_append, unlines, flatMap_append, flatMap_singleton, ← append_assoc]
    exact terminated_append _

variable {data line word : Bytes} {b : UInt8}

lemma rawLinesFrom_append (h : Terminated data) (rest : Bytes) :
    rawLinesFrom [] (data ++ rest) = rawLinesFrom [] data ++ rawLinesFrom [] rest := by
  have he : ∀ (line data : Bytes), data.getLast? = some newline →
      rawLinesFrom line (data ++ rest) = rawLinesFrom line data ++ rawLinesFrom [] rest := by
    intro line data
    induction data generalizing line with
    | nil => exact nofun
    | cons b data ih =>
      intro hl
      rw [cons_append, rawLinesFrom, rawLinesFrom]
      rcases data with _ | ⟨c, data⟩
      · obtain rfl : b = newline := Option.some.inj hl
        simp [rawLinesFrom, flushWord]
      rw [List.getLast?_cons_cons] at hl
      by_cases hb : b = newline
      · rw [if_pos hb, if_pos hb, ih [] hl, cons_append]
      · rw [if_neg hb, if_neg hb, ih _ hl]
  rcases h with rfl | hl
  · rfl
  · exact he [] data hl

lemma newline_notMem_rawLinesFrom {acc : Bytes} (ha : newline ∉ acc)
    (h : line ∈ rawLinesFrom acc data) : newline ∉ line := by
  induction data generalizing acc with
  | nil =>
    rw [rawLinesFrom, flushWord] at h
    by_cases hn : acc = []
    · simp [hn] at h
    · rw [if_neg hn, mem_singleton] at h
      exact h ▸ ha
  | cons b data ih =>
    rw [rawLinesFrom] at h
    by_cases hb : b = newline
    · rw [if_pos hb] at h
      rcases mem_cons.mp h with rfl | h
      · exact ha
      · exact ih not_mem_nil h
    · rw [if_neg hb] at h
      exact ih (by simp [ha, Ne.symm hb]) h

lemma mem_of_mem_dropCR (h : b ∈ dropCR line) : b ∈ line := by
  unfold dropCR at h
  by_cases hl : line.getLast? = some carriageReturn
  · rw [if_pos hl] at h
    exact dropLast_subset _ h
  · rwa [if_neg hl] at h

lemma scanLines_lines (h : (scanLines data).tooLong = false) :
    (scanLines data).lines = (rawLinesFrom [] data).map dropCR := by
  have hs : (rawLinesFrom [] data).takeWhile (·.length < maxScanTokenSize) = rawLinesFrom [] data := by
    rw [takeWhile_eq_self_iff]
    intro line hl
    have hlen := any_eq_false.mp h line hl
    rw [decide_eq_true_eq] at hlen ⊢
    exact Nat.lt_of_not_le hlen
  rw [scanLines, hs]

lemma newline_notMem_scanLines (h : line ∈ (scanLines data).lines) : newline ∉ line := by
  obtain ⟨raw, hr, rfl⟩ := mem_map.mp h
  have hm := takeWhile_subset _ hr
  exact fun hnl => newline_notMem_rawLinesFrom not_mem_nil hm (mem_of_mem_dropCR hnl)

def Graphic (b : UInt8) : Prop := 33 ≤ b ∧ b ≤ 126

instance : DecidablePred Graphic := fun b => inferInstanceAs (Decidable (33 ≤ b ∧ b ≤ 126))

lemma spaceWidth_graphic (b : UInt8) (rest : Bytes) (h : Graphic b) : spaceWidth (b :: rest) = 0 := by
  obtain ⟨hlo, hhi⟩ := h
  simp only [UInt8.le_iff_toNat_le] at hlo hhi
  unfold spaceWidth
  split <;> simp_all [space, UInt8.le_iff_toNat_le, ← UInt8.toNat_inj]
  omega

lemma fieldsFrom_word (acc word rest : Bytes) (h : ∀ b ∈ word, Graphic b) :
    fieldsFrom 0 acc (word ++ rest) = fieldsFrom 0 (acc ++ word) rest := by
  induction word generalizing acc with
  | nil => simp
  | cons b word ih =>
    simp only [cons_append, fieldsFrom, spaceWidth_graphic b _ (h b (by simp))]
    rw [ih _ fun c hc => h c (mem_cons_of_mem _ hc), append_assoc, singleton_append]

lemma fields_cons (word rest : Bytes) (hne : word ≠ []) (h : ∀ b ∈ word, Graphic b) :
    fields (word ++ space :: rest) = word :: fields rest := by
  unfold fields
  rw [fieldsFrom_word [] word _ h]
  have hw : spaceWidth (space :: rest) = 1 := by simp [spaceWidth, space]
  simp [fieldsFrom, hw, flushWord, hne]

lemma fieldsFrom_ne_nil (skip : Nat) (rest : Bytes) (hne : word ≠ []) :
    fieldsFrom skip word rest ≠ [] := by
  induction rest generalizing skip word with
  | nil =>
    cases skip with
    | zero | succ skip => simp [fieldsFrom, flushWord, hne]
  | cons b rest ih =>
    rcases skip with _ | skip
    · rw [fieldsFrom]
      rcases spaceWidth (b :: rest) with _ | width
      · exact ih 0 (by simp)
      · simp [flushWord, hne]
    · exact ih skip hne

lemma trimSpaceRight_word (h : ∀ b ∈ word, Graphic b) (rest : Bytes) :
    trimSpaceRight (word ++ rest) = word ++ trimSpaceRight rest := by
  induction word with
  | nil => rfl
  | cons b word ih =>
    have hf : fields (b :: (word ++ rest)) ≠ [] := by
      rw [fields, fieldsFrom, spaceWidth_graphic b _ (h b mem_cons_self)]
      exact fieldsFrom_ne_nil 0 _ (by simp)
    rw [cons_append, trimSpaceRight, if_neg hf, ih fun c hc => h c (mem_cons_of_mem _ hc)]
    rfl

lemma trimSpace_word (hne : word ≠ []) (h : ∀ b ∈ word, Graphic b) (rest : Bytes) :
    trimSpace (word ++ rest) = word ++ trimSpaceRight rest := by
  obtain ⟨b, tail, rfl⟩ := exists_cons_of_ne_nil hne
  rw [trimSpace, cons_append, trimSpaceLeft, spaceWidth_graphic b _ (h b mem_cons_self)]
  exact trimSpaceRight_word h rest

lemma trimSpace_line (word : Bytes) (h : ∀ b ∈ word, Graphic b) : trimSpace (word ++ [newline]) = word := by
  cases word with
  | nil => decide
  | cons b word =>
    rw [trimSpace_word (cons_ne_nil _ _) h, show trimSpaceRight [newline] = [] by decide, append_nil]

lemma spaceWidth_narrow (rest : Bytes) (h1 : b ≠ 0xE1) (h2 : b ≠ 0xE2) (h3 : b ≠ 0xE3)
    (h4 : b ≠ 0xC2) : spaceWidth (b :: rest) = if (9 ≤ b ∧ b ≤ 13) ∨ b = space then 1 else 0 := by
  simp [spaceWidth, h1, h2, h3, h4]

lemma spaceWidth_return (b : UInt8) (rest : Bytes) :
    spaceWidth (b :: (rest ++ [carriageReturn])) = spaceWidth (b :: rest) := by
  by_cases h1 : b = 0xE1
  · match rest with
    | [] => subst h1; decide
    | [c] => by_cases hc : c = 0x9A <;> simp [spaceWidth, h1, hc, carriageReturn]
    | c :: d :: more => by_cases hc : c = 0x9A <;> by_cases hd : d = 0x80 <;> simp [spaceWidth, h1, hc, hd]
  by_cases h3 : b = 0xE3
  · match rest with
    | [] => subst h3; decide
    | [c] => by_cases hc : c = 0x80 <;> simp [spaceWidth, h3, hc, carriageReturn]
    | c :: d :: more => by_cases hc : c = 0x80 <;> by_cases hd : d = 0x80 <;> simp [spaceWidth, h3, hc, hd]
  by_cases h2 : b = 0xE2
  · match rest with
    | [] => subst h2; decide
    | [c] => by_cases hc : c = 0x80 <;> by_cases hc' : c = 0x81 <;>
        simp [spaceWidth, h2, hc, hc', carriageReturn, space]
    | c :: d :: more =>
      by_cases hc : c = 0x80 <;> by_cases hc' : c = 0x81 <;> by_cases hd : d = 0x9F <;>
        simp [spaceWidth, h2, hc, hc', hd]
  by_cases h4 : b = 0xC2
  · match rest with
    | [] => subst h4; decide
    | c :: more => by_cases hc : c = 0x85 <;> by_cases hc' : c = 0xA0 <;> simp [spaceWidth, h4, hc, hc']
  rw [spaceWidth_narrow _ h1 h2 h3 h4, spaceWidth_narrow _ h1 h2 h3 h4]
lemma fields_return (s : Bytes) : fields (s ++ [carriageReturn]) = fields s := by
  have hf : ∀ (s : Bytes) (skip : Nat) (word : Bytes),
      fieldsFrom skip word (s ++ [carriageReturn]) = fieldsFrom skip word s := by
    intro s
    induction s with
    | nil =>
      intro skip word
      rcases skip with _ | skip
      · have hw : spaceWidth [carriageReturn] = 1 := by decide
        simp [fieldsFrom, hw, flushWord]
      · cases skip <;> simp [fieldsFrom]
    | cons b s ih =>
      intro skip word
      rcases skip with _ | skip
      · rw [cons_append, fieldsFrom, fieldsFrom, spaceWidth_return]
        rcases spaceWidth (b :: s) with _ | width
        · exact ih 0 _
        · exact congrArg _ (ih width [])
      · exact ih skip word
  exact hf s 0 []

lemma trimSpaceRight_return (s : Bytes) : trimSpaceRight (s ++ [carriageReturn]) = trimSpaceRight s := by
  induction s with
  | nil => decide
  | cons b s ih =>
    have hf := fields_return (b :: s)
    rw [cons_append] at hf ⊢
    rw [trimSpaceRight, trimSpaceRight, hf, ih]

lemma trimSpaceLeft_return (s : Bytes) (skip : Nat) :
    trimSpaceLeft skip (s ++ [carriageReturn]) = trimSpaceLeft skip s ++ [carriageReturn] ∨
      (trimSpaceLeft skip (s ++ [carriageReturn]) = [] ∧ trimSpaceLeft skip s = []) := by
  induction s generalizing skip with
  | nil =>
    right
    rcases skip with _ | skip
    · decide
    · cases skip <;> exact ⟨rfl, rfl⟩
  | cons b s ih =>
    rcases skip with _ | skip
    · rw [cons_append, trimSpaceLeft, trimSpaceLeft, spaceWidth_return]
      rcases spaceWidth (b :: s) with _ | width
      · exact .inl rfl
      · exact ih width
    · exact ih skip

lemma trimSpace_dropCR (line : Bytes) : trimSpace (dropCR line) = trimSpace line := by
  unfold dropCR
  by_cases hl : line.getLast? = some carriageReturn
  · rw [if_pos hl]
    obtain ⟨front, rfl⟩ := List.getLast?_eq_some_iff.mp hl
    rw [dropLast_concat, trimSpace, trimSpace]
    rcases trimSpaceLeft_return front 0 with h | ⟨h, h'⟩
    · rw [h, trimSpaceRight_return]
    · rw [h, h']
  · rw [if_neg hl]

lemma mem_of_mem_trimSpace {s : Bytes} (h : b ∈ trimSpace s) : b ∈ s := by
  have hr : ∀ s : Bytes, b ∈ trimSpaceRight s → b ∈ s := by
    intro s
    induction s with
    | nil => exact id
    | cons a s ih =>
      intro h
      rw [trimSpaceRight] at h
      by_cases hb : fields (a :: s) = []
      · simp [hb] at h
      · rw [if_neg hb] at h
        exact (mem_cons.mp h).elim (fun heq => heq ▸ mem_cons_self) fun h => mem_cons_of_mem _ (ih h)
  have hl : ∀ (s : Bytes) (skip : Nat), b ∈ trimSpaceLeft skip s → b ∈ s := by
    intro s
    induction s with
    | nil =>
      intro skip h
      cases skip <;> exact h
    | cons a s ih =>
      intro skip h
      rcases skip with _ | skip
      · rw [trimSpaceLeft] at h
        rcases hw : spaceWidth (a :: s) with _ | width
        · rwa [hw] at h
        · rw [hw] at h
          exact mem_cons_of_mem _ (ih width h)
      · exact mem_cons_of_mem _ (ih skip h)
  exact hl s 0 (hr _ h)

lemma fields_last (word : Bytes) (hne : word ≠ []) (h : ∀ b ∈ word, Graphic b) : fields word = [word] := by
  have hw := fieldsFrom_word [] word [] h
  simp only [append_nil, nil_append] at hw
  simp [fields, hw, fieldsFrom, flushWord, hne]

end Maildancer.Text

import Maildancer.Pop3
import Maildancer.Text.Path

namespace Maildancer.Pop3

open List Text

def crlf : Bytes := [carriageReturn, newline]

def stuffLine (line : Bytes) : Bytes := if hasPrefix (ascii ".") line then ascii "." ++ line else line

-- String of a response that is not a SASL continuation. Without lines there is no line with the dot either.
def Response.wire (r : Response) : Bytes :=
  (if r.ok then ascii "+OK" else ascii "-ERR") ++ (if r.message = [] then [] else space :: r.message) ++ crlf ++
    if r.lines = [] then []
    else (r.lines.flatMap fun line => stuffLine line ++ crlf) ++ ascii "." ++ crlf

-- The octets of a multi-line response as a client keeps them: the lines up to the
-- one with the dot, without the dots that were stuffed.
def unstuff : List Bytes → Bytes
  | [] => []
  | line :: rest =>
    if line = ascii "." ++ [carriageReturn] then [] else trimPrefix (ascii ".") line ++ newline :: unstuff rest

def received (wire : Bytes) : Bytes := unstuff (rawLinesFrom [] wire).tail

def transmitted (content : Bytes) : Bytes := (splitMessageLines content).flatMap (· ++ crlf)

-- What RETR adds: one octet for each CR or LF that stands alone, and an end for a last line without one.
def addedOctets : Bytes → Nat
  | [] => 0
  | 13 :: 10 :: rest => addedOctets rest
  | b :: rest => (if b = carriageReturn ∨ b = newline then 1 else if rest = [] then 2 else 0) + addedOctets rest

lemma stuffLine_eq (line : Bytes) : stuffLine line = if line.head? = some 46 then 46 :: line else line := by
  rw [stuffLine, show ascii "." = [46] by decide, hasPrefix_byte]
  simp

lemma stuffLine_ne_dot (line : Bytes) : stuffLine line ++ [carriageReturn] ≠ ascii "." ++ [carriageReturn] := by
  rw [show ascii "." = [46] by decide, stuffLine_eq]
  intro heq
  have hl := append_cancel_right heq
  by_cases hh : line.head? = some 46
  · obtain ⟨tail, rfl⟩ := List.head?_eq_some_iff.mp hh
    rw [if_pos hh] at hl
    cases hl
  · rw [if_neg hh] at hl
    exact hh (hl ▸ rfl)

lemma trimPrefix_stuffLine (line : Bytes) :
    trimPrefix (ascii ".") (stuffLine line ++ [carriageReturn]) = line ++ [carriageReturn] := by
  rw [show ascii "." = [46] by decide, stuffLine_eq, trimPrefix_byte]
  by_cases hh : line.head? = some 46
  · rw [if_pos hh, cons_append, List.head?_cons, if_pos rfl]
    rfl
  have hf : (line ++ [carriageReturn]).head? ≠ some 46 := by
    cases line with
    | nil => decide
    | cons b line => exact hh
  rw [if_neg hh, if_neg hf]

lemma unstuff_lines (lines : List Bytes) :
    unstuff (lines.map (fun line => stuffLine line ++ [carriageReturn]) ++ [ascii "." ++ [carriageReturn]]) =
      lines.flatMap (· ++ crlf) := by
  induction lines with
  | nil => rfl
  | cons line lines ih =>
    rw [map_cons, cons_append, unstuff, if_neg (stuffLine_ne_dot line), trimPrefix_stuffLine, ih]
    simp [crlf]

variable {line : Bytes} {r : Response}

lemma notMem_stuffLine (h : newline ∉ line) : newline ∉ stuffLine line := by
  unfold stuffLine
  split
  · rw [mem_append, not_or]
    exact ⟨by decide, h⟩
  · exact h

lemma wire_eq (h : newline ∉ r.message) : ∃ status, newline ∉ status ∧ r.wire = status ++ newline ::
      if r.lines = [] then [] else (r.lines.flatMap fun line => stuffLine line ++ crlf) ++ ascii "." ++ crlf := by
  refine ⟨(if r.ok then ascii "+OK" else ascii "-ERR") ++ (if r.message = [] then [] else space :: r.message) ++
    [carriageReturn], ?_, by simp [Response.wire, crlf]⟩
  have hok : newline ∉ (if r.ok then ascii "+OK" else ascii "-ERR") := by split <;> decide
  have ht : newline ∉ (if r.message = [] then [] else space :: r.message) := by
    split
    · exact not_mem_nil
    · rw [mem_cons, not_or]
      exact ⟨by decide, h⟩
  simp only [mem_append, not_or]
  exact ⟨⟨hok, ht⟩, by decide⟩

lemma received_wire (hm : newline ∉ r.message) (hl : ∀ line ∈ r.lines, newline ∉ line) :
    received r.wire = r.lines.flatMap (· ++ crlf) := by
  obtain ⟨status, hs, hw⟩ := wire_eq hm
  rw [received, hw, rawLinesFrom_line [] _ _ hs, tail_cons]
  by_cases hn : r.lines = []
  · rw [if_pos hn, hn]
    rfl
  have hb : (r.lines.flatMap fun line => stuffLine line ++ crlf) ++ ascii "." ++ crlf =
      unlines (r.lines.map (fun line => stuffLine line ++ [carriageReturn]) ++ [ascii "." ++ [carriageReturn]]) := by
    simp [unlines, flatMap_map, crlf]
  rw [if_neg hn, hb, rawLinesFrom_unlines, unstuff_lines]
  intro line hli
  rcases mem_append.mp hli with hli | hli
  · obtain ⟨plain, hp, rfl⟩ := mem_map.mp hli
    rw [mem_append, not_or]
    exact ⟨notMem_stuffLine (hl plain hp), by decide⟩
  · rw [mem_singleton.mp hli]
    decide

section Lines

-- The last step of splitMessageLines.
def dropTrailingEmpty (rawLines : List Bytes) : List Bytes :=
  if rawLines.getLast? = some [] then rawLines.dropLast else rawLines

def sent (normalized : Bytes) : Bytes := (dropTrailingEmpty (split newline normalized)).flatMap (· ++ crlf)

lemma transmitted_eq (content : Bytes) : transmitted content = sent (normalizeNewlines content) := rfl

lemma dropTrailingEmpty_cons (line : Bytes) {rawLines : List Bytes} (h : rawLines ≠ []) :
    dropTrailingEmpty (line :: rawLines) = line :: dropTrailingEmpty rawLines := by
  obtain ⟨next, rest, rfl⟩ := exists_cons_of_ne_nil h
  unfold dropTrailingEmpty
  rw [List.getLast?_cons_cons, dropLast_cons_cons]
  split <;> rfl

lemma sent_newline (s : Bytes) : sent (newline :: s) = crlf ++ sent s := by
  unfold sent
  rw [split, if_pos rfl, dropTrailingEmpty_cons [] (split_ne_nil newline s)]
  rfl

variable {b : UInt8} {rest : Bytes}

lemma sent_cons (hb : b ≠ newline) (s : Bytes) :
    sent (b :: s) = b :: if sent s = [] then crlf else sent s := by
  unfold sent
  rw [split, if_neg hb]
  obtain ⟨line, rest, hs⟩ := exists_cons_of_ne_nil (split_ne_nil newline s)
  rw [hs]
  cases rest with
  | nil => cases line <;> simp [dropTrailingEmpty, crlf]
  | cons next rest =>
    rw [dropTrailingEmpty_cons _ (cons_ne_nil next rest), dropTrailingEmpty_cons _ (cons_ne_nil next rest)]
    simp [crlf]

lemma transmitted_crlf (rest : Bytes) : transmitted (crlf ++ rest) = crlf ++ transmitted rest :=
  sent_newline _

lemma normalizeNewlines_cons (h : ¬ (b = carriageReturn ∧ rest.head? = some newline)) :
    normalizeNewlines (b :: rest) = (if b = carriageReturn then newline else b) :: normalizeNewlines rest := by
  rw [normalizeNewlines]
  rintro tail rfl rfl
  exact h ⟨rfl, rfl⟩

lemma transmitted_break (hb : b = carriageReturn ∨ b = newline)
    (h : ¬ (b = carriageReturn ∧ rest.head? = some newline)) : transmitted (b :: rest) = crlf ++ transmitted rest := by
  have hn : (if b = carriageReturn then newline else b) = newline := by
    rcases hb with rfl | rfl <;> rfl
  rw [transmitted_eq, normalizeNewlines_cons h, hn, sent_newline, ← transmitted_eq]

lemma transmitted_cons (hcr : b ≠ carriageReturn) (hlf : b ≠ newline) (rest : Bytes) :
    transmitted (b :: rest) = b :: if transmitted rest = [] then crlf else transmitted rest := by
  rw [transmitted_eq, normalizeNewlines_cons fun h => hcr h.1, if_neg hcr, sent_cons hlf, ← transmitted_eq]

lemma length_transmitted (content : Bytes) :
    (transmitted content).length = content.length + addedOctets content := by
  induction content using normalizeNewlines.induct with
  | case1 => rfl
  | case2 rest ih =>
    have hs : transmitted (13 :: 10 :: rest) = 13 :: 10 :: transmitted rest := transmitted_crlf rest
    rw [hs, addedOctets]
    simp only [length_cons, ih]
    omega
  | case3 b rest hn ih =>
    have ha : addedOctets (b :: rest) = (if b = carriageReturn ∨ b = newline then 1 else if rest = [] then 2 else 0) +
        addedOctets rest := by
      rw [addedOctets]
      exact hn
    rw [ha, length_cons]
    by_cases hb : b = carriageReturn ∨ b = newline
    · -- A lone CR or LF becomes two octets.
      have hl : ¬ (b = carriageReturn ∧ rest.head? = some newline) := by
        rintro ⟨rfl, hh⟩
        obtain ⟨tail, rfl⟩ := List.head?_eq_some_iff.mp hh
        exact hn tail rfl rfl
      rw [transmitted_break hb hl, if_pos hb, length_append, ih]
      simp only [crlf, length_cons, length_nil]
      omega
    · obtain ⟨hcr, hlf⟩ := not_or.mp hb
      rw [transmitted_cons hcr hlf, if_neg hb]
      by_cases hr : rest = []
      · subst hr
        rfl
      · have hp := length_pos_iff.mpr hr
        have hne : transmitted rest ≠ [] := length_pos_iff.mp (by omega)
        rw [if_neg hne, if_neg hr, length_cons, ih]
        omega

lemma carriageReturn_notMem_normalizeNewlines (content : Bytes) : carriageReturn ∉ normalizeNewlines content := by
  induction content using normalizeNewlines.induct with
  | case1 => exact not_mem_nil
  | case2 rest ih =>
    rw [normalizeNewlines, mem_cons, not_or]
    exact ⟨by decide, ih⟩
  | case3 b rest hn ih =>
    rw [normalizeNewlines, mem_cons, not_or]
    · refine ⟨?_, ih⟩
      split_ifs with hb
      · decide
      · exact Ne.symm hb
    · exact hn

lemma mem_splitMessageLines {content : Bytes} (h : line ∈ splitMessageLines content) :
    newline ∉ line ∧ carriageReturn ∉ line := by
  have hr : line ∈ split newline (normalizeNewlines content) := by
    unfold splitMessageLines at h
    dsimp only at h
    split_ifs at h with hl
    · exact mem_of_mem_dropLast h
    · exact h
  exact ⟨notMem_of_mem_split hr, fun hcr =>
    carriageReturn_notMem_normalizeNewlines content ((infix_of_mem_split hr).subset hcr)⟩

end Lines

end Maildancer.Pop3

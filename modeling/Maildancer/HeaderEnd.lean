import Maildancer.Pop3.TopLines
import Maildancer.Smtpd.Stripping

namespace Maildancer

open Option List Text

section Lines

-- The lines after the first one of a kind, and after the first one that follows another as p says.
def afterLine (p : Bytes → Bool) : List Bytes → List Bytes
  | [] => []
  | line :: rest => if p line then rest else afterLine p rest

def afterPair (p : Bytes → Bytes → Bool) : List Bytes → Option (List Bytes)
  | first :: second :: rest => if p first second then some rest else afterPair p (second :: rest)
  | _ => none

variable {p : Bytes → Bool} {q : Bytes → Bytes → Bool} {lines head rest : List Bytes} {line : Bytes}

lemma afterLine_suffix (p : Bytes → Bool) (lines : List Bytes) : afterLine p lines <:+ lines.tail := by
  induction lines with
  | nil => exact suffix_rfl
  | cons line rest ih =>
    rw [afterLine]
    split
    · exact suffix_rfl
    · exact ih.trans (tail_suffix rest)

lemma afterPair_suffix (h : afterPair q lines = some rest) : rest <:+ lines.tail.tail := by
  induction lines using afterPair.induct (p := q) with
  | case1 first second others hq =>
    rw [afterPair, if_pos hq] at h
    exact Option.some.inj h ▸ suffix_rfl
  | case2 first second others hq ih =>
    rw [afterPair, if_neg hq] at h
    exact (ih h).trans (tail_suffix others)
  | case3 others hs =>
    rw [afterPair] at h
    · cases h
    · exact hs

lemma ne_of_suffix_tail {short : List Bytes} (h : short <:+ rest.tail) (hne : rest ≠ []) : short ≠ rest := by
  rintro rfl
  have hle := h.length_le
  have hp := length_pos_iff.mpr hne
  rw [length_tail] at hle
  omega

lemma afterLine_head (h : ∀ line ∈ head, p line = false) : afterLine p (head ++ line :: rest) =
    if p line then rest else afterLine p rest := by
  induction head with
  | nil => rfl
  | cons first head ih =>
    rw [forall_mem_cons] at h
    rw [cons_append, afterLine, if_neg (by simp [h.1]), ih h.2]

lemma afterPair_head (h : ∀ line ∈ head, ∀ first, q first line = false) : afterPair q (head ++ line :: rest) =
    if head.getLast?.any (q · line) then some rest else afterPair q (line :: rest) := by
  induction head with
  | nil => rfl
  | cons first head ih =>
    rw [forall_mem_cons] at h
    cases head with
    | nil => rfl
    | cons second head =>
      rw [cons_append, cons_append, afterPair, if_neg (by simp [h.2 second mem_cons_self]),
        ← cons_append, ih h.2, List.getLast?_cons_cons]

end Lines

section Pattern

variable {x y w : Bytes}

lemma prefix_line_iff (hx : newline ∉ x) (hw : newline ∉ w) (s : Bytes) :
    x ++ newline :: y <+: w ++ newline :: s ↔ x = w ∧ y <+: s := by
  induction x generalizing w with
  | nil =>
    cases w with
    | nil => simp [cons_prefix_cons]
    | cons c w => simpa [cons_prefix_cons] using fun hc _ => (not_or.mp (mt mem_cons.mpr hw)).1 hc
  | cons b x ih =>
    obtain ⟨hb, hx⟩ := not_or.mp (mt mem_cons.mpr hx)
    cases w with
    | nil => simpa [cons_prefix_cons] using fun hc _ => hb hc.symm
    | cons c w =>
      obtain ⟨-, hw⟩ := not_or.mp (mt mem_cons.mpr hw)
      rw [cons_append, cons_append, cons_prefix_cons, ih hx hw, List.cons.injEq, and_assoc]

-- What stands after the first occurrence of a text.
def afterText (sub s : Bytes) : Option Bytes := (Imap.index sub s).map fun i => s.drop (i + sub.length)

lemma afterText_cons (sub : Bytes) (b : UInt8) (s : Bytes) : afterText sub (b :: s) =
    if sub <+: b :: s then some ((b :: s).drop sub.length) else afterText sub s := by
  simp only [afterText, Imap.index, tails_cons, List.findIdx?_cons, hasPrefix, isPrefixOf_iff_prefix]
  split_ifs
  · simp
  · simp [Option.map_map, Function.comp_def, Nat.add_right_comm]

-- A text with one inner line end is found where a line ends with its first part and
-- the rest begins with its second.
lemma afterText_line (hx : newline ∉ x) (hw : newline ∉ w) (s : Bytes) :
    afterText (x ++ newline :: y) (w ++ newline :: s) =
      if x <:+ w ∧ y <+: s then some (s.drop y.length) else afterText (x ++ newline :: y) s := by
  induction w with
  | nil =>
    have hs := prefix_line_iff (y := y) hx not_mem_nil s
    rw [nil_append] at hs ⊢
    rw [afterText_cons]
    by_cases hf : x ++ newline :: y <+: newline :: s
    · obtain ⟨rfl, hy⟩ := hs.mp hf
      rw [if_pos hf, if_pos ⟨suffix_rfl, hy⟩]
      simp
    · rw [if_neg hf, if_neg (by rwa [suffix_nil, ← hs])]
  | cons c w ih =>
    have hs := prefix_line_iff (y := y) hx hw s
    rw [cons_append, afterText_cons, ← cons_append]
    by_cases hf : x ++ newline :: y <+: (c :: w) ++ newline :: s
    · obtain ⟨rfl, hy⟩ := hs.mp hf
      rw [if_pos hf, if_pos ⟨suffix_rfl, hy⟩]
      simp [drop_append]
    · rw [if_neg hf, ih (not_or.mp (mt mem_cons.mpr hw)).2]
      rw [hs] at hf
      exact if_congr (by rw [suffix_cons_iff]; tauto) rfl rfl

lemma afterText_word (hw : newline ∉ w) : afterText (x ++ newline :: y) w = none := by
  rw [afterText, map_eq_none_iff, Imap.index, List.findIdx?_eq_none_iff]
  intro tail ht
  rw [← Bool.not_eq_true, hasPrefix, isPrefixOf_iff_prefix]
  intro hf
  refine hw (((mem_tails _ _).mp ht).subset (hf.subset ?_))
  simp

lemma lined_cases {line : Bytes} {rest : List Bytes} (h : Lined (line :: rest)) :
    (∃ word, newline ∉ word ∧ line = word ++ [newline]) ∨ newline ∉ line ∧ rest = [] := by
  have hr := physicalLines_flatten (h.sublist (sublist_cons_self line rest))
  have hp := Smtpd.Lined.piece h
  generalize rest.flatten = s at hp hr
  cases hp with
  | ended word rest hw => exact .inl ⟨word, hw, rfl⟩
  | last _ _ hw => exact .inr ⟨hw, hr.symm⟩

lemma prefix_lines_iff {lines : List Bytes} (h : Lined lines) (hy : newline ∉ y) :
    y ++ [newline] <+: lines.flatten ↔ lines.head? = some (y ++ [newline]) := by
  rcases lines with _ | ⟨line, rest⟩
  · simp
  rw [flatten_cons, List.head?_cons, Option.some.injEq]
  rcases lined_cases h with ⟨word, hw, rfl⟩ | ⟨hw, rfl⟩
  · rw [append_assoc, singleton_append, prefix_line_iff hy hw, append_left_inj]
    simp [eq_comm]
  rw [flatten_nil, append_nil]
  constructor
  · exact fun hs => absurd (hs.subset (by simp)) hw
  · rintro rfl
    simp at hw

lemma afterText_lines {lines : List Bytes} (h : Lined lines) (hx : newline ∉ x) (hy : newline ∉ y) :
    afterText (x ++ newline :: (y ++ [newline])) lines.flatten =
      (afterPair (fun first second => hasSuffix (x ++ [newline]) first && second = y ++ [newline]) lines).map
        List.flatten := by
  induction lines with
  | nil => exact afterText_word not_mem_nil
  | cons line rest ih =>
    have hl := h.sublist (sublist_cons_self line rest)
    rcases lined_cases h with ⟨word, hw, rfl⟩ | ⟨hw, rfl⟩
    · have he : hasSuffix (x ++ [newline]) (word ++ [newline]) = true ↔ x <:+ word := by
        rw [hasSuffix, isSuffixOf_iff_suffix]
        exact suffix_append_self_iff
      rw [flatten_cons, append_assoc, singleton_append, afterText_line hx hw, ih hl]
      simp only [prefix_lines_iff hl hy]
      rcases rest with _ | ⟨second, others⟩
      · simp [afterPair]
      rw [afterPair]
      simp only [List.head?_cons, Option.some.injEq, Bool.and_eq_true, he, decide_eq_true_eq]
      split_ifs with hf
      · rw [hf.2, flatten_cons, drop_left, map_some]
      · rfl
    · rw [flatten_cons, flatten_nil, append_nil]
      exact afterText_word hw

end Pattern

namespace MailSession

def onlyReturns (line : Bytes) : Bool := line.rdropWhile (· ∈ [carriageReturn, newline]) = []

-- The loop over the lines, with whether the body has begun and how many lines of it were written.
def headerLoop (nLines : Int) : Bool → Nat → List Bytes → Bytes
  | _, _, [] => []
  | false, bodyCount, line :: rest => line ++ headerLoop nLines (onlyReturns line) bodyCount rest
  | true, bodyCount, line :: rest =>
    if nLines = 0 then []
    else if nLines ≤ bodyCount + 1 then line
    else line ++ headerLoop nLines true (bodyCount + 1) rest

def extractHeaders (data : Bytes) (nLines : Int) : Bytes := headerLoop nLines false 0 (physicalLines data)

lemma drop_headerLoop (bodyCount : Nat) (lines : List Bytes) :
    lines.flatten.drop (headerLoop 0 false bodyCount lines).length = (afterLine onlyReturns lines).flatten := by
  induction lines with
  | nil => rfl
  | cons line rest ih =>
    rw [headerLoop, afterLine, flatten_cons]
    cases ho : onlyReturns line with
    | true => cases rest <;> simp [headerLoop]
    | false => rw [if_neg Bool.false_ne_true, length_append, ← drop_drop, drop_left, ih]

end MailSession

namespace Pop3

def chomp (line : Bytes) : Bytes := if line.getLast? = some newline then line.dropLast else line

lemma rawLinesFrom_word {word : Bytes} (h : newline ∉ word) (acc : Bytes) :
    rawLinesFrom acc word = flushWord (acc ++ word) := by
  induction word generalizing acc with
  | nil => rw [rawLinesFrom, append_nil]
  | cons b word ih =>
    obtain ⟨hb, hw⟩ := not_or.mp (mt mem_cons.mpr h)
    rw [rawLinesFrom, if_neg (Ne.symm hb), ih hw, append_assoc, singleton_append]

lemma rawLinesFrom_flatten {lines : List Bytes} (h : Lined lines) :
    rawLinesFrom [] lines.flatten = lines.map chomp := by
  induction lines with
  | nil => rfl
  | cons line rest ih =>
    have hr := ih (h.sublist (sublist_cons_self line rest))
    rcases lined_cases h with ⟨word, hw, rfl⟩ | ⟨hw, rfl⟩
    · rw [flatten_cons, append_assoc, singleton_append, rawLinesFrom_line [] word _ hw, hr]
      simp [chomp]
    · have hl : line.getLast? ≠ some newline := fun hl => hw (mem_of_getLast? hl)
      rw [flatten_cons, flatten_nil, append_nil, rawLinesFrom_word hw]
      simp [flushWord, chomp, hl, h.nonempty line]

def topBlank (line : Bytes) : Bool := dropCR (chomp line) = []

lemma drop_topLines {lines : List Bytes} :
    (((lines.map chomp).any (maxScanTokenSize ≤ ·.length)) = true →
      (topLines 0 (((lines.map chomp).takeWhile (·.length < maxScanTokenSize)).map dropCR)).2 = true) →
    lines.drop (topLines 0 (((lines.map chomp).takeWhile (·.length < maxScanTokenSize)).map dropCR)).1.length =
      afterLine topBlank lines := by
  induction lines with
  | nil => exact fun _ => rfl
  | cons line rest ih =>
    intro h
    rw [map_cons, any_cons] at h
    rw [map_cons, afterLine]
    by_cases hl : maxScanTokenSize ≤ (chomp line).length
    · rw [takeWhile_cons_of_neg (by simpa using hl)] at h
      simp [hl, topLines] at h
    rw [takeWhile_cons_of_pos (by simpa using hl), map_cons] at h ⊢
    by_cases hb : dropCR (chomp line) = []
    · simp [topBlank, hb, topLines, topBody]
    rw [topLines] at h ⊢
    · rw [if_neg (by simpa [topBlank] using hb), length_cons, drop_succ_cons]
      exact ih fun ha => h (by rw [ha, Bool.or_true])
    · exact hb
    · exact hb

-- The scanner takes the lines up to the first blank one and the line after it.
def ShortHeader (lines : List Bytes) : Prop :=
  ∀ line ∈ lines.take ((lines.takeWhile (!topBlank ·)).length + 2), (chomp line).length < maxScanTokenSize

lemma answers_iff_shortHeader {lines : List Bytes} :
    ((lines.map chomp).any (maxScanTokenSize ≤ ·.length) = true →
      (topLines 0 (((lines.map chomp).takeWhile (·.length < maxScanTokenSize)).map dropCR)).2 = true) ↔
    ShortHeader lines := by
  unfold ShortHeader
  induction lines with
  | nil => simp
  | cons line rest ih =>
    rw [map_cons, any_cons, take_succ_cons, forall_mem_cons]
    by_cases hl : maxScanTokenSize ≤ (chomp line).length
    · rw [takeWhile_cons_of_neg (by simpa using hl)]
      simp [hl, topLines]
    have hs := Nat.lt_of_not_le hl
    rw [takeWhile_cons_of_pos (by simpa using hl), map_cons, decide_eq_false hl, Bool.false_or]
    by_cases hb : dropCR (chomp line) = []
    · have hw : (line :: rest).takeWhile (!topBlank ·) = [] := takeWhile_cons_of_neg (by simp [topBlank, hb])
      rw [hw, hb]
      rcases rest with _ | ⟨next, rest⟩
      · simp [hs]
      by_cases hn : maxScanTokenSize ≤ (chomp next).length
      · simp [topLines, topBody, hs, hn, Nat.not_lt.mpr hn]
      · simp [topLines, topBody, hs, Nat.lt_of_not_le hn]
    · have hw : (line :: rest).takeWhile (!topBlank ·) = line :: rest.takeWhile (!topBlank ·) :=
        takeWhile_cons_of_pos (by simp [topBlank, hb])
      rw [hw, topLines, length_cons]
      · exact ih.trans (and_iff_right hs).symm
      · exact hb

lemma extractTopLines_isSome (data : Bytes) :
    (extractTopLines data 0).isSome = true ↔ ShortHeader (physicalLines data) := by
  have hraw := rawLinesFrom_flatten (lined_physicalLines data)
  rw [flatten_physicalLines] at hraw
  rw [← answers_iff_shortHeader]
  simp only [extractTopLines, scanLines, hraw]
  split_ifs with hr
  · exact ⟨fun h => absurd h Bool.false_ne_true, fun h => absurd (h hr.1) hr.2⟩
  · exact ⟨fun _ ha => not_not.mp fun hn => hr ⟨ha, hn⟩, fun _ => rfl⟩

-- The body for TOP stands after the lines of its answer.
lemma top_body {data : Bytes} {top : List Bytes} (h : extractTopLines data 0 = some top) :
    (physicalLines data).drop top.length = afterLine topBlank (physicalLines data) := by
  have hraw := rawLinesFrom_flatten (lined_physicalLines data)
  rw [flatten_physicalLines] at hraw
  simp only [extractTopLines, scanLines, hraw] at h
  split at h
  · cases h
  · next hr =>
    rw [← Option.some.inj h]
    exact drop_topLines fun ha => by simpa [ha] using hr

end Pop3

namespace Smtpd.AuthResultsFilter

-- What is not read yet where the header ends.
def unread (fold : Folding) (f : AuthResultsFilter) : Bytes :=
  if f.inHeaders = false then f.br
  else if f.br = [] then []
  else unread fold { f.fill fold with pending := [] }
termination_by f.br.length
decreasing_by
  rename_i hne
  simp only [fill_br]
  exact readSlice_length f.br hne

lemma unread_chunk (fold : Folding) (authserv : Bytes) (lineStart dropping : Bool) {br chunk left : Bytes} {full : Bool}
    (hr : readSlice br = (chunk, full, left)) (hne : br ≠ []) (hc : chunk ≠ []) :
    ∃ dropping', unread fold (scanning authserv br lineStart dropping) =
      if lineStart && isBlankLine chunk then left else unread fold (scanning authserv left (!full) dropping') := by
  rw [unread, if_neg (by simp [scanning]), if_neg (by simpa [scanning] using hne)]
  simp only [fill, scanning, hr, hc, ite_false]
  rcases hb : lineStart && isBlankLine chunk with _ | _
  · simp only [Bool.false_eq_true, ite_false]
    split_ifs
    exacts [⟨_, rfl⟩, ⟨_, rfl⟩, ⟨_, rfl⟩, ⟨_, rfl⟩]
  · refine ⟨false, ?_⟩
    simp only [ite_true]
    split_ifs <;> rw [unread] <;> rfl

lemma lined_of_piece {part : Bytes} {rest : List Bytes} (h : Piece part rest.flatten) (hr : Lined rest) :
    Lined (part :: rest) := by
  have hl := physicalLines_flatten hr
  have hli := lined_physicalLines (part ++ rest.flatten)
  generalize rest.flatten = s at h hl hli
  cases h with
  | ended word s hw =>
    rwa [append_assoc, singleton_append, physicalLines_ended hw, hl] at hli
  | last _ hne hw =>
    rw [append_nil, physicalLines_word hne hw] at hli
    rwa [← hl]

-- By what is left to read. A line longer than the buffer goes on in the next chunk,
-- which does not start a line.
lemma unread_lines (fold : Folding) (authserv : Bytes) {lines : List Bytes} (h : Lined lines)
    (lineStart dropping : Bool) : unread fold (scanning authserv lines.flatten lineStart dropping) =
      (afterLine isBlankLine (if lineStart then lines else lines.tail)).flatten := by
  induction hl : lines.flatten.length using Nat.strong_induction_on generalizing lines lineStart dropping with
  | _ n ih =>
    rcases lines with _ | ⟨line, rest⟩
    · rw [unread]; cases lineStart <;> rfl
    have hr := h.sublist (sublist_cons_self line rest)
    have hp := Lined.piece h
    have hpos := length_pos_iff.mpr hp.ne_nil
    rw [flatten_cons, length_append] at hl
    obtain ⟨full, hre, hf, hfi⟩ := readSlice_piece hp
    obtain ⟨dropping', hs⟩ := unread_chunk fold authserv lineStart dropping hre (by simp [hp.ne_nil])
      (chunk_ne_nil hp.ne_nil)
    rw [flatten_cons, hs, isBlankLine_take]
    by_cases hlo : authResultsChunk < line.length
    · have hb : isBlankLine line = false := by
        rw [isBlankLine, decide_eq_false_iff_not]
        rintro (rfl | rfl) <;> revert hlo <;> decide
      have ht : full = true := by
        by_contra hnot
        have hle := hfi (Bool.eq_false_iff.mpr hnot)
        omega
      have hn := ih _ ?_ (lined_of_piece (hp.drop hlo) hr) false dropping' rfl
      · rw [hb, ht, Bool.and_false, if_neg Bool.false_ne_true, Bool.not_true]
        rw [flatten_cons] at hn
        rw [hn]
        cases lineStart <;> simp [afterLine, hb]
      · have hc : 0 < authResultsChunk := by decide
        rw [flatten_cons, length_append, length_drop]
        omega
    · rw [drop_of_length_le (Nat.le_of_not_lt hlo), nil_append]
      have hn := ih _ (by omega) hr true dropping' rfl
      rw [if_pos rfl] at hn
      rcases full with _ | _
      · cases lineStart <;> cases hb : isBlankLine line <;> simp [afterLine, hb, hn]
      obtain rfl : rest = [] := by
        rw [← physicalLines_flatten hr, (hf rfl).resolve_left hlo, physicalLines]
      cases lineStart <;> cases hb : isBlankLine line <;>
        simp [afterLine, hb, unread, scanning]

end Smtpd.AuthResultsFilter

open MailSession Pop3 Smtpd

def endsPair (x y first second : Bytes) : Bool := hasSuffix (x ++ [newline]) first && second = y ++ [newline]

lemma endsPair_iff {x y first second : Bytes} : endsPair x y first second = true ↔
    hasSuffix (x ++ [newline]) first = true ∧ second = y ++ [newline] := by
  rw [endsPair, Bool.and_eq_true, decide_eq_true_eq]

-- What splitMessage has for the body: CRLF CRLF goes before LF LF.
def splitRest (lines : List Bytes) : List Bytes :=
  ((afterPair (endsPair [carriageReturn] [carriageReturn]) lines).or (afterPair (endsPair [] []) lines)).getD []

lemma splitMessage_body {lines : List Bytes} (h : Lined lines) :
    (Imap.splitMessage lines.flatten).2 = (splitRest lines).flatten := by
  have hc := afterText_lines h (x := [carriageReturn]) (y := [carriageReturn]) (by decide) (by decide)
  have hlf := afterText_lines h (x := []) (y := []) (by decide) (by decide)
  rw [splitRest]
  change Option.map _ (Imap.index [13, 10, 13, 10] lines.flatten) = Option.map _ (afterPair (endsPair _ _) lines) at hc
  change Option.map _ (Imap.index [10, 10] lines.flatten) = Option.map _ (afterPair (endsPair _ _) lines) at hlf
  rw [Imap.splitMessage]
  rcases hf : Imap.index [13, 10, 13, 10] lines.flatten with _ | i
  · rw [hf] at hc
    rw [map_eq_none_iff.mp hc.symm, none_or]
    rcases hs : Imap.index [10, 10] lines.flatten with _ | i
    · rw [hs] at hlf
      rw [map_eq_none_iff.mp hlf.symm]
      rfl
    rw [hs] at hlf
    obtain ⟨rest, hr, hb⟩ := map_eq_some_iff.mp hlf.symm
    rw [hr, getD_some, hb]
    rfl
  · rw [hf] at hc
    obtain ⟨rest, hr, hb⟩ := map_eq_some_iff.mp hc.symm
    rw [hr, some_or, getD_some, hb]
    rfl

lemma topBlank_of_isBlankLine {line : Bytes} (h : isBlankLine line = true) : topBlank line = true := by
  rw [isBlankLine, decide_eq_true_eq] at h
  rcases h with rfl | rfl <;> decide

lemma topBlank_cases {line : Bytes} (h : topBlank line = true) :
    line = [] ∨ line = [carriageReturn] ∨ isBlankLine line = true := by
  rw [topBlank, decide_eq_true_eq] at h
  have hc := eq_or_eq_concat_dropCR (chomp line)
  rw [h, nil_append, chomp] at hc
  split at hc
  · next hl =>
    have hli := dropLast_append_getLast? newline hl
    rcases hc with hn | hcr
    · rw [hn] at hli
      exact .inr (.inr (by rw [← hli]; decide))
    · rw [hcr] at hli
      exact .inr (.inr (by rw [← hli]; decide))
  · exact hc.imp_right .inl

lemma onlyReturns_of_topBlank {line : Bytes} (h : topBlank line = true) : onlyReturns line = true := by
  rcases topBlank_cases h with rfl | rfl | hb
  · rfl
  · decide
  · rw [isBlankLine, decide_eq_true_eq] at hb
    rcases hb with rfl | rfl <;> decide

-- What is a blank line to extractHeaders, to extractTopLines and to the filter.
def blankTests : List (Bytes → Bool) := [onlyReturns, topBlank, isBlankLine]

lemma onlyReturns_of_test {p : Bytes → Bool} (hp : p ∈ blankTests) {line : Bytes} (h : p line = true) :
    onlyReturns line = true := by
  simp only [blankTests, mem_cons, not_mem_nil, or_false] at hp
  rcases hp with rfl | rfl | rfl
  exacts [h, onlyReturns_of_topBlank h, onlyReturns_of_topBlank (topBlank_of_isBlankLine h)]

lemma test_of_isBlankLine {p : Bytes → Bool} (hp : p ∈ blankTests) {line : Bytes} (h : isBlankLine line = true) :
    p line = true := by
  simp only [blankTests, mem_cons, not_mem_nil, or_false] at hp
  rcases hp with rfl | rfl | rfl
  exacts [onlyReturns_of_topBlank (topBlank_of_isBlankLine h), topBlank_of_isBlankLine h, h]

-- The first line of nothing but CR before its LF, where something stands after it, is
-- CRLF after a line that ends so too, or LF in a message without CRLF CRLF.
def EndsPlainly (data : Bytes) : Prop :=
  ∀ blank rest, (physicalLines data).dropWhile (!onlyReturns ·) = blank :: rest → rest ≠ [] →
    ∃ last ∈ ((physicalLines data).takeWhile (!onlyReturns ·)).getLast?,
      hasSuffix [carriageReturn, newline] last = true ∧ blank = [carriageReturn, newline] ∨
        blank = [newline] ∧ Imap.index [13, 10, 13, 10] data = none

section Agreement

variable {head rest : List Bytes} {blank : Bytes} (hhead : ∀ line ∈ head, onlyReturns line = false)

include hhead

lemma afterLine_eq {p : Bytes → Bool} (hp : p ∈ blankTests) :
    afterLine p (head ++ blank :: rest) = if p blank then rest else afterLine p rest :=
  afterLine_head fun line hl => Bool.eq_false_iff.mpr fun h =>
    Bool.false_ne_true ((hhead line hl).symm.trans (onlyReturns_of_test hp h))

lemma afterPair_eq {x y : Bytes} (hy : onlyReturns (y ++ [newline]) = true) :
    afterPair (endsPair x y) (head ++ blank :: rest) =
      if head.getLast?.any (endsPair x y · blank) then some rest else afterPair (endsPair x y) (blank :: rest) := by
  refine afterPair_head fun line hl first => Bool.eq_false_iff.mpr fun h => ?_
  rw [← (endsPair_iff.mp h).2, hhead line hl] at hy
  cases hy

-- Where nothing stands after the line, nothing is left to read for any of them.
lemma afterLine_last {p : Bytes → Bool} (hp : p ∈ blankTests) :
    afterLine p (head ++ [blank]) = splitRest (head ++ [blank]) := by
  have hs : splitRest (head ++ [blank]) = [] := by
    rw [splitRest, afterPair_eq hhead (by decide), afterPair_eq hhead (by decide)]
    split <;> split <;> rfl
  rw [afterLine_eq hhead hp, hs]
  split <;> rfl

lemma splitRest_iff (h : Lined (head ++ blank :: rest)) (hne : rest ≠ []) : splitRest (head ++ blank :: rest) = rest ↔
    ∃ last ∈ head.getLast?, hasSuffix [carriageReturn, newline] last = true ∧ blank = [carriageReturn, newline] ∨
      blank = [newline] ∧ afterPair (endsPair [carriageReturn] [carriageReturn]) (head ++ blank :: rest) = none := by
  have hc : afterPair (endsPair [carriageReturn] [carriageReturn]) (head ++ blank :: rest) = _ :=
    afterPair_eq hhead (by decide)
  have hlf : afterPair (endsPair [] []) (head ++ blank :: rest) = _ := afterPair_eq hhead (by decide)
  have hl {x y : Bytes} {others : List Bytes} (ho : afterPair (endsPair x y) (blank :: rest) = some others) :
      others ≠ rest := ne_of_suffix_tail (afterPair_suffix ho) hne
  have ha {x y last : Bytes} (hla : last ∈ head.getLast?) :
      head.getLast?.any (endsPair x y · blank) = endsPair x y last blank := by
    rw [mem_def.mp hla, any_some]
  rw [splitRest]
  constructor
  · intro hs
    rw [hc] at hs ⊢
    split at hs
    · next hf =>
      obtain ⟨last, hla, he⟩ := (any_eq_true _ _).mp hf
      exact ⟨last, hla, .inl (endsPair_iff.mp he)⟩
    · next hf =>
      rw [if_neg hf]
      rcases hcr : afterPair (endsPair [carriageReturn] [carriageReturn]) (blank :: rest) with _ | others
      · rw [hcr, none_or, hlf] at hs
        split at hs
        · next hf =>
          obtain ⟨last, hla, he⟩ := (any_eq_true _ _).mp hf
          exact ⟨last, hla, .inr ⟨(endsPair_iff.mp he).2, rfl⟩⟩
        · rcases hlf' : afterPair (endsPair [] []) (blank :: rest) with _ | others
          · rw [hlf'] at hs
            exact absurd hs.symm hne
          · rw [hlf'] at hs
            exact absurd hs (hl hlf')
      · rw [hcr] at hs
        exact absurd hs (hl hcr)
  · rintro ⟨last, hla, ⟨he, hb⟩ | ⟨hb, hn⟩⟩
    · have hf : endsPair [carriageReturn] [carriageReturn] last blank = true := endsPair_iff.mpr ⟨he, hb⟩
      rw [hc, ha hla, if_pos hf, some_or, getD_some]
    · have hen := (pairwise_append.mp h.ended).2.2 last (mem_of_getLast? hla) blank mem_cons_self
      have hf : endsPair [] [] last blank = true := by
        refine endsPair_iff.mpr ⟨?_, hb⟩
        rw [hasSuffix, isSuffixOf_iff_suffix]
        exact ⟨_, dropLast_append_getLast? newline hen⟩
      rw [hn, none_or, hlf, ha hla, if_pos hf, getD_some]

lemma afterLine_eq_splitRest_iff (h : Lined (head ++ blank :: rest)) (hne : rest ≠ [])
    (hb : onlyReturns blank = true) :
    (∀ p ∈ blankTests, afterLine p (head ++ blank :: rest) = splitRest (head ++ blank :: rest)) ↔
      ∃ last ∈ head.getLast?, hasSuffix [carriageReturn, newline] last = true ∧ blank = [carriageReturn, newline] ∨
        blank = [newline] ∧ afterPair (endsPair [carriageReturn] [carriageReturn]) (head ++ blank :: rest) = none := by
  rw [← splitRest_iff hhead h hne]
  constructor
  · intro ha
    have hsa := ha onlyReturns mem_cons_self
    rwa [afterLine_eq hhead mem_cons_self, if_pos hb, eq_comm] at hsa
  · intro hs p hp
    have his : isBlankLine blank = true := by
      obtain ⟨_, _, ⟨_, rfl⟩ | ⟨rfl, _⟩⟩ := (splitRest_iff hhead h hne).mp hs <;> rfl
    rw [afterLine_eq hhead hp, if_pos (test_of_isBlankLine hp his), hs]

end Agreement

-- The bodies of the four readers.
structure SameEnd (fold : Folding) (authserv data : Bytes) : Prop where
  headers : data.drop (extractHeaders data 0).length = (Imap.splitMessage data).2
  top : ∃ top, extractTopLines data 0 = some top ∧
    ((physicalLines data).drop top.length).flatten = (Imap.splitMessage data).2
  filter : AuthResultsFilter.unread fold ⟨data, fold.lower authserv, [], true, true, false⟩ = (Imap.splitMessage data).2

lemma splitRest_sublist (lines : List Bytes) : (splitRest lines).Sublist lines := by
  have hs {x y : Bytes} {rest : List Bytes} (h : afterPair (endsPair x y) lines = some rest) : rest.Sublist lines :=
    ((afterPair_suffix h).trans ((tail_suffix _).trans (tail_suffix _))).sublist
  rw [splitRest]
  rcases hc : afterPair (endsPair [carriageReturn] [carriageReturn]) lines with _ | rest
  · rcases hlf : afterPair (endsPair [] []) lines with _ | rest
    · exact nil_sublist _
    · exact hs hlf
  · exact hs hc

lemma sameEnd_iff (fold : Folding) (authserv data : Bytes) : SameEnd fold authserv data ↔
    (extractTopLines data 0).isSome = true ∧ ∀ p ∈ blankTests,
      afterLine p (physicalLines data) = splitRest (physicalLines data) := by
  have hl := lined_physicalLines data
  have hs := splitMessage_body hl
  have hhe := drop_headerLoop 0 (physicalLines data)
  have hu := AuthResultsFilter.unread_lines fold (fold.lower authserv) hl true false
  rw [flatten_physicalLines] at hs hhe hu
  have hsa (p : Bytes → Bool) : (afterLine p (physicalLines data)).flatten = (splitRest (physicalLines data)).flatten ↔
      afterLine p (physicalLines data) = splitRest (physicalLines data) := by
    refine ⟨fun heq => ?_, congrArg List.flatten⟩
    have ha := hl.sublist ((afterLine_suffix p _).trans (tail_suffix _)).sublist
    rw [← physicalLines_flatten ha, heq, physicalLines_flatten (hl.sublist (splitRest_sublist _))]
  simp only [blankTests, forall_mem_cons, not_mem_nil, false_implies, implies_true, and_true, ← hsa, ← hs]
  constructor
  · rintro ⟨hh, ⟨top, htop, ht⟩, hf⟩
    rw [top_body htop] at ht
    exact ⟨by rw [htop]; rfl, hhe.symm.trans hh, ht, hu.symm.trans hf⟩
  · rintro ⟨hso, hh, ht, hf⟩
    obtain ⟨top, htop⟩ := isSome_iff_exists.mp hso
    exact ⟨hhe.trans hh, ⟨top, htop, by rw [top_body htop, ht]⟩, hu.trans hf⟩

lemma endsPlainly_iff (data : Bytes) :
    (∀ p ∈ blankTests, afterLine p (physicalLines data) = splitRest (physicalLines data)) ↔ EndsPlainly data := by
  have hl := lined_physicalLines data
  have hi := congrArg Option.isNone (afterText_lines hl (x := [carriageReturn]) (y := [carriageReturn])
    (by decide) (by decide))
  rw [flatten_physicalLines, afterText, isNone_map, isNone_map, Bool.eq_iff_iff, isNone_iff_eq_none,
    isNone_iff_eq_none] at hi
  have hli := takeWhile_append_dropWhile (p := (!onlyReturns ·)) (l := physicalLines data)
  have hhead : ∀ line ∈ (physicalLines data).takeWhile (!onlyReturns ·), onlyReturns line = false := fun line hln => by
    simpa using mem_takeWhile_imp hln
  have hb : ∀ line ∈ ((physicalLines data).dropWhile (!onlyReturns ·)).head?, onlyReturns line = true := by
    intro line hln
    have hn := List.head?_dropWhile_not (!onlyReturns ·) (physicalLines data)
    rw [mem_def.mp hln] at hn
    simpa using hn
  unfold EndsPlainly
  rw [← hli] at hl hi
  conv_lhs => rw [← hli]
  generalize (physicalLines data).takeWhile (!onlyReturns ·) = head at *
  generalize (physicalLines data).dropWhile (!onlyReturns ·) = tail at *
  rcases tail with _ | ⟨blank, rest⟩
  · rw [append_nil]
    refine ⟨fun _ blank rest hc => (by cases hc), fun _ => ?_⟩
    rcases eq_nil_or_concat head with rfl | ⟨init, last, rfl⟩
    · exact fun p _ => rfl
    · rw [concat_eq_append] at hhead ⊢
      exact fun p => afterLine_last fun line hln => hhead line (mem_append_left _ hln)
  · by_cases hne : rest = []
    · subst hne
      exact ⟨fun _ _ _ hc hn => absurd (List.cons.inj hc).2.symm hn, fun _ p => afterLine_last hhead⟩
    rw [afterLine_eq_splitRest_iff hhead hl hne (hb blank rfl),
      show afterPair (endsPair [carriageReturn] [carriageReturn]) (head ++ blank :: rest) = none ↔
        Imap.index [13, 10, 13, 10] data = none from hi.symm]
    constructor
    · rintro hf _ _ ⟨⟩ -
      exact hf
    · exact fun hpl => hpl blank rest rfl hne

theorem header_end_iff (fold : Folding) (authserv data : Bytes) : SameEnd fold authserv data ↔
    ShortHeader (physicalLines data) ∧ EndsPlainly data := by
  rw [sameEnd_iff, endsPlainly_iff, extractTopLines_isSome]

-- For IMAP the header goes on to CRLF CRLF; the filter has let go of it at LF LF.
theorem mixed_ends_disagree :
    Imap.splitMessage (ascii "A: 1\n\nB: 2\r\n\r\nc") = (ascii "A: 1\n\nB: 2\r\n\r\n", ascii "c") ∧
      extractHeaders (ascii "A: 1\n\nB: 2\r\n\r\nc") 0 = ascii "A: 1\n\n" ∧
      extractTopLines (ascii "A: 1\n\nB: 2\r\n\r\nc") 0 = some [ascii "A: 1", []] ∧
      AuthResultsFilter.unread Folding.asciiOnly ⟨ascii "A: 1\n\nB: 2\r\n\r\nc", ascii "mx", [], true, true, false⟩ =
        ascii "B: 2\r\n\r\nc" := by
  refine ⟨by decide +kernel, by decide +kernel, by decide +kernel, ?_⟩
  have hu := AuthResultsFilter.unread_lines .asciiOnly (ascii "mx")
    (lined_physicalLines (ascii "A: 1\n\nB: 2\r\n\r\nc")) true false
  rw [flatten_physicalLines] at hu
  exact hu.trans (by decide +kernel)

end Maildancer

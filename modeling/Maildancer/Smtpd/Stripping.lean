import Maildancer.Smtpd.AuthResults
import Maildancer.Text.Parts

namespace Maildancer.Smtpd

open List Text

inductive Piece : Bytes → Bytes → Prop
  | ended (word rest : Bytes) (h : newline ∉ word) : Piece (word ++ [newline]) rest
  | last (word : Bytes) (hne : word ≠ []) (h : newline ∉ word) : Piece word []

variable {part rest line : Bytes}

lemma Piece.ne_nil (h : Piece part rest) : part ≠ [] := by
  cases h with
  | ended word rest h => simp
  | last word hne h => exact hne

lemma Piece.drop (h : Piece part rest) {n : Nat} (hn : n < part.length) : Piece (part.drop n) rest := by
  cases h with
  | ended word rest h =>
    rw [length_append, length_singleton] at hn
    rw [drop_append_of_le_length (by omega)]
    exact .ended _ _ fun hm => h (mem_of_mem_drop hm)
  | last word hne h =>
    refine .last _ ?_ fun hm => h (mem_of_mem_drop hm)
    rw [ne_eq, drop_eq_nil_iff]
    omega

variable {lines : List Bytes} {hostname : Bytes}

lemma Lined.piece (h : Lined (line :: lines)) : Piece line lines.flatten := by
  have hne := h.nonempty line mem_cons_self
  have hi := h.inner line mem_cons_self
  have hs := dropLast_append_getLast hne
  by_cases he : line.getLast hne = newline
  · rw [he] at hs
    rw [← hs]
    exact .ended _ _ hi
  rcases lines with _ | ⟨next, lines⟩
  · refine .last line hne ?_
    rw [← hs, mem_append, mem_singleton, not_or]
    exact ⟨hi, Ne.symm he⟩
  · have hn := (pairwise_cons.mp h.ended).1 next mem_cons_self
    rw [List.getLast?_eq_some_getLast hne, Option.some.injEq] at hn
    exact absurd hn he

lemma readSlice_piece (h : Piece part rest) : ∃ full, readSlice (part ++ rest) =
        (part.take authResultsChunk, full, part.drop authResultsChunk ++ rest) ∧
      (full = true → authResultsChunk < part.length ∨ rest = []) ∧
      (full = false → part.length ≤ authResultsChunk) := by
  cases h with
  | ended word rest h =>
    by_cases hl : authResultsChunk ≤ word.length
    · have ht : (word ++ newline :: rest).take authResultsChunk = word.take authResultsChunk :=
        take_append_of_le_length hl
      have hc : cut newline (word.take authResultsChunk) = none :=
        cut_eq_none fun hm => h (mem_of_mem_take hm)
      refine ⟨true, ?_, fun _ => Or.inl ?_, fun hf => (nomatch hf)⟩
      · simp only [readSlice, append_assoc, singleton_append, ht, hc]
        rw [take_append_of_le_length hl, drop_append_of_le_length hl,
          drop_append_of_le_length hl, append_assoc, singleton_append]
        simp only [length_append, length_cons, Prod.mk.injEq, decide_eq_true_eq, true_and, and_true]
        omega
      · rw [length_append, length_singleton]
        omega
    · have hfi : (word ++ [newline]).length ≤ authResultsChunk := by
        rw [length_append, length_singleton]
        omega
      have hc : cut newline ((word ++ [newline] ++ rest).take authResultsChunk) =
          some (word, rest.take (authResultsChunk - (word ++ [newline]).length)) := by
        rw [take_append, take_of_length_le hfi, cut_eq_some]
        exact ⟨by simp, h⟩
      refine ⟨false, ?_, fun hf => (nomatch hf), fun _ => hfi⟩
      simp only [readSlice, hc]
      rw [take_of_length_le hfi, drop_of_length_le hfi, drop_left' (by simp), nil_append]
  | last _ hne h =>
    have hc : cut newline (part.take authResultsChunk) = none :=
      cut_eq_none fun hm => h (mem_of_mem_take hm)
    refine ⟨authResultsChunk ≤ part.length, ?_, fun _ => Or.inr rfl, fun hf => ?_⟩
    · simp [readSlice, hc]
    · have hs := of_decide_eq_false hf
      omega

namespace AuthResultsFilter

variable {fold : Folding}

-- The filter inside the header, with nothing left to hand out.
def scanning (authserv br : Bytes) (lineStart dropping : Bool) : AuthResultsFilter :=
  ⟨br, authserv, [], true, lineStart, dropping⟩

lemma readAll_nil (authserv : Bytes) (lineStart dropping : Bool) :
    readAll fold (scanning authserv [] lineStart dropping) = [] := by
  rw [readAll]
  rfl

lemma chunk_ne_nil (hne : part ≠ []) : part.take authResultsChunk ≠ [] := by
  rw [ne_eq, take_eq_nil_iff, not_or]
  exact ⟨by decide, hne⟩

variable {full : Bool}

lemma readAll_chunk {authserv br chunk left : Bytes} {lineStart dropping : Bool}
    (hr : readSlice br = (chunk, full, left)) (hne : br ≠ []) (hc : chunk ≠ [])
    (hb : (lineStart && isBlankLine chunk) = false) :
    readAll fold (scanning authserv br lineStart dropping) =
      (if lineStart && !isFoldedContinuation chunk then
        (if isOwnAuthResults fold authserv chunk then [] else chunk) ++
          readAll fold (scanning authserv left (!full) (isOwnAuthResults fold authserv chunk))
      else (if dropping then [] else chunk) ++ readAll fold (scanning authserv left (!full) dropping)) := by
  rw [readAll, if_neg (by simp [scanning]), if_neg (by simpa [scanning] using hne)]
  simp only [fill, scanning, hr, hc, hb, ite_false, Bool.false_eq_true]
  split_ifs <;> rfl

lemma readAll_left (authserv : Bytes) (dropping : Bool)
    (hf : full = true → authResultsChunk < part.length ∨ rest = [])
    (hfi : full = false → part.length ≤ authResultsChunk) (ht : authResultsChunk < part.length →
      readAll fold (scanning authserv (part.drop authResultsChunk ++ rest) false dropping) =
        (if dropping then [] else part.drop authResultsChunk) ++
          readAll fold (scanning authserv rest true dropping)) :
    (if dropping then [] else part.take authResultsChunk) ++
        readAll fold (scanning authserv (part.drop authResultsChunk ++ rest) (!full) dropping) =
      (if dropping then [] else part) ++ readAll fold (scanning authserv rest true dropping) := by
  by_cases hl : authResultsChunk < part.length
  · have htr : full = true := by
      cases full with
      | true => rfl
      | false => exact absurd (hfi rfl) (by omega)
    rw [htr, Bool.not_true, ht hl, ← append_assoc]
    cases dropping with
    | true => rfl
    | false => simp
  · have ha : part.length ≤ authResultsChunk := by omega
    rw [take_of_length_le ha, drop_of_length_le ha, nil_append]
    rcases full with _ | _
    · rfl
    · obtain rfl : rest = [] := (hf rfl).resolve_left hl
      rw [readAll_nil, readAll_nil]

lemma readAll_tail (h : Piece part rest) (authserv : Bytes) (dropping : Bool) :
    readAll fold (scanning authserv (part ++ rest) false dropping) =
      (if dropping then [] else part) ++ readAll fold (scanning authserv rest true dropping) := by
  induction hl : part.length using Nat.strong_induction_on generalizing part with
  | _ n ih =>
    obtain ⟨full, hr, hf, hfi⟩ := readSlice_piece h
    have hne : part ++ rest ≠ [] := by simp [h.ne_nil]
    rw [readAll_chunk hr hne (chunk_ne_nil h.ne_nil) rfl]
    simp only [Bool.false_and, Bool.false_eq_true, ite_false]
    apply readAll_left authserv dropping hf hfi
    intro hlo
    have hs : (part.drop authResultsChunk).length < n := by
      have hp : 0 < authResultsChunk := by decide
      rw [length_drop]
      omega
    exact ih _ hs (h.drop hlo) rfl

-- The first bytes of a line decide, and they are in the first chunk.
lemma isFoldedContinuation_take (line : Bytes) :
    isFoldedContinuation (line.take authResultsChunk) = isFoldedContinuation line := by
  cases line <;> rfl

lemma isBlankLine_take (line : Bytes) : isBlankLine (line.take authResultsChunk) = isBlankLine line := by
  by_cases hl : line.length ≤ authResultsChunk
  · rw [take_of_length_le hl]
  have hle : (line.take authResultsChunk).length = authResultsChunk := by
    rw [length_take]
    omega
  have hno : ∀ text : Bytes, authResultsChunk ≤ text.length → isBlankLine text = false := by
    intro text ht
    have hb : 2 < authResultsChunk := by decide
    rw [isBlankLine, decide_eq_false_iff_not, not_or]
    refine ⟨fun heq => ?_, fun heq => ?_⟩
    · rw [heq] at ht
      simp only [length_cons, length_nil] at ht
      omega
    · rw [heq] at ht
      simp only [length_cons, length_nil] at ht
      omega
  rw [hno _ (by omega), hno line (by omega)]

def ownLine (fold : Folding) (authserv line : Bytes) : Bool :=
  isOwnAuthResults fold authserv (line.take authResultsChunk)

lemma readAll_line (h : Piece line rest) (authserv : Bytes) (dropping : Bool)
    (hb : isBlankLine line = false) : readAll fold (scanning authserv (line ++ rest) true dropping) =
      (if (if isFoldedContinuation line then dropping else ownLine fold authserv line) then [] else line) ++
        readAll fold (scanning authserv rest true
          (if isFoldedContinuation line then dropping else ownLine fold authserv line)) := by
  obtain ⟨full, hr, hf, hfi⟩ := readSlice_piece h
  have hne : line ++ rest ≠ [] := by simp [h.ne_nil]
  have ht : (true && isBlankLine (line.take authResultsChunk)) = false := by
    rw [Bool.true_and, isBlankLine_take, hb]
  rw [readAll_chunk hr hne (chunk_ne_nil h.ne_nil) ht, isFoldedContinuation_take]
  have hl := fun dropping => @readAll_left _ _ fold _ authserv dropping hf hfi fun hlo =>
    readAll_tail (h.drop hlo) authserv dropping
  cases isFoldedContinuation line with
  | true => exact hl dropping
  | false => exact hl _

lemma readAll_blank (h : Piece line rest) (authserv : Bytes) (dropping : Bool)
    (hb : isBlankLine line = true) :
    readAll fold (scanning authserv (line ++ rest) true dropping) = line ++ rest := by
  obtain ⟨full, hr, -, -⟩ := readSlice_piece h
  have hne : line ++ rest ≠ [] := by simp [h.ne_nil]
  have hc := chunk_ne_nil h.ne_nil
  have ht : isBlankLine (line.take authResultsChunk) = true := by rw [isBlankLine_take, hb]
  rw [readAll, if_neg (by simp [scanning]), if_neg (by simpa [scanning] using hne)]
  simp only [fill, scanning, hr, hc, ht, ite_false, Bool.and_self, ite_true, Bool.false_eq_true]
  rw [readAll, if_pos rfl, ← append_assoc, take_append_drop]

-- By the lines: a line is dropped as the one before it unless it starts a field.
lemma readAll_lines (h : Lined lines) (authserv : Bytes) (dropping : Bool) :
    readAll fold (scanning authserv lines.flatten true dropping) =
      (keptLines (ownLine fold authserv) dropping (lines.takeWhile (!isBlankLine ·))).flatten ++
        (lines.dropWhile (!isBlankLine ·)).flatten := by
  induction lines generalizing dropping with
  | nil => exact readAll_nil authserv true dropping
  | cons line lines ih =>
    have ht := h.sublist (sublist_cons_self line lines)
    rw [flatten_cons]
    rcases hb : isBlankLine line with _ | _
    · rw [readAll_line (Lined.piece h) authserv dropping hb, ih ht,
        takeWhile_cons_of_pos (by simp [hb]), dropWhile_cons_of_pos (by simp [hb]),
        keptLines, ← append_assoc]
      generalize (if isFoldedContinuation line then dropping else ownLine fold authserv line) = decision
      cases decision <;> simp
    · rw [readAll_blank (Lined.piece h) authserv dropping hb]
      simp [hb, keptLines]

end AuthResultsFilter

lemma stripAuthResults_eq (fold : Folding) (msg : Bytes) (hh : hostname ≠ []) :
    stripAuthResults fold msg hostname =
      (keptLines (AuthResultsFilter.ownLine fold (fold.lower hostname)) false (headerLines msg)).flatten ++
        ((physicalLines msg).dropWhile (!isBlankLine ·)).flatten := by
  rw [headerLines, ← AuthResultsFilter.readAll_lines (lined_physicalLines msg), stripAuthResults,
    if_neg hh, flatten_physicalLines]
  rfl

lemma headerFields_strip (fold : Folding) (msg : Bytes) (hh : hostname ≠ []) :
    headerFields (stripAuthResults fold msg hostname) = (headerFields msg).filter
        (keptField (AuthResultsFilter.ownLine fold (fold.lower hostname))) := by
  rw [stripAuthResults_eq fold msg hh, headerFields, headerLines_flatten]
  · exact (groupFields_keptLines _ _).1
  · refine (lined_physicalLines msg).sublist ?_
    conv_rhs => rw [← takeWhile_append_dropWhile (p := (!isBlankLine ·)) (l := physicalLines msg)]
    exact (keptLines_sublist _ _ _).append (List.Sublist.refl _)
  · intro line hl
    have hm := (keptLines_sublist _ _ _).subset hl
    simpa using mem_takeWhile_imp hm
  intro line hl
  have hhe := List.head?_dropWhile_not (!isBlankLine ·) (physicalLines msg)
  rw [Option.mem_def.mp hl] at hhe
  simpa using hhe

lemma isOwnAuthResults_folded (fold : Folding) (authserv : Bytes)
    (h : isFoldedContinuation line = true) : isOwnAuthResults fold authserv line = false := by
  rcases line with _ | ⟨b, line⟩
  · cases h
  have hb : lowerByte b ≠ 97 := by
    simp only [isFoldedContinuation, decide_eq_true_eq] at h
    rcases h with rfl | rfl <;> decide
  have hn : equalFold ((b :: line).take authResultsFieldName.length) authResultsFieldName = false := by
    have hl : authResultsFieldName.length = 22 + 1 := rfl
    have hlo : authResultsFieldName.map lowerByte = 97 :: (authResultsFieldName.map lowerByte).tail :=
      rfl
    rw [equalFold, decide_eq_false_iff_not, hl, take_succ_cons, map_cons, hlo]
    intro heq
    exact hb (List.cons.inj heq).1
  simp [isOwnAuthResults, hn]

-- What survives is what the first chunk of its first line does not give away.
theorem stripAuthResults_clean_iff (fold : Folding) (msg : Bytes) {hostname : Bytes} (hhost : hostname ≠ []) :
    (∀ f ∈ headerFields (stripAuthResults fold msg hostname), claimsOurs hostname f = false) ↔
      ∀ f ∈ headerFields msg, claimsOurs hostname f = true →
        isOwnAuthResults fold (fold.lower hostname) (f.first.take authResultsChunk) = true := by
  rw [headerFields_strip fold msg hhost]
  constructor
  · intro hc f hf hcl
    by_contra hk
    have hm : f ∈ (headerFields msg).filter
        (keptField (AuthResultsFilter.ownLine fold (fold.lower hostname))) := by
      refine mem_filter.mpr ⟨hf, ?_⟩
      simp [keptField, AuthResultsFilter.ownLine, Bool.eq_false_iff.mpr hk]
    rw [hc f hm] at hcl
    cases hcl
  · intro hca f hf
    obtain ⟨hf, hk⟩ := mem_filter.mp hf
    by_contra hcl
    have ho := hca f hf (by simpa using hcl)
    have hfo : isFoldedContinuation (f.first.take authResultsChunk) = true := by
      rw [AuthResultsFilter.isFoldedContinuation_take]
      simpa [keptField, AuthResultsFilter.ownLine, ho] using hk
    rw [isOwnAuthResults_folded fold _ hfo] at ho
    cases ho

def sampleHost : Bytes := ascii "mx.example.org"

-- The field name and the authserv-id stand on different lines.
def foldedForgery : Bytes :=
  ascii "Authentication-Results:\r\n mx.example.org; dkim=pass\r\nSubject: hi\r\n\r\nhello\r\n"

-- The token ends at a comment.
def commentedForgery : Bytes :=
  ascii "Authentication-Results: mx.example.org(a); dkim=pass\r\nSubject: hi\r\n\r\nhello\r\n"

theorem folded_forgery_survives :
    (∃ f ∈ headerFields (stripAuthResults Folding.asciiOnly foldedForgery sampleHost),
      claimsOurs sampleHost f = true) ∧
    ∃ f ∈ headerFields (stripAuthResults Folding.asciiOnly commentedForgery sampleHost),
      claimsOurs sampleHost f = true := by
  rw [headerFields_strip _ _ (by decide), headerFields_strip _ _ (by decide)]
  decide +kernel

def plainForgery : Bytes :=
  ascii "Authentication-Results: MX.example.org 1;\r\n dkim=pass\r\n" ++
    ascii "Authentication-Results: b.org; spf=pass\r\n\r\nhello\r\n"

theorem stripAuthResults_clean_iff_forgery : (∃ f ∈ headerFields plainForgery, claimsOurs sampleHost f = true) ∧
    ∀ f ∈ headerFields (stripAuthResults Folding.asciiOnly plainForgery sampleHost), claimsOurs sampleHost f = false :=
  ⟨by decide +kernel, (stripAuthResults_clean_iff _ _ (by decide)).mpr (by decide +kernel)⟩

end Maildancer.Smtpd

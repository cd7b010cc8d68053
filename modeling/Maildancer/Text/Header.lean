import Maildancer.Text.Lines

namespace Maildancer.Text

open List

-- The lines of a text, each with its terminator. The last one may have none.
def physicalLines : Bytes → List Bytes
  | [] => []
  | b :: rest =>
    if b = newline then [b] :: physicalLines rest
    else match physicalLines rest with
      | [] => [[b]]
      | line :: lines => (b :: line) :: lines

structure Lined (lines : List Bytes) : Prop where
  nonempty : ∀ line ∈ lines, line ≠ []
  inner : ∀ line ∈ lines, newline ∉ line.dropLast
  ended : lines.Pairwise fun line _ => line.getLast? = some newline

lemma Lined.sublist {lines others : List Bytes} (h : Lined lines) (hs : others.Sublist lines) :
    Lined others :=
  ⟨fun line hl => h.nonempty line (hs.subset hl),
    fun line hl => h.inner line (hs.subset hl), h.ended.sublist hs⟩

lemma flatten_physicalLines (s : Bytes) : (physicalLines s).flatten = s := by
  induction s with
  | nil => rfl
  | cons b rest ih =>
    simp only [physicalLines]
    split_ifs with hb
    · rw [flatten_cons, ih, singleton_append]
    rcases hl : physicalLines rest with _ | ⟨line, lines⟩
    · rw [hl] at ih
      simp [← ih]
    · rw [hl] at ih
      rw [← ih]
      rfl

lemma lined_cons {line : Bytes} {lines : List Bytes} (hne : line ≠ []) (hi : newline ∉ line.dropLast)
    (he : lines = [] ∨ line.getLast? = some newline) (h : Lined lines) : Lined (line :: lines) := by
  refine ⟨?_, ?_, pairwise_cons.mpr ⟨fun other ho => ?_, h.ended⟩⟩
  · simpa [hne] using h.nonempty
  · simpa [hi] using h.inner
  · rcases he with rfl | he
    · cases ho
    · exact he

lemma lined_physicalLines (s : Bytes) : Lined (physicalLines s) := by
  induction s with
  | nil => exact ⟨by simp [physicalLines], by simp [physicalLines], by simp [physicalLines]⟩
  | cons b rest ih =>
    simp only [physicalLines]
    split_ifs with hb
    · exact lined_cons (by simp) (by simp) (Or.inr (by simp [hb])) ih
    rcases hl : physicalLines rest with _ | ⟨line, lines⟩
    · exact lined_cons (by simp) (by simp) (Or.inl rfl) (hl ▸ ih)
    rw [hl] at ih
    have hne := ih.nonempty line mem_cons_self
    refine lined_cons (by simp) ?_ ?_ (ih.sublist (sublist_cons_self line lines))
    · rw [dropLast_cons_of_ne_nil hne, mem_cons, not_or]
      exact ⟨Ne.symm hb, ih.inner line mem_cons_self⟩
    cases lines with
    | nil => exact Or.inl rfl
    | cons next lines =>
      have he := (pairwise_cons.mp ih.ended).1 next mem_cons_self
      exact Or.inr (by rw [List.getLast?_cons_of_ne_nil hne, he])

lemma physicalLines_ended {word : Bytes} (h : newline ∉ word) (rest : Bytes) :
    physicalLines (word ++ newline :: rest) = (word ++ [newline]) :: physicalLines rest := by
  induction word with
  | nil => simp [physicalLines]
  | cons b word ih =>
    have hb : b ≠ newline := fun he => h (by simp [he])
    have hw : newline ∉ word := fun hm => h (mem_cons_of_mem _ hm)
    simp [physicalLines, hb, ih hw]

lemma physicalLines_word {word : Bytes} (hne : word ≠ []) (h : newline ∉ word) :
    physicalLines word = [word] := by
  induction word with
  | nil => exact absurd rfl hne
  | cons b word ih =>
    have hb : b ≠ newline := fun he => h (by simp [he])
    have hw : newline ∉ word := fun hm => h (mem_cons_of_mem _ hm)
    by_cases hn : word = []
    · simp [physicalLines, hb, hn]
    · simp [physicalLines, hb, ih hn hw]

lemma physicalLines_flatten {lines : List Bytes} (h : Lined lines) : physicalLines lines.flatten = lines := by
  induction lines with
  | nil => rfl
  | cons line lines ih =>
    have ht := ih (h.sublist (sublist_cons_self line lines))
    have hne := h.nonempty line mem_cons_self
    have hi := h.inner line mem_cons_self
    have hs := dropLast_append_getLast hne
    by_cases he : line.getLast hne = newline
    · rw [he] at hs
      rw [flatten_cons, ← hs, append_assoc, singleton_append, physicalLines_ended hi, ht]
    · -- Only the last line may go without a terminator.
      have hl : lines = [] := by
        rcases lines with _ | ⟨next, lines⟩
        · rfl
        · have hn := (pairwise_cons.mp h.ended).1 next mem_cons_self
          rw [List.getLast?_eq_some_getLast hne, Option.some.injEq] at hn
          exact absurd hn he
      have hw : newline ∉ line := by
        rw [← hs, mem_append, mem_singleton, not_or]
        exact ⟨hi, Ne.symm he⟩
      rw [hl, flatten_cons, flatten_nil, append_nil, physicalLines_word hne hw]

lemma physicalLines_append {s t : Bytes} (h : s.getLast? = some newline) :
    physicalLines (s ++ t) = physicalLines s ++ physicalLines t := by
  have hs := lined_physicalLines s
  have ht := lined_physicalLines t
  have he : ∀ line ∈ physicalLines s, line.getLast? = some newline := by
    intro line hl
    obtain ⟨before, after, hsp⟩ := append_of_mem hl
    rcases after with _ | ⟨next, after⟩
    · have hf := flatten_physicalLines s
      rw [hsp, flatten_append, flatten_cons, flatten_nil, append_nil] at hf
      rw [← hf, List.getLast?_append_of_ne_nil _ (hs.nonempty line hl)] at h
      exact h
    · have hp := hs.ended
      rw [hsp] at hp
      have hr := (pairwise_append.mp hp).2.1
      exact (pairwise_cons.mp hr).1 next mem_cons_self
  have hli : Lined (physicalLines s ++ physicalLines t) := by
    refine ⟨fun line hl => ?_, fun line hl => ?_, ?_⟩
    · rcases mem_append.mp hl with hl | hl
      · exact hs.nonempty line hl
      · exact ht.nonempty line hl
    · rcases mem_append.mp hl with hl | hl
      · exact hs.inner line hl
      · exact ht.inner line hl
    · exact pairwise_append.mpr ⟨hs.ended, ht.ended, fun line hl _ _ => he line hl⟩
  have hf := physicalLines_flatten hli
  rwa [flatten_append, flatten_physicalLines, flatten_physicalLines] at hf

def isBlankLine (line : Bytes) : Bool := line = [carriageReturn, newline] ∨ line = [newline]

def isFoldedContinuation : Bytes → Bool
  | [] => false
  | b :: _ => b = space ∨ b = 9

structure HeaderField where
  first : Bytes
  folded : List Bytes
deriving DecidableEq

def HeaderField.lines (f : HeaderField) : List Bytes := f.first :: f.folded

def attach (line : Bytes) : List HeaderField → List HeaderField
  | [] => [⟨line, []⟩]
  | f :: fields =>
    if isFoldedContinuation f.first then ⟨line, f.lines⟩ :: fields else ⟨line, []⟩ :: f :: fields

def groupFields (lines : List Bytes) : List HeaderField := lines.foldr attach []

def headerLines (msg : Bytes) : List Bytes := (physicalLines msg).takeWhile (!isBlankLine ·)

def headerFields (msg : Bytes) : List HeaderField := groupFields (headerLines msg)

lemma headerLines_flatten {kept rest : List Bytes} (h : Lined (kept ++ rest))
    (hk : ∀ line ∈ kept, isBlankLine line = false) (hr : ∀ line ∈ rest.head?, isBlankLine line = true) :
    headerLines (kept.flatten ++ rest.flatten) = kept := by
  rw [headerLines, ← flatten_append, physicalLines_flatten h, takeWhile_append_of_pos]
  · cases rest with
    | nil => simp
    | cons line rest => simp [hr line rfl]
  · intro line hl
    simp [hk line hl]

def dropTerminator (line : Bytes) : Bytes :=
  if line.getLast? = some newline then dropCR line.dropLast else line

-- The text of a field as RFC 5322 has it read, on one line.
def HeaderField.unfolded (f : HeaderField) : Bytes := f.lines.flatMap dropTerminator

def foldedHead (fields : List HeaderField) : Bool := fields.head?.any (isFoldedContinuation ·.first)

lemma groupFields_cons (line : Bytes) (lines : List Bytes) :
    groupFields (line :: lines) = attach line (groupFields lines) := rfl

lemma head?_attach (line : Bytes) (fields : List HeaderField) :
    (attach line fields).head?.map HeaderField.first = some line := by
  cases fields with
  | nil => rfl
  | cons f fields =>
    simp only [attach]
    split_ifs <;> rfl

lemma foldedHead_groupFields (lines : List Bytes) :
    foldedHead (groupFields lines) = lines.head?.any isFoldedContinuation := by
  cases lines with
  | nil => rfl
  | cons line lines =>
    have hh := head?_attach line (groupFields lines)
    obtain ⟨f, hf, hfi⟩ := Option.map_eq_some_iff.mp hh
    simp [foldedHead, groupFields_cons, hf, hfi]

lemma attach_of_unfolded {fields : List HeaderField} (h : foldedHead fields = false) (line : Bytes) :
    attach line fields = ⟨line, []⟩ :: fields := by
  cases fields with
  | nil => rfl
  | cons f fields =>
    have hf : isFoldedContinuation f.first = false := by simpa [foldedHead] using h
    simp [attach, hf]

lemma groupFields_append {lines others : List Bytes} (h : others.head?.any isFoldedContinuation = false) :
    groupFields (lines ++ others) = groupFields lines ++ groupFields others := by
  rw [← foldedHead_groupFields] at h
  induction lines with
  | nil => rfl
  | cons line lines ih =>
    rw [cons_append, groupFields_cons, groupFields_cons, ih]
    cases hf : groupFields lines with
    | nil => rw [nil_append, attach_of_unfolded h]; rfl
    | cons f fields =>
      simp only [cons_append, attach]
      split_ifs <;> rfl

lemma length_attach (line : Bytes) (fields : List HeaderField) :
    (attach line fields).length + (foldedHead fields).toNat = fields.length + 1 := by
  rcases hh : foldedHead fields with _ | _
  · rw [attach_of_unfolded hh]; rfl
  cases fields with
  | nil => cases hh
  | cons f fields =>
    have hf : isFoldedContinuation f.first = true := by simpa [foldedHead] using hh
    simp [attach, hf]

lemma length_groupFields_append {lines others : List Bytes} (hne : lines ≠ [])
    (h : others.head?.any isFoldedContinuation = true) : (groupFields (lines ++ others)).length + 1 =
      (groupFields lines).length + (groupFields others).length := by
  induction lines with
  | nil => exact absurd rfl hne
  | cons line lines ih =>
    rw [cons_append, groupFields_cons, groupFields_cons]
    have hb := length_attach line (groupFields (lines ++ others))
    have hf := length_attach line (groupFields lines)
    rw [foldedHead_groupFields] at hb hf
    by_cases hn : lines = []
    · subst hn
      rw [nil_append, h, Bool.toNat_true] at hb
      have ho : (attach line (groupFields [])).length = 1 := rfl
      rw [nil_append]
      omega
    · have hl := ih hn
      rw [List.head?_append_of_ne_nil _ hn] at hb
      omega

lemma unfolded_of_mem_tail {lines : List Bytes} {f : HeaderField} (h : f ∈ (groupFields lines).tail) :
    isFoldedContinuation f.first = false := by
  induction lines with
  | nil => cases h
  | cons line lines ih =>
    rw [groupFields_cons] at h
    rcases hf : groupFields lines with _ | ⟨g, fields⟩
    · simp [hf, attach] at h
    rw [hf] at h ih
    simp only [attach] at h
    split_ifs at h with hg
    · exact ih h
    · rcases mem_cons.mp h with rfl | hm
      · simpa using hg
      · exact ih hm

-- The lines left of a block from which some fields are taken out. The flag says
-- that the field under way is one of them.
def keptLines (drop : Bytes → Bool) : Bool → List Bytes → List Bytes
  | _, [] => []
  | dropping, line :: lines =>
    if (if isFoldedContinuation line then dropping else drop line) then keptLines drop true lines
    else line :: keptLines drop false lines

lemma keptLines_sublist (drop : Bytes → Bool) (dropping : Bool) (lines : List Bytes) :
    (keptLines drop dropping lines).Sublist lines := by
  induction lines generalizing dropping with
  | nil => exact List.Sublist.refl _
  | cons line lines ih =>
    rw [keptLines]
    split_ifs
    · exact (ih true).cons line
    · exact (ih false).cons_cons line
    · exact (ih true).cons line
    · exact (ih false).cons_cons line

-- A line that continues no field is never taken out.
def keptField (drop : Bytes → Bool) (f : HeaderField) : Bool := isFoldedContinuation f.first || !drop f.first

def skipFolded : List HeaderField → List HeaderField
  | [] => []
  | f :: fields => if isFoldedContinuation f.first then fields else f :: fields

lemma skipFolded_of_unfolded {fields : List HeaderField} (h : foldedHead fields = false) :
    skipFolded fields = fields := by
  cases fields with
  | nil => rfl
  | cons f fields =>
    have hf : isFoldedContinuation f.first = false := by simpa [foldedHead] using h
    simp [skipFolded, hf]

lemma foldedHead_filter (drop : Bytes → Bool) {fields : List HeaderField}
    (h : ∀ f ∈ fields.tail, isFoldedContinuation f.first = false) :
    foldedHead (fields.filter (keptField drop)) = foldedHead fields := by
  rcases fields with _ | ⟨f, fields⟩
  · rfl
  by_cases hf : isFoldedContinuation f.first = true
  · rw [filter_cons_of_pos (by simp [keptField, hf])]
    rfl
  have ha : ∀ g ∈ f :: fields, isFoldedContinuation g.first = false := by
    intro g hg
    rcases mem_cons.mp hg with rfl | hg
    · simpa using hf
    · exact h g hg
  have hfi : foldedHead (f :: fields) = false := by simpa [foldedHead] using hf
  rw [hfi, foldedHead, Option.any_eq_false]
  intro g hg
  rw [ha g (mem_of_mem_filter (mem_of_mem_head? hg))]

lemma attach_filter (drop : Bytes → Bool) {fields : List HeaderField}
    (h : ∀ f ∈ fields.tail, isFoldedContinuation f.first = false) (line : Bytes) :
    ∃ folded, attach line fields = ⟨line, folded⟩ :: skipFolded fields ∧
      attach line (fields.filter (keptField drop)) =
        ⟨line, folded⟩ :: (skipFolded fields).filter (keptField drop) := by
  rcases fields with _ | ⟨f, fields⟩
  · exact ⟨[], rfl, rfl⟩
  by_cases hf : isFoldedContinuation f.first = true
  · have hk : keptField drop f = true := by simp [keptField, hf]
    refine ⟨f.lines, by simp [attach, skipFolded, hf], ?_⟩
    rw [filter_cons_of_pos hk]
    simp [attach, skipFolded, hf]
  · have hfi : foldedHead (f :: fields) = false := by simpa [foldedHead] using hf
    have hh := foldedHead_filter drop h
    rw [hfi] at hh
    refine ⟨[], by rw [attach_of_unfolded hfi, skipFolded_of_unfolded hfi], ?_⟩
    rw [attach_of_unfolded hh, skipFolded_of_unfolded hfi]

lemma groupFields_keptLines (drop : Bytes → Bool) (lines : List Bytes) :
    groupFields (keptLines drop false lines) = (groupFields lines).filter (keptField drop) ∧
      groupFields (keptLines drop true lines) =
        (skipFolded (groupFields lines)).filter (keptField drop) := by
  induction lines with
  | nil => exact ⟨rfl, rfl⟩
  | cons line lines ih =>
    obtain ⟨folded, ha, hk⟩ :=
      attach_filter drop (fun f hf => unfolded_of_mem_tail hf) line
    rw [groupFields_cons, ha]
    rcases hfo : isFoldedContinuation line with _ | _
    · rcases hd : drop line with _ | _
      · have hfi : keptField drop ⟨line, folded⟩ = true := by simp [keptField, hfo, hd]
        simp [keptLines, hfo, hd, groupFields_cons, ih.1, hk, hfi, skipFolded]
      · have hfi : keptField drop ⟨line, folded⟩ = false := by simp [keptField, hfo, hd]
        simp [keptLines, hfo, hd, ih.2, hfi, skipFolded]
    · have hfi : keptField drop ⟨line, folded⟩ = true := by simp [keptField, hfo]
      simp [keptLines, hfo, groupFields_cons, ih.1, ih.2, hk, hfi, skipFolded]

structure Block (s : Bytes) : Prop where
  ended : s.getLast? = some newline
  filled : ∀ line ∈ physicalLines s, isBlankLine line = false

lemma Block.append {s t : Bytes} (hs : Block s) (ht : Block t) : Block (s ++ t) := by
  have hne : t ≠ [] := fun hn => by simpa [hn] using ht.ended
  refine ⟨by rw [List.getLast?_append_of_ne_nil _ hne, ht.ended], fun line hl => ?_⟩
  rw [physicalLines_append hs.ended] at hl
  rcases mem_append.mp hl with hl | hl
  · exact hs.filled line hl
  · exact ht.filled line hl

lemma block_line {text : Bytes} (hne : text ≠ []) (h : newline ∉ text) : Block (text ++ ascii "\r\n") := by
  have hs : text ++ ascii "\r\n" = (text ++ [carriageReturn]) ++ [newline] := by
    rw [append_assoc]
    rfl
  have hw : newline ∉ text ++ [carriageReturn] := by
    rw [mem_append, not_or]
    exact ⟨h, by decide⟩
  refine ⟨by rw [hs]; simp, fun line hl => ?_⟩
  rw [hs, physicalLines_ended hw, physicalLines, mem_singleton] at hl
  rw [hl, isBlankLine, decide_eq_false_iff_not, not_or]
  refine ⟨fun heq => hne ?_, fun heq => ?_⟩
  · have hle := congrArg List.length heq
    simp only [length_append, length_cons, length_nil] at hle
    apply eq_nil_of_length_eq_zero
    omega
  · have hle := congrArg List.length heq
    simp only [length_append, length_cons, length_nil] at hle
    omega

lemma block_intercalate {parts : List Bytes} {start front tail stop : Bytes} (hne : parts ≠ [])
    (hpa : ∀ part ∈ parts, part ≠ [] ∧ newline ∉ part) (hs : newline ∉ start)
    (hf : newline ∉ front) (ht : newline ∉ tail) (hst : newline ∉ stop) :
    Block (start ++ (front ++ ascii "\r\n" ++ tail).intercalate parts ++ stop ++ ascii "\r\n") := by
  induction parts generalizing start with
  | nil => exact absurd rfl hne
  | cons part parts ih =>
    obtain ⟨hpr, hpl⟩ := hpa part mem_cons_self
    rcases parts with _ | ⟨next, parts⟩
    · apply block_line
      · simp [hpr]
      · simp [hs, hpl, hst]
    have hfi : Block ((start ++ part ++ front) ++ ascii "\r\n") := by
      apply block_line
      · simp [hpr]
      · simp [hs, hpl, hf]
    have hr := ih (by simp) (fun p hp => hpa p (mem_cons_of_mem _ hp)) ht
    have hb := hfi.append hr
    simpa only [intercalate_cons_cons, append_assoc] using hb

lemma headerLines_block {s t : Bytes} (h : Block s) : headerLines (s ++ t) = physicalLines s ++ headerLines t := by
  rw [headerLines, physicalLines_append h.ended, takeWhile_append_of_pos]
  · rfl
  · intro line hl
    simp [h.filled line hl]

lemma headerLines_of_block {s : Bytes} (h : Block s) : headerLines s = physicalLines s := by
  have hs := headerLines_block h (t := [])
  have hn : headerLines [] = [] := rfl
  rwa [append_nil, hn, append_nil] at hs

lemma physicalLines_cons (b : UInt8) (rest : Bytes) :
    ∃ word lines, physicalLines (b :: rest) = (b :: word) :: lines := by
  rw [physicalLines]
  split_ifs
  · exact ⟨[], _, rfl⟩
  · cases physicalLines rest with
    | nil => exact ⟨[], _, rfl⟩
    | cons line lines => exact ⟨line, lines, rfl⟩

lemma foldedHead_headerFields (msg : Bytes) : foldedHead (headerFields msg) = isFoldedContinuation msg := by
  rw [headerFields, foldedHead_groupFields, headerLines]
  rcases msg with _ | ⟨b, rest⟩
  · rfl
  obtain ⟨word, lines, hl⟩ := physicalLines_cons b rest
  rw [hl]
  rcases hbl : isBlankLine (b :: word) with _ | _
  · rw [takeWhile_cons_of_pos (by simp [hbl])]
    rfl
  rw [takeWhile_cons_of_neg (by simp [hbl])]
  have hb : b = carriageReturn ∨ b = newline := by
    rw [isBlankLine, decide_eq_true_eq] at hbl
    rcases hbl with hbl | hbl
    · exact Or.inl (List.cons.inj hbl).1
    · exact Or.inr (List.cons.inj hbl).1
  rcases hb with rfl | rfl <;> rfl

lemma headerFields_block {s t : Bytes} (h : Block s) : (headerFields (s ++ t)).map HeaderField.unfolded =
        (headerFields s).map HeaderField.unfolded ++ (headerFields t).map HeaderField.unfolded ↔
      isFoldedContinuation t = false := by
  rw [← foldedHead_headerFields, headerFields, headerFields, headerLines_block h, headerLines_of_block h,
    headerFields, foldedHead_groupFields]
  constructor
  · intro heq
    by_contra hf
    have hne : physicalLines s ≠ [] := by
      intro hn
      have hfl := flatten_physicalLines s
      rw [hn, flatten_nil] at hfl
      simpa [← hfl] using h.ended
    have hl := length_groupFields_append hne (by simpa using hf)
    have hm := congrArg List.length heq
    simp only [length_append, length_map] at hm
    omega
  · intro hp
    rw [groupFields_append hp, map_append]

end Maildancer.Text

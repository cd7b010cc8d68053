import Maildancer.Smtpd.Stamping

namespace Maildancer.Smtpd

open List Text

def fieldLine (field : Bytes × Bytes) : Bytes := field.1 ++ ascii ": " ++ field.2 ++ ascii "\r\n"

-- A field read back: the name up to the colon, and the text behind the space.
def parseField (f : HeaderField) : Option (Bytes × Bytes) :=
  (cut 58 f.unfolded).map fun (name, value) => (name, trimPrefix [space] value)

-- A field name as RFC 5322 has it: printable bytes, none of them a colon.
structure LegalName (name : Bytes) : Prop where
  nonempty : name ≠ []
  printable : ∀ b ∈ name, ¬ (b < 33 ∨ 126 < b ∨ b = 58)

variable {name : Bytes}

lemma sanitizeFieldName_eq_some {cleanName : Bytes} :
    sanitizeFieldName name = some cleanName ↔ LegalName name ∧ name = cleanName := by
  rw [sanitizeFieldName]
  split_ifs with hn hbad
  · exact ⟨fun h => (by cases h), fun h => absurd hn h.1.nonempty⟩
  · refine ⟨fun h => (by cases h), fun h => ?_⟩
    obtain ⟨b, hb, ho⟩ := any_eq_true.mp hbad
    exact absurd (of_decide_eq_true ho) (h.1.printable b hb)
  · rw [Option.some.injEq]
    refine ⟨fun h => ⟨⟨hn, fun b hb ho => ?_⟩, h⟩, fun h => h.2⟩
    exact hbad (any_eq_true.mpr ⟨b, hb, decide_eq_true ho⟩)

instance (name : Bytes) : Decidable (LegalName name) :=
  decidable_of_iff (sanitizeFieldName name = some name) (sanitizeFieldName_eq_some.trans (and_iff_left rfl))

section Fields

variable (headers : HeaderMap)

def fieldOf (name : Bytes) : Option (Bytes × Bytes) :=
  (headers.entries.find? (·.1 = name)).bind fun entry =>
    (sanitizeFieldName name).map fun cleanName => (cleanName, sanitizeFieldValue entry.2)

def spamNames : List Bytes :=
  leadingSpamHeaders ++ sortStrings ((headers.entries.map Prod.fst).filter (· ∉ leadingSpamHeaders))

def spamFields : List (Bytes × Bytes) := (spamNames headers).filterMap (fieldOf headers)

lemma buildSpamHeaders_eq : buildSpamHeaders headers = ((spamFields headers).map fieldLine).flatten := by
  have hr (name : Bytes) : renderSpamHeader headers name = ((fieldOf headers name).map fieldLine).getD [] := by
    rw [renderSpamHeader, fieldOf]
    cases headers.entries.find? (·.1 = name) <;> cases sanitizeFieldName name <;> rfl
  rw [buildSpamHeaders, spamFields, ← spamNames]
  induction spamNames headers with
  | nil => rfl
  | cons name names ih =>
    rw [flatMap_cons, ih, hr]
    rcases hf : fieldOf headers name with _ | field
    · rw [filterMap_cons_none hf]; rfl
    · rw [filterMap_cons_some hf]; rfl

variable {headers}

lemma find_entry {entry : Bytes × Bytes} (h : entry ∈ headers.entries) :
    headers.entries.find? (·.1 = entry.1) = some entry := by
  cases hf : headers.entries.find? (·.1 = entry.1) with
  | none => exact absurd (decide_eq_true rfl) (List.find?_eq_none.mp hf entry h)
  | some found =>
    have hn : found.1 = entry.1 := by simpa using List.find?_some hf
    rw [inj_on_of_nodup_map headers.distinct (mem_of_find?_eq_some hf) h hn]

variable {field : Bytes × Bytes}

lemma fieldOf_eq_some : fieldOf headers name = some field ↔
    LegalName name ∧ ∃ value, (name, value) ∈ headers.entries ∧ field = (name, sanitizeFieldValue value) := by
  simp only [fieldOf, Option.bind_eq_some_iff, Option.map_eq_some_iff, sanitizeFieldName_eq_some]
  constructor
  · rintro ⟨entry, he, _, ⟨hl, rfl⟩, rfl⟩
    have hn : entry.1 = name := by simpa using List.find?_some he
    exact ⟨hl, entry.2, hn ▸ mem_of_find?_eq_some he, rfl⟩
  · rintro ⟨hl, value, hm, rfl⟩
    exact ⟨_, find_entry hm, _, ⟨hl, rfl⟩, rfl⟩

lemma nodup_spamNames (headers : HeaderMap) : (spamNames headers).Nodup := by
  rw [spamNames, nodup_append]
  refine ⟨by decide, ((sortStrings_perm _).nodup_iff).mpr (headers.distinct.filter _), fun name hl other ho => ?_⟩
  rw [mem_sortStrings, mem_filter, decide_eq_true_eq] at ho
  exact fun heq => ho.2 (heq ▸ hl)

lemma mem_spamFields : field ∈ spamFields headers ↔
    field ∈ (headers.entries.filter (LegalName ·.1)).map fun entry => (entry.1, sanitizeFieldValue entry.2) := by
  simp only [spamFields, mem_filterMap, fieldOf_eq_some, mem_map, mem_filter, decide_eq_true_eq]
  constructor
  · rintro ⟨name, _, hl, value, hm, rfl⟩
    exact ⟨(name, value), ⟨hm, hl⟩, rfl⟩
  rintro ⟨entry, ⟨hm, hl⟩, rfl⟩
  refine ⟨entry.1, ?_, hl, entry.2, hm, rfl⟩
  rw [spamNames, mem_append, mem_sortStrings, mem_filter, decide_eq_true_eq]
  exact (em (entry.1 ∈ leadingSpamHeaders)).imp_right fun h => ⟨mem_map_of_mem hm, h⟩

lemma spamFields_perm (headers : HeaderMap) : (spamFields headers).Perm
    ((headers.entries.filter (LegalName ·.1)).map fun entry => (entry.1, sanitizeFieldValue entry.2)) := by
  refine (perm_ext_iff_of_nodup ?_ ?_).mpr fun field => mem_spamFields
  · refine (nodup_spamNames headers).filterMap fun name other field h h' => ?_
    obtain ⟨-, _, -, rfl⟩ := fieldOf_eq_some.mp h
    obtain ⟨-, _, -, heq⟩ := fieldOf_eq_some.mp h'
    exact congrArg Prod.fst heq
  · apply List.Nodup.of_map Prod.fst
    rw [map_map]
    exact headers.distinct.sublist (filter_sublist.map _)

lemma unfolded_fieldLine (h : LegalName field.1) :
    isFoldedContinuation (fieldLine field) = false := by
  obtain ⟨b, word, hb⟩ := exists_cons_of_ne_nil h.nonempty
  have hl := h.printable b (hb ▸ mem_cons_self)
  rw [fieldLine, hb]
  refine decide_eq_false ?_
  rintro (rfl | rfl) <;> exact hl (by decide)

lemma fieldLine_eq (field : Bytes × Bytes) :
    fieldLine field = (field.1 ++ ascii ": " ++ field.2 ++ [carriageReturn]) ++ [newline] := by
  rw [fieldLine, append_assoc _ [carriageReturn]]
  rfl

-- No part of a line but its end can end it, and none can be read as folded.
lemma headerFields_lines {fields : List (Bytes × Bytes)}
    (h : ∀ field ∈ fields, LegalName field.1 ∧ newline ∉ field.2) :
    headerFields (fields.map fieldLine).flatten = fields.map fun field => ⟨fieldLine field, []⟩ := by
  induction fields with
  | nil => rfl
  | cons field fields ih =>
    obtain ⟨⟨hl, hv⟩, hr⟩ := forall_mem_cons.mp h
    have ht : newline ∉ field.1 ++ ascii ": " ++ field.2 := by
      have hn : newline ∉ field.1 := fun hm => hl.printable newline hm (by decide)
      simp +decide [hn, hv]
    have hli : physicalLines (fieldLine field) = [fieldLine field] := by
      rw [fieldLine_eq, physicalLines_ended (not_mem_append ht (by decide))]
      rfl
    have hb : Block (fieldLine field) := block_line (by simp [hl.nonempty]) ht
    have hf : foldedHead (fields.map fun field => ⟨fieldLine field, []⟩) = false := by
      cases fields with
      | nil => rfl
      | cons next fields => exact unfolded_fieldLine (hr next mem_cons_self).1
    rw [headerFields, map_cons, flatten_cons, headerLines_block hb, hli,
      singleton_append, groupFields_cons, ← headerFields, ih hr,
      attach_of_unfolded hf, map_cons]

lemma parseField_line (h : LegalName field.1) :
    parseField ⟨fieldLine field, []⟩ = some field := by
  have hl : HeaderField.unfolded ⟨fieldLine field, []⟩ = field.1 ++ 58 :: (space :: field.2) := by
    rw [HeaderField.unfolded, HeaderField.lines, flatMap_singleton, dropTerminator, fieldLine_eq,
      List.getLast?_concat, if_pos rfl, dropLast_concat, dropCR, List.getLast?_concat, if_pos rfl,
      dropLast_concat, append_assoc]
    rfl
  have hc : cut 58 (field.1 ++ 58 :: (space :: field.2)) = some (field.1, space :: field.2) :=
    cut_eq_some.mpr ⟨rfl, fun hm => h.printable 58 hm (by decide)⟩
  rw [parseField, hl, hc]
  rfl

lemma buildSpamHeaders_perm {other : HeaderMap} (h : other.entries.Perm headers.entries) :
    buildSpamHeaders other = buildSpamHeaders headers := by
  have hf : fieldOf other = fieldOf headers := funext fun name => Option.ext fun field => by
    rw [fieldOf_eq_some, fieldOf_eq_some]
    simp [h.mem_iff]
  have hn : spamNames other = spamNames headers := by
    rw [spamNames, spamNames]
    congr 1
    have hp := (h.map Prod.fst).filter fun name => decide (name ∉ leadingSpamHeaders)
    exact ((sortStrings_perm _).trans (hp.trans (sortStrings_perm _).symm)).eq_of_pairwise' (sortStrings_pairwise _)
      (sortStrings_pairwise _)
  rw [buildSpamHeaders_eq, buildSpamHeaders_eq, spamFields, spamFields, hf, hn]

end Fields

theorem spam_headers_round_trip (headers : HeaderMap) :
    (∃ fields : List (Bytes × Bytes),
      buildSpamHeaders headers = (fields.map fieldLine).flatten ∧
      headerFields (buildSpamHeaders headers) = fields.map (fun field => ⟨fieldLine field, []⟩) ∧
      (headerFields (buildSpamHeaders headers)).map parseField = fields.map some ∧
      fields.Perm ((headers.entries.filter (LegalName ·.1)).map fun entry => (entry.1, sanitizeFieldValue entry.2))) ∧
    ∀ other : HeaderMap, other.entries.Perm headers.entries → buildSpamHeaders other = buildSpamHeaders headers := by
  have hf : ∀ field ∈ spamFields headers, LegalName field.1 ∧ newline ∉ field.2 := fun field hfi => by
    obtain ⟨name, _, hn⟩ := mem_filterMap.mp hfi
    obtain ⟨hl, value, _, rfl⟩ := fieldOf_eq_some.mp hn
    exact ⟨hl, newline_not_mem_sanitizeFieldValue value⟩
  have hr := headerFields_lines hf
  rw [← buildSpamHeaders_eq] at hr
  refine ⟨⟨spamFields headers, buildSpamHeaders_eq headers, hr, ?_, spamFields_perm headers⟩,
    fun other => buildSpamHeaders_perm⟩
  rw [hr, map_map]
  exact map_congr_left fun field hfi => parseField_line (hf field hfi).1

end Maildancer.Smtpd

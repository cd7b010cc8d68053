import Maildancer.UidList.Reconcile

namespace Maildancer.UidList

open Function List Text

-- A key that a line of the file can hold and the scanner gives back.
structure ValidKey (key : Bytes) : Prop where
  nonempty : key ≠ []
  short : key.length < 60000
  noNewline : newline ∉ key
  noFinalReturn : key.getLast? ≠ some carriageReturn

-- Numbers that parse again and keys that stand on a line of their own.
structure Storable (u : UidList) : Prop where
  version_ge : -2 ^ 63 ≤ u.version
  version_lt : u.version < 2 ^ 63
  validity_lt : u.uidValidity < 2 ^ 32
  next_lt : u.uidNext < 2 ^ 32
  uid_lt : ∀ e ∈ u.entries, e.uid < 2 ^ 32
  validKey : ∀ e ∈ u.entries, ValidKey e.key

lemma graphic_of_isDigit {b : UInt8} (h : isDigit b = true) : Graphic b := by
  simp only [isDigit, decide_eq_true_eq, UInt8.le_iff_toNat_le] at h
  obtain ⟨hlo, hhi⟩ := h
  constructor <;> rw [UInt8.le_iff_toNat_le]
  · exact le_trans (by decide) hlo
  · exact le_trans hhi (by decide)

lemma decimal_graphic (n : Nat) : ∀ b ∈ decimal n, Graphic b :=
  fun b hb => graphic_of_isDigit (decimal_isDigit n b hb)

lemma decimalInt_graphic (i : Int) : ∀ b ∈ decimalInt i, Graphic b := by
  cases i with
  | ofNat n => exact decimal_graphic n
  | negSucc n =>
    intro b hb
    rcases mem_cons.mp hb with rfl | hb
    · exact ⟨by decide, by decide⟩
    · exact decimal_graphic (n + 1) b hb

lemma decimalInt_ne_nil (i : Int) : decimalInt i ≠ [] := by
  cases i with
  | ofNat n => exact decimal_ne_nil n
  | negSucc n => exact cons_ne_nil _ _

lemma newline_not_mem {s : Bytes} (h : ∀ b ∈ s, Graphic b) : newline ∉ s :=
  fun hm => absurd (h newline hm) (by decide)

lemma getLast?_ne_return {s : Bytes} (h : ∀ b ∈ s, Graphic b) : s.getLast? ≠ some carriageReturn :=
  fun hl => absurd (h carriageReturn (mem_of_getLast? hl)) (by decide)

section Header

variable (u : UidList)

lemma headerLine_eq : u.headerLine = decimalInt u.version ++ space :: ((86 :: decimal u.uidValidity) ++
      space :: (78 :: decimal u.uidNext)) := by
  have hv : ascii " V" = [space, 86] := by decide
  have hn : ascii " N" = [space, 78] := by decide
  simp [headerLine, hv, hn]

lemma tagged_graphic (tag : UInt8) (ht : Graphic tag) (n : Nat) : ∀ b ∈ tag :: decimal n, Graphic b := by
  intro b hb
  rcases mem_cons.mp hb with rfl | hb
  · exact ht
  · exact decimal_graphic n b hb

lemma fields_headerLine : fields u.headerLine =
      [decimalInt u.version, 86 :: decimal u.uidValidity, 78 :: decimal u.uidNext] := by
  rw [headerLine_eq, fields_cons _ _ (decimalInt_ne_nil _) (decimalInt_graphic _),
    fields_cons _ _ (cons_ne_nil _ _) (tagged_graphic 86 (by decide) _),
    fields_last _ (cons_ne_nil _ _) (tagged_graphic 78 (by decide) _)]

lemma parseTagged_decimal (tag : UInt8) (n : Nat) (h : n < 2 ^ 32) (badField badValue : ReadError) :
    parseTagged [tag] (tag :: decimal n) badField badValue = .ok n := by
  simp [parseTagged, hasPrefix, parseUint_decimal 32 n h]

variable {u}

-- Fields are parted by blanks, and none of them has one in it.
lemma parseHeader_headerLine (h : u.Storable) : parseHeader u.headerLine =
      .ok { u with entries := [], keyToUid := fun _ => none, uidToKey := fun _ => none } := by
  have hv : ascii "V" = [86] := by decide
  have hn : ascii "N" = [78] := by decide
  simp only [parseHeader, fields_headerLine, atoi_decimalInt _ h.version_ge h.version_lt, hv, hn,
    parseTagged_decimal _ _ h.validity_lt, parseTagged_decimal _ _ h.next_lt]
  rfl

lemma lineSafe_headerLine (h : u.Storable) : LineSafe u.headerLine := by
  have hv := decimalInt_length_le _ h.version_ge h.version_lt
  have hva : (decimal u.uidValidity).length ≤ 10 :=
    decimal_length_le _ 10 (by omega) (by have := h.validity_lt; omega)
  have hn : (decimal u.uidNext).length ≤ 10 :=
    decimal_length_le _ 10 (by omega) (by have := h.next_lt; omega)
  unfold headerLine
  refine lineSafe_append _ _ ?_ (decimal_ne_nil _) (newline_not_mem (decimal_graphic _))
    (getLast?_ne_return (decimal_graphic _)) ?_
  · have hnu := newline_not_mem (decimalInt_graphic u.version)
    have hvl := newline_not_mem (decimal_graphic u.uidValidity)
    simp only [mem_append, hnu, hvl, false_or, not_or, or_false]
    exact ⟨by decide, by decide⟩
  · have hl : (ascii " V").length = 2 ∧ (ascii " N").length = 2 := by decide
    simp only [length_append, hl, maxScanTokenSize]
    omega

end Header

section Entries

lemma cut_decimal (n : Nat) (rest : Bytes) : cut space (decimal n ++ space :: rest) = some (decimal n, rest) := by
  have hd := decimal_graphic n
  generalize decimal n = digits at hd
  induction digits with
  | nil => simp [cut]
  | cons b digits ih =>
    have hb : b ≠ space := by
      rintro rfl
      exact absurd (hd space mem_cons_self) (by decide)
    have ih := ih fun c hc => hd c (mem_cons_of_mem _ hc)
    simp [cut, hb, ih]

lemma parseEntry_entryLine (e : UidEntry) (hu : e.uid < 2 ^ 32) (hk : e.key ≠ []) :
    parseEntry (entryLine e) = .ok e := by
  simp [parseEntry, entryLine, cut_decimal, parseUint_decimal 32 e.uid hu, hk]

lemma lineSafe_entryLine (e : UidEntry) (hu : e.uid < 2 ^ 32) (hk : ValidKey e.key) :
    LineSafe (entryLine e) := by
  have hl : (decimal e.uid).length ≤ 10 := decimal_length_le _ 10 (by omega) (by omega)
  have heq : entryLine e = (decimal e.uid ++ [space]) ++ e.key := by simp [entryLine]
  rw [heq]
  refine lineSafe_append _ _ ?_ hk.nonempty hk.noNewline hk.noFinalReturn ?_
  · have hd := newline_not_mem (decimal_graphic e.uid)
    simp only [mem_append, hd, false_or]
    decide
  · have hs := hk.short
    simp only [length_append, length_singleton, maxScanTokenSize]
    omega

lemma readEntries_entryLines (entries : List UidEntry) (u : UidList)
    (h : ∀ e ∈ entries, e.uid < 2 ^ 32 ∧ e.key ≠ []) :
    readEntries u (entries.map entryLine) = .ok (entries.foldl addEntry u) := by
  induction entries generalizing u with
  | nil => rfl
  | cons e entries ih =>
    obtain ⟨hu, hk⟩ := h e mem_cons_self
    have hp := parseEntry_entryLine e hu hk
    have hne : entryLine e ≠ [] := by simp [entryLine]
    obtain ⟨b, rest, hl⟩ := exists_cons_of_ne_nil hne
    rw [hl] at hp
    rw [map_cons, hl, readEntries, hp]
    · exact ih _ fun f hf => h f (mem_cons_of_mem _ hf)
    · exact cons_ne_nil b rest

lemma foldl_addEntry_fields (entries : List UidEntry) (u : UidList) :
    (entries.foldl addEntry u).version = u.version ∧
      (entries.foldl addEntry u).uidValidity = u.uidValidity ∧
      (entries.foldl addEntry u).uidNext = u.uidNext ∧
      (entries.foldl addEntry u).entries = u.entries ++ entries := by
  induction entries generalizing u with
  | nil => simp
  | cons e entries ih =>
    obtain ⟨hv, hva, hn, he⟩ := ih (u.addEntry e)
    refine ⟨hv, hva, hn, ?_⟩
    rw [foldl_cons, he]
    simp [addEntry]

lemma foldl_update_eq_some {ε κ ν : Type*} [DecidableEq κ] (keyOf : ε → κ) (valueOf : ε → ν)
    (records : List ε) (m : κ → Option ν) (hn : (records.map keyOf).Nodup) (key : κ) (value : ν) :
    records.foldl (fun m e => update m (keyOf e) (some (valueOf e))) m key = some value ↔
      (∃ e ∈ records, keyOf e = key ∧ valueOf e = value) ∨
        key ∉ records.map keyOf ∧ m key = some value := by
  induction records generalizing m with
  | nil => simp
  | cons e records ih =>
    obtain ⟨hh, ht⟩ := nodup_cons.mp hn
    rw [foldl_cons, ih _ ht, map_cons, mem_cons]
    rcases eq_or_ne key (keyOf e) with rfl | hne
    · have ha : ¬ ∃ f ∈ records, keyOf f = keyOf e ∧ valueOf f = value :=
        fun ⟨f, hf, hk, _⟩ => hh (mem_map.mpr ⟨f, hf, hk⟩)
      simp only [ha, hh, update_self, Option.some.injEq, mem_cons,
        exists_eq_or_imp, true_and, not_true, not_false_eq_true, false_and, or_false,
        false_or]
    · simp only [update_of_ne hne, mem_cons, exists_eq_or_imp, hne, hne.symm, false_and, false_or]

lemma foldl_addEntry_maps (entries : List UidEntry) (u : UidList) : (entries.foldl addEntry u).keyToUid =
        entries.foldl (fun (m : Bytes → Option Nat) e => update m e.key (some e.uid))
          u.keyToUid ∧
      (entries.foldl addEntry u).uidToKey =
        entries.foldl (fun (m : Nat → Option Bytes) e => update m e.uid (some e.key))
          u.uidToKey := by
  induction entries generalizing u with
  | nil => exact ⟨rfl, rfl⟩
  | cons e entries ih => exact ih (u.addEntry e)

end Entries

lemma Consistent.uids_nodup {u : UidList} (h : u.Consistent) : (u.entries.map UidEntry.uid).Nodup :=
  pairwise_map.mpr (h.increasing.imp fun hlt => hlt.ne)

-- The maps are not in the file; they come out of the entries again.
lemma Consistent.rebuild {u : UidList} (h : u.Consistent) : u.entries.foldl addEntry
      { u with entries := [], keyToUid := fun _ => none, uidToKey := fun _ => none } = u := by
  obtain ⟨hv, hva, hn, hen⟩ := foldl_addEntry_fields u.entries
    { u with entries := [], keyToUid := fun _ => none, uidToKey := fun _ => none }
  obtain ⟨hk, hu⟩ := foldl_addEntry_maps u.entries
    { u with entries := [], keyToUid := fun _ => none, uidToKey := fun _ => none }
  ext1
  · exact hv
  · exact hva
  · exact hn
  · simpa using hen
  · funext key
    refine Option.ext fun uid => ?_
    rw [hk, foldl_update_eq_some UidEntry.key UidEntry.uid _ _ h.keys_nodup, h.keyToUid_iff]
    simp only [reduceCtorEq, and_false, or_false]
    constructor
    · rintro ⟨e, he, rfl, rfl⟩
      exact he
    · exact fun he => ⟨_, he, rfl, rfl⟩
  · funext uid
    refine Option.ext fun key => ?_
    rw [hu, foldl_update_eq_some UidEntry.uid UidEntry.key _ _ h.uids_nodup, h.uidToKey_iff]
    simp only [reduceCtorEq, and_false, or_false]
    constructor
    · rintro ⟨e, he, rfl, rfl⟩
      exact he
    · exact fun he => ⟨_, he, rfl, rfl⟩

lemma readUidList_write {u : UidList} (h : u.Consistent) (hs : u.Storable) :
    readUidList (some u.write) = .ok (some u) := by
  have hsa : ∀ line ∈ u.headerLine :: u.entries.map entryLine, LineSafe line := by
    intro line hl
    rcases mem_cons.mp hl with rfl | hl
    · exact lineSafe_headerLine hs
    · obtain ⟨e, he, rfl⟩ := mem_map.mp hl
      exact lineSafe_entryLine e (hs.uid_lt e he) (hs.validKey e he)
  have hen := readEntries_entryLines u.entries
    { u with entries := [], keyToUid := fun _ => none, uidToKey := fun _ => none }
    fun e he => ⟨hs.uid_lt e he, (hs.validKey e he).nonempty⟩
  rw [h.rebuild] at hen
  simp only [readUidList, write, scanLines_unlines _ hsa, parseHeader_headerLine hs]
  change (readEntries _ _ >>= _) = _
  rw [hen]
  rfl

end Maildancer.UidList

import Maildancer.Imap.Sizes

namespace Maildancer.Imap

open Text

def dayLength : Int := 24 * 60 * 60 * 1000000000

-- What a clock shows and the offset of its zone, in nanoseconds.
structure Zoned where
  clock : Int
  offset : Int

namespace Zoned

variable (z : Zoned)

def instant : Time := ⟨z.clock - z.offset⟩

-- The calendar date as it is written.
def date : Int := z.clock / dayLength

def utcDate : Int := z.instant.nanoseconds / dayLength

end Zoned

def HasField (f : CaseMap) (fields : List (Bytes × Bytes)) (key s : Bytes) : Prop :=
  ∃ field ∈ fields, equalFold field.1 key = true ∧ contains (f.lower s) (f.lower field.2) = true

-- Some field of the name decides as the first one does. Without a field of the
-- name, the empty text must not be asked for.
def FirstDecides (f : CaseMap) (fields : List (Bytes × Bytes)) (key s : Bytes) : Prop :=
  (HasField f fields key s ∨ f.lower s = []) → (∃ field ∈ fields, equalFold field.1 key = true) ∧
    contains (f.lower s) (f.lower (headerGet fields key)) = true

-- SINCE and BEFORE for a date, for every criterion whose zone does not change its
-- own date, as for the dates that go-imap reads.
def ComparesDates (z : Zoned) (within : Time → Time → Bool) : Prop :=
  ∀ c : Zoned, c.instant ≠ .zero → c.utcDate = c.date →
    (within c.instant .zero = true ↔ c.date ≤ z.date) ∧ (within .zero c.instant = true ↔ z.date < c.date)

lemma day_lt_iff (t u : Time) :
    t.day.before u.day = true ↔ t.nanoseconds / dayLength < u.nanoseconds / dayLength := by
  rw [Time.before, decide_eq_true_eq, Time.day, Time.day]
  simp only [dayLength] at *
  omega

lemma comparesDates_iff {z : Zoned} (h : z.instant ≠ .zero) :
    ComparesDates z (fun since before => withinDays since before z.instant) ↔ z.utcDate = z.date := by
  have hco (c : Zoned) (hc : c.instant ≠ .zero) :
      (withinDays c.instant .zero z.instant = true ↔ c.utcDate ≤ z.utcDate) ∧
        (withinDays .zero c.instant z.instant = true ↔ z.utcDate < c.utcDate) := by
    have hz : z.instant.isZero = false := decide_eq_false h
    have hc : c.instant.isZero = false := decide_eq_false hc
    have hlt := day_lt_iff z.instant c.instant
    have hge : z.instant.day.before c.instant.day = false ↔ c.utcDate ≤ z.utcDate := by
      rw [← Bool.not_eq_true, hlt, not_lt, Zoned.utcDate, Zoned.utcDate]
    have hze : Time.zero.isZero = true := rfl
    simp [withinDays, hz, hc, hze, hlt, hge, Zoned.utcDate]
  constructor
  · intro hd
    -- The later of the two dates, in UTC, tells them apart.
    have hi : Zoned.instant ⟨max z.utcDate z.date * dayLength + 1, 0⟩ ≠ .zero := by
      simp only [Zoned.instant, Time.zero, dayLength, ne_eq, Time.mk.injEq]
      omega
    have hda : Zoned.date ⟨max z.utcDate z.date * dayLength + 1, 0⟩ = max z.utcDate z.date := by
      simp only [Zoned.date, dayLength]
      omega
    have hu : Zoned.utcDate ⟨max z.utcDate z.date * dayLength + 1, 0⟩ = max z.utcDate z.date := by
      simp only [Zoned.utcDate, Zoned.instant, dayLength]
      omega
    have hl := (hd _ hi (hu.trans hda.symm)).1
    rw [(hco _ hi).1, hu, hda] at hl
    omega
  · intro heq c hc hp
    rw [(hco c hc).1, (hco c hc).2, heq, hp]
    exact ⟨Iff.rfl, Iff.rfl⟩

-- A date that is not known is not compared.
lemma not_comparesDates_zero (z : Zoned) : ¬ ComparesDates z fun since before => withinDays since before .zero := by
  intro hd
  have hi : Zoned.instant ⟨z.date * dayLength + 1, 0⟩ ≠ .zero := by
    simp only [Zoned.instant, Time.zero, dayLength, ne_eq, Time.mk.injEq]
    omega
  have hda : Zoned.date ⟨z.date * dayLength + 1, 0⟩ = z.date := by
    simp only [Zoned.date, dayLength]
    omega
  have hu : Zoned.utcDate ⟨z.date * dayLength + 1, 0⟩ = z.date := by
    simp only [Zoned.utcDate, Zoned.instant, dayLength]
    omega
  have hw := (hd _ hi (hu.trans hda.symm)).1.mpr hda.le
  simp [withinDays, Time.isZero, hi] at hw

lemma header_iff (f : CaseMap) (fields : List (Bytes × Bytes)) (key s : Bytes) :
    (contains (f.lower s) (f.lower (headerGet fields key)) = true ↔ HasField f fields key s) ↔
      FirstDecides f fields key s := by
  unfold FirstDecides
  rcases hf : fields.find? fun field => equalFold field.1 key with _ | first
  · have hn := List.find?_eq_none.mp hf
    have hfi : ¬ HasField f fields key s := fun ⟨field, hfi, hna, _⟩ => hn field hfi hna
    have he : f.lower [] = [] := f.lower_ascii [] (by simp)
    rw [headerGet, hf, Option.map_none, Option.getD_none, he, contains_iff, List.infix_nil]
    constructor
    · rintro h (hh | hnil)
      · exact absurd hh hfi
      · exact absurd (h.mp hnil) hfi
    · refine fun h => ⟨fun hnil => ?_, fun hh => absurd hh hfi⟩
      obtain ⟨⟨field, hfi, hna⟩, _⟩ := h (.inr hnil)
      exact absurd hna (hn field hfi)
  · have hm := List.mem_of_find?_eq_some hf
    have hna := List.find?_some hf
    rw [headerGet, hf, Option.map_some, Option.getD_some]
    constructor
    · rintro h (hh | hnil)
      · exact ⟨⟨first, hm, hna⟩, h.mpr hh⟩
      · exact ⟨⟨first, hm, hna⟩, by rw [hnil, contains_iff]; exact List.nil_infix⟩
    · exact fun h => ⟨fun hc => ⟨first, hm, hna, hc⟩, fun hh => (h (.inl hh)).2⟩

section Keys

variable {Envelope Structure Section : Type} (lib : Library Envelope Structure Section) (f : CaseMap)

def keys (since before sentSince sentBefore : Time) (header : List (Bytes × Bytes)) : Criteria :=
  .node ⟨[], [], [], [], 0, 0, since, before, sentSince, sentBefore, header, [], []⟩ [] []

-- The index of a scan that has read the message.
def scanOf (data : Bytes) (uid : Nat) : ContentIndex :=
  ⟨[matchMessageContent f data uid ⟨[uid], [], [], true⟩], [], []⟩

lemma matches_keys (since before sentSince sentBefore : Time) (header : List (Bytes × Bytes)) (data : Bytes)
    (info : DatedInfo) (seqNum : Nat) :
    (keys since before sentSince sentBefore header).matchesCriteria lib f (some (scanOf f data info.uid)) info seqNum =
      (withinDays since before info.internalDate &&
        (withinDays sentSince sentBefore (sentDate lib (splitMessage data).1) &&
          header.all (headerMatches lib f (splitMessage data).1))) := by
  by_cases hn : (!sentSince.isZero || !sentBefore.isZero || !header.isEmpty) = true
  · simp [keys, Criteria.matchesCriteria, matchesNone, matchesEach, Conditions.holds, Conditions.contentMatches, scanOf,
      ContentIndex.byUid, matchMessageContent, Conditions.usesSentDate, hn]
  simp only [Bool.or_eq_true, Bool.not_eq_true', Bool.not_eq_false, not_or, List.isEmpty_iff] at hn
  obtain ⟨⟨hs, hb⟩, rfl⟩ := hn
  simp [keys, Criteria.matchesCriteria, matchesNone, matchesEach, Conditions.holds, Conditions.contentMatches,
    Conditions.usesSentDate, hs, hb, withinDays]

-- ReadHeader and Get answer for the fields, and ParseDate for the date in them, or not at all.
structure Answers (block : Bytes) (fields : List (Bytes × Bytes)) (sent : Zoned) : Prop where
  header : ∀ get ∈ lib.readHeader block, get = headerGet fields
  date : ∀ t ∈ lib.parseDate (headerGet fields (ascii "Date")), t = sent.instant

def Dated (block : Bytes) (fields : List (Bytes × Bytes)) : Prop :=
  (lib.readHeader block).isSome = true ∧ headerGet fields (ascii "Date") ≠ [] ∧
    (lib.parseDate (headerGet fields (ascii "Date"))).isSome = true

variable {lib} in
lemma Answers.sentDate {block : Bytes} {fields : List (Bytes × Bytes)} {sent : Zoned}
    (h : Answers lib block fields sent) :
    Dated lib block fields ∧ Imap.sentDate lib block = sent.instant ∨
      ¬ Dated lib block fields ∧ Imap.sentDate lib block = .zero := by
  unfold Dated Imap.sentDate
  rcases hr : lib.readHeader block with _ | get
  · simp
  obtain rfl := h.header get hr
  dsimp only
  by_cases he : headerGet fields (ascii "Date") = []
  · simp [he]
  rcases hp : lib.parseDate (headerGet fields (ascii "Date")) with _ | t
  · simp [he]
  · obtain rfl := h.date t hp
    simp [he]

end Keys

def newYearText : Bytes := ascii "Fri, 02 Jan 2026 00:30:00 +0100"

-- The days from the first of January of the year 1 to the second of January 2026.
def newYearDay : Int := 739617

-- Half past midnight in a zone one hour east.
def pastMidnight : Zoned := ⟨newYearDay * dayLength + 30 * 60 * 1000000000, 60 * 60 * 1000000000⟩

def newYearLibrary : Library Unit Unit Unit :=
  goLibrary fun text => if text = newYearText then some pastMidnight.instant else none

def twoReceived : Bytes :=
  ascii "Received: b\r\nReceived: a\r\nDate: Fri, 02 Jan 2026 00:30:00 +0100\r\n\r\nhello\r\n"

def noticed : DatedInfo := ⟨⟨1, [], 74, []⟩, pastMidnight.instant⟩

def finds (criteria : Criteria) : Bool :=
  criteria.matchesCriteria newYearLibrary .asciiOnly (some (scanOf .asciiOnly twoReceived 1)) noticed 1

def twoReceivedFields : List (Bytes × Bytes) :=
  [(ascii "Received", ascii "b"), (ascii "Received", ascii "a"), (ascii "Date", newYearText)]

end Maildancer.Imap

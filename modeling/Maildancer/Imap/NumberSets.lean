import Maildancer.Imap.Coherence
import Maildancer.Imap.Sizes

namespace Maildancer.Imap

open Option Text Maildir MailSession

-- A range of a set as the client writes it, "*" as none.
structure NumRange where
  first : Option Nat
  last : Option Nat
  firstNonzero : first ≠ some 0
  lastNonzero : last ≠ some 0

namespace NumRange

variable (r : NumRange)

def Has (largest n : Nat) : Prop :=
  min (r.first.getD largest) (r.last.getD largest) ≤ n ∧ n ≤ max (r.first.getD largest) (r.last.getD largest)

def dynamic : Bool := r.first.isNone || r.last.isNone

-- Contains of go-imap, which keeps the ends of a range in order. "n:*" has all
-- numbers from n on; "*" alone has no number.
def contains (n : Nat) : Bool :=
  match r.first, r.last with
  | some a, some b => min a b ≤ n && n ≤ max a b
  | some a, none | none, some a => a ≤ n
  | none, none => false

def nums : List Nat :=
  match r.first, r.last with
  | some a, some b => List.range' (min a b) (max a b + 1 - min a b)
  | _, _ => []

lemma has_iff {largest n : Nat} (h : n ≤ largest) :
    r.Has largest n ↔ r.contains n = true ∨ r.dynamic = true ∧ n = largest := by
  obtain ⟨first, last, _, _⟩ := r
  cases first <;> cases last <;> simp [Has, contains, dynamic] <;> omega

lemma mem_nums (h : r.dynamic = false) (n : Nat) : n ∈ r.nums ↔ r.contains n = true := by
  obtain ⟨first, last, _, _⟩ := r
  cases first <;> cases last <;> simp_all [contains, dynamic, nums]
  omega

lemma pos_of_mem_nums {n : Nat} (h : n ∈ r.nums) : 0 < n := by
  obtain ⟨first, last, hf, hl⟩ := r
  cases first <;> cases last <;> simp [nums] at h hf hl
  omega

end NumRange

abbrev RangeSet := List NumRange

namespace RangeSet

variable (set : RangeSet)

def dynamic : Bool := set.any NumRange.dynamic

def contains (n : Nat) : Bool := set.any (·.contains n)

-- Nums of go-imap, for a set without "*".
def nums : Numbers where
  nums := (set.flatMap NumRange.nums).dedup.insertionSort (· ≤ ·)
  sorted := ((List.pairwise_insertionSort (· ≤ ·) _).and
    ((List.perm_insertionSort (· ≤ ·) _).symm.nodup (List.nodup_dedup _))).imp fun h => Nat.lt_of_le_of_ne h.1 h.2
  positive n hn := by
    obtain ⟨r, _, hr⟩ := List.mem_flatMap.mp (List.mem_dedup.mp ((List.mem_insertionSort _).mp hn))
    exact r.pos_of_mem_nums hr

def numSet (byUid : Bool) : NumSet :=
  match byUid, set.dynamic with
  | false, false => .seq set.nums
  | false, true => .seqDynamic set.contains
  | true, false => .uid set.nums
  | true, true => .uidDynamic set.contains

-- SEARCH with the set as its only criterion.
def criteria (byUid : Bool) : Criteria :=
  .node ⟨if byUid then [] else [set.contains], if byUid then [set.contains] else [], [], [], 0, 0, .zero, .zero, .zero,
    .zero, [], [], []⟩ [] []

lemma mem_nums (h : set.dynamic = false) (n : Nat) : n ∈ set.nums.nums ↔ set.contains n = true := by
  simp only [nums, List.mem_insertionSort, List.mem_dedup, List.mem_flatMap, contains, List.any_eq_true]
  exact exists_congr fun r => and_congr_right fun hr => r.mem_nums (by simpa using List.any_eq_false.mp h r hr) n

lemma has_iff {largest n : Nat} (h : n ≤ largest) :
    (∃ r ∈ set, r.Has largest n) ↔ set.contains n = true ∨ set.dynamic = true ∧ n = largest := by
  simp only [contains, dynamic, List.any_eq_true, NumRange.has_iff _ h]
  grind

end RangeSet

-- The numbers of the messages, in the order of the list.
def inUse (byUid : Bool) (messages : List MessageInfo) : List Nat :=
  if byUid then messages.map MessageInfo.uid else List.range' 1 messages.length

def largest (numbers : List Nat) : Nat := numbers.max?.getD 0

def selected (messages : List MessageInfo) (set : NumSet) : List Nat :=
  (resolveNumSet messages set).filter (· < messages.length)

-- The turns of the loops of resolveNumSet: over the numbers of a set without "*",
-- over the messages otherwise.
def resolveTurns (messages : List MessageInfo) : NumSet → Nat
  | .seq set | .uid set => set.nums.length
  | .seqDynamic _ | .uidDynamic _ => messages.length

lemma largest_spec {numbers : List Nat} (h : numbers ≠ []) :
    largest numbers ∈ numbers ∧ ∀ n ∈ numbers, n ≤ largest numbers := by
  obtain ⟨m, hm⟩ := isSome_iff_exists.mp (List.isSome_max?_of_ne_nil h)
  rw [largest, hm, getD_some]
  exact List.max?_eq_some_iff.mp hm

lemma eq_largest_iff {numbers : List Nat} (h : numbers.Pairwise (· < ·)) {i n : Nat} (hi : numbers[i]? = some n) :
    n = largest numbers ↔ i + 1 = numbers.length := by
  obtain ⟨hm, hmax⟩ := largest_spec (List.ne_nil_of_mem (List.mem_of_getElem? hi))
  obtain ⟨j, hj, hl⟩ := List.getElem_of_mem hm
  rw [← hl] at hmax ⊢
  obtain ⟨hlt, rfl⟩ := List.getElem?_eq_some_iff.mp hi
  constructor
  · intro heq
    by_contra hne
    have hn := List.pairwise_iff_getElem.mp h i (i + 1) hlt (by omega) (by omega)
    have hle := hmax _ (List.getElem_mem (l := numbers) (n := i + 1) (by omega))
    omega
  · intro hla
    rcases Nat.lt_or_ge j i with hlt' | hge
    · have hs := List.pairwise_iff_getElem.mp h j i hj hlt hlt'
      have hle := hmax _ (List.getElem_mem hlt)
      omega
    · have heq : j = i := by omega
      simp [heq]

lemma length_inUse (byUid : Bool) (messages : List MessageInfo) : (inUse byUid messages).length = messages.length := by
  cases byUid <;> simp [inUse]

lemma inUse_seq (messages : List MessageInfo) (i n : Nat) :
    (inUse false messages)[i]? = some n ↔ i < messages.length ∧ i + 1 = n := by
  rw [inUse, if_neg Bool.false_ne_true]
  rcases Nat.lt_or_ge i messages.length with hlt | hge
  · simp [hlt, Nat.add_comm 1]
  · simp [hge]

lemma mem_search {Envelope Structure Section : Type} (lib : Library Envelope Structure Section) (f : CaseMap)
    (byUid : Bool) (set : RangeSet) (messages : List DatedInfo) (i : Nat) :
    i + 1 ∈ matchedNumbers lib f false (set.criteria byUid) none messages ↔
      ∃ n, (inUse byUid (messages.map DatedInfo.toMessageInfo))[i]? = some n ∧ set.contains n = true := by
  have hm (info : DatedInfo) (seqNum : Nat) : (set.criteria byUid).matchesCriteria lib f none info seqNum =
      set.contains (if byUid then info.uid else seqNum) := by
    cases byUid <;> simp [RangeSet.criteria, Criteria.matchesCriteria, matchesNone, matchesEach, Conditions.holds,
      Conditions.contentMatches, Conditions.usesSentDate, Time.isZero, withinDays]
  simp only [matchedNumbers, hm, List.mem_filterMap]
  cases byUid
  · simp [inUse_seq, List.mem_zipIdx_iff_le_and_getElem?_sub, ← isSome_iff_exists]
  · simp [inUse, List.mem_zipIdx_iff_le_and_getElem?_sub]

section Mailbox

variable {messages : List MessageInfo} (h : (messages.map MessageInfo.uid).Pairwise (· < ·)) (byUid : Bool)
  (set : RangeSet)

include h

lemma pairwise_inUse : (inUse byUid messages).Pairwise (· < ·) := by
  cases byUid
  · exact List.pairwise_lt_range'
  · exact h

lemma uidIndex_iff (uid i : Nat) : uidIndex messages uid = some i ↔ (messages.map MessageInfo.uid)[i]? = some uid := by
  constructor
  · intro hin
    obtain ⟨m, hm, rfl⟩ := uidIndex_eq_some hin
    rw [List.getElem?_map, hm, map_some]
  intro hi
  rw [List.getElem?_map, map_eq_some_iff] at hi
  obtain ⟨m, hm, rfl⟩ := hi
  rcases hin : uidIndex messages m.uid with _ | j
  · rw [uidIndex, map_eq_none_iff, List.find?_eq_none] at hin
    simpa using hin (m, i) (List.mem_reverse.mpr (List.mem_zipIdx_iff_getElem?.mpr hm))
  obtain ⟨m', hm', hu⟩ := uidIndex_eq_some hin
  have hlt := (List.getElem?_eq_some_iff.mp hm').1
  refine congrArg some ((List.getElem?_inj (by simpa using hlt) (h.imp fun hlt => Nat.ne_of_lt hlt)).mp ?_)
  rw [List.getElem?_map, List.getElem?_map, hm, hm', map_some, map_some, hu]

lemma mem_selected (i : Nat) : i ∈ selected messages (set.numSet byUid) ↔ ∃ n, (inUse byUid messages)[i]? = some n ∧
    (set.contains n = true ∨ set.dynamic = true ∧ i + 1 = messages.length) := by
  rw [selected, List.mem_filter, decide_eq_true_eq]
  cases byUid <;> cases hd : set.dynamic <;> simp only [RangeSet.numSet, hd, resolveNumSet, inUse_seq]
  case false.false =>
    simp only [List.mem_map, ← set.mem_nums hd]
    constructor
    · rintro ⟨⟨n, hn, rfl⟩, hlt⟩
      have hp := set.nums.positive n hn
      exact ⟨n, ⟨hlt, by omega⟩, .inl hn⟩
    · rintro ⟨_, ⟨hlt, rfl⟩, hn | ⟨hf, _⟩⟩
      · exact ⟨⟨i + 1, hn, rfl⟩, hlt⟩
      · cases hf
  case false.true => simp +contextual [and_comm]
  case true.false =>
    simp only [List.mem_filterMap, set.mem_nums hd, uidIndex_iff h, inUse, if_true]
    constructor
    · rintro ⟨⟨n, hn, hi⟩, _⟩
      exact ⟨n, hi, .inl hn⟩
    · rintro ⟨n, hi, hn | ⟨hf, _⟩⟩
      · exact ⟨⟨n, hn, hi⟩, by simpa using (List.getElem?_eq_some_iff.mp hi).1⟩
      · cases hf
  case true.true =>
    simp only [inUse, if_true, List.mem_map, List.mem_filter, List.getElem?_map, map_eq_some_iff]
    constructor
    · rintro ⟨⟨⟨m, _⟩, ⟨hm, hs⟩, rfl⟩, _⟩
      exact ⟨m.uid, ⟨m, List.mem_zipIdx_iff_getElem?.mp hm, rfl⟩, by simpa using hs⟩
    · rintro ⟨_, ⟨m, hm, rfl⟩, hs⟩
      exact ⟨⟨(m, i), ⟨List.mem_zipIdx_iff_getElem?.mpr hm, by simpa using hs⟩, rfl⟩,
        (List.getElem?_eq_some_iff.mp hm).1⟩

lemma mem_selected_iff_has (i : Nat) : i ∈ selected messages (set.numSet byUid) ↔
    ∃ n, (inUse byUid messages)[i]? = some n ∧ ∃ r ∈ set, r.Has (largest (inUse byUid messages)) n := by
  rw [mem_selected h]
  refine exists_congr fun n => and_congr_right fun hi => ?_
  have heq := eq_largest_iff (pairwise_inUse h byUid) hi
  rw [length_inUse] at heq
  rw [set.has_iff ((largest_spec (List.ne_nil_of_mem (List.mem_of_getElem? hi))).2 n (List.mem_of_getElem? hi)), heq]

omit h in
lemma search_misses_iff : (∀ i, (∃ n, (inUse byUid messages)[i]? = some n ∧ set.contains n = true) ↔
      ∃ n, (inUse byUid messages)[i]? = some n ∧
        (set.contains n = true ∨ set.dynamic = true ∧ i + 1 = messages.length)) ↔
    (set.dynamic = true → ∀ n ∈ (inUse byUid messages).getLast?, set.contains n = true) := by
  rw [List.getLast?_eq_getElem?, length_inUse]
  constructor
  · intro hs hd n hn
    have hlt := (List.getElem?_eq_some_iff.mp hn).1
    rw [length_inUse] at hlt
    obtain ⟨m, hm, hc⟩ := (hs _).mpr ⟨n, hn, .inr ⟨hd, by omega⟩⟩
    rwa [Option.some.inj (hn.symm.trans hm)]
  · intro hl i
    refine exists_congr fun n => and_congr_right fun hi => ⟨.inl, fun hsel => hsel.elim id fun ⟨hd, hi'⟩ => ?_⟩
    exact hl hd n (by rwa [← hi', Nat.add_sub_cancel])

end Mailbox

lemma search_criteria {Envelope Structure Section σ ε : Type} (lib : Library Envelope Structure Section) (f : CaseMap)
    (reader : Reader σ ε) (s : σ) (mailbox : Bytes) (messages : List DatedInfo) (byUid : Bool) (set : RangeSet) :
    reader.search lib f false (set.criteria byUid) mailbox messages s =
      .ok (matchedNumbers lib f false (set.criteria byUid) none messages) := by
  have hp : reader.prefetchContent f (set.criteria byUid) mailbox messages s = .ok none := by
    simp [Reader.prefetchContent, RangeSet.criteria, Criteria.collectContentTerms, collectNots, collectOrs,
      Conditions.collect, Conditions.usesSentDate, Time.isZero]
  rw [Reader.search, hp]
  cases messages <;> simp [matchedNumbers, Except.map]

def noted (uid : Nat) : DatedInfo := ⟨⟨uid, [], 1, []⟩, .zero⟩

def star : NumRange := ⟨none, none, by decide, by decide⟩

def wide : NumRange := ⟨some 1, some 4294967295, by decide, by decide⟩

end Maildancer.Imap

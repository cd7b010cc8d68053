import Maildancer.Imap.Sizes

namespace Maildancer.Imap

open List Text Maildir MailSession

mutual

def Criteria.nodes : Criteria → List Conditions
  | .node here nots ors => here :: (notsNodes nots ++ orsNodes ors)

def notsNodes : List Criteria → List Conditions
  | [] => []
  | c :: rest => c.nodes ++ notsNodes rest

def orsNodes : List (Criteria × Criteria) → List Conditions
  | [] => []
  | (c, d) :: rest => c.nodes ++ d.nodes ++ orsNodes rest

end

mutual

-- The tree by what its nodes come to.
def Criteria.eval (holds : Conditions → Bool) : Criteria → Bool
  | .node here nots ors => holds here && evalNone holds nots && evalEach holds ors

def evalNone (holds : Conditions → Bool) : List Criteria → Bool
  | [] => true
  | c :: rest => !c.eval holds && evalNone holds rest

def evalEach (holds : Conditions → Bool) : List (Criteria × Criteria) → Bool
  | [] => true
  | (c, d) :: rest => (c.eval holds || d.eval holds) && evalEach holds rest

end

namespace Conditions

variable (c : Conditions)

def needsHeaders : Bool := c.usesSentDate || !c.header.isEmpty

def needsContent : Bool := c.needsHeaders || !c.body.isEmpty || !c.text.isEmpty

variable {Envelope Structure Section : Type} (lib : Library Envelope Structure Section) (f : CaseMap)

-- The terms of one node against a message that was retrieved for it.
def contentHolds : Option Bytes → Bool
  | none => !c.needsContent
  | some data =>
    let (header, body) := splitMessage data
    withinDays c.sentSince c.sentBefore (sentDate lib header) && c.header.all (headerMatches lib f header) &&
      c.body.all (fun term => Text.contains (f.lower term) (f.lower body)) &&
      c.text.all (fun term => Text.contains (f.lower term) (f.lower data))

def holdsAfresh (content : Option Bytes) (info : DatedInfo) (seqNum : Nat) : Bool :=
  c.seqNum.all (· seqNum) && c.uid.all (· info.uid) && c.flag.all (info.flags.contains ·) &&
    c.notFlag.all (!info.flags.contains ·) && !(0 < c.larger && info.size ≤ c.larger) &&
    !(0 < c.smaller && c.smaller ≤ info.size) && withinDays c.since c.before info.internalDate &&
    c.contentHolds lib f content

end Conditions

mutual

lemma Criteria.collect_eq (f : CaseMap) : ∀ (c : Criteria) (terms : ContentTerms),
    c.collectContentTerms f terms = c.nodes.foldl (fun terms c => c.collect f terms) terms
  | .node here nots ors, terms => by
    rw [Criteria.collectContentTerms, Criteria.nodes, foldl_cons, foldl_append, collectNots_eq f nots,
      collectOrs_eq f ors]

lemma collectNots_eq (f : CaseMap) : ∀ (nots : List Criteria) (terms : ContentTerms),
    collectNots f nots terms = (notsNodes nots).foldl (fun terms c => c.collect f terms) terms
  | [], _ => rfl
  | c :: rest, terms => by
    rw [collectNots, notsNodes, foldl_append, c.collect_eq f, collectNots_eq f rest]

lemma collectOrs_eq (f : CaseMap) : ∀ (ors : List (Criteria × Criteria)) (terms : ContentTerms),
    collectOrs f ors terms = (orsNodes ors).foldl (fun terms c => c.collect f terms) terms
  | [], _ => rfl
  | (c, d) :: rest, terms => by
    rw [collectOrs, orsNodes, foldl_append, foldl_append, c.collect_eq f, d.collect_eq f, collectOrs_eq f rest]

end

section Tree

variable {Envelope Structure Section : Type} {lib : Library Envelope Structure Section} {f : CaseMap}
  {cc : Option ContentIndex} {info : DatedInfo} {seqNum : Nat} {holds : Conditions → Bool}

mutual

lemma Criteria.matches_eq : ∀ c : Criteria, (∀ n ∈ c.nodes, n.holds lib f cc info seqNum = holds n) →
    c.matchesCriteria lib f cc info seqNum = c.eval holds
  | .node here nots ors, h => by
    simp only [Criteria.nodes, forall_mem_cons, forall_mem_append] at h
    rw [Criteria.matchesCriteria, Criteria.eval, h.1, matchesNone_eq nots h.2.1, matchesEach_eq ors h.2.2]

lemma matchesNone_eq : ∀ nots : List Criteria, (∀ n ∈ notsNodes nots, n.holds lib f cc info seqNum = holds n) →
    matchesNone lib f cc info seqNum nots = evalNone holds nots
  | [], _ => rfl
  | c :: rest, h => by
    simp only [notsNodes, forall_mem_append] at h
    rw [matchesNone, evalNone, c.matches_eq h.1, matchesNone_eq rest h.2]

lemma matchesEach_eq : ∀ ors : List (Criteria × Criteria),
    (∀ n ∈ orsNodes ors, n.holds lib f cc info seqNum = holds n) →
    matchesEach lib f cc info seqNum ors = evalEach holds ors
  | [], _ => rfl
  | (c, d) :: rest, h => by
    simp only [orsNodes, forall_mem_append] at h
    rw [matchesEach, evalEach, c.matches_eq h.1.1, d.matches_eq h.1.2, matchesEach_eq rest h.2]

end

end Tree

section Terms

variable {f : CaseMap} {terms : List Bytes} {term : Bytes}

def Listed (f : CaseMap) (terms : List Bytes) (term : Bytes) : Prop := ∃ t ∈ terms, f.lower t = f.lower term

lemma Listed.added (h : Listed f terms term) (other : Bytes) : Listed f (addTerm f terms other) term := by
  obtain ⟨t, ht, heq⟩ := h
  rw [addTerm]
  split
  · exact ⟨t, ht, heq⟩
  · exact ⟨t, mem_append_left _ ht, heq⟩

lemma listed_addTerm (f : CaseMap) (terms : List Bytes) (term : Bytes) : Listed f (addTerm f terms term) term := by
  rw [addTerm]
  split
  · next ha => simpa [Listed] using ha
  · exact ⟨term, mem_append_right _ (mem_singleton_self _), rfl⟩

lemma Listed.kept (h : Listed f terms term) (others : List Bytes) : Listed f (others.foldl (addTerm f) terms) term := by
  induction others generalizing terms with
  | nil => exact h
  | cons other others ih => exact ih (h.added other)

lemma listed_addTerms {others : List Bytes} (h : term ∈ others) : Listed f (others.foldl (addTerm f) terms) term := by
  induction others generalizing terms with
  | nil => cases h
  | cons other others ih =>
    rcases mem_cons.mp h with rfl | hr
    · exact (listed_addTerm f terms term).kept others
    · exact ih hr

-- The position that the lower-cased term is found at has the answer to it.
lemma termMatches_map (g : Bytes → Bool) (h : Listed f terms term) :
    termMatches f terms (terms.map fun t => g (f.lower t)) term = g (f.lower term) := by
  obtain ⟨t, ht, heq⟩ := h
  obtain ⟨i, hi⟩ := mem_iff_getElem?.mp ht
  rw [termMatches]
  cases hf : terms.zipIdx.reverse.find? fun entry => decide (f.lower entry.1 = f.lower term) with
  | none =>
    have hn := List.find?_eq_none.mp hf (t, i) (mem_reverse.mpr (mem_zipIdx_iff_getElem?.mpr hi))
    exact absurd (decide_eq_true heq) hn
  | some entry =>
    have he := mem_zipIdx_iff_getElem?.mp (mem_reverse.mp (mem_of_find?_eq_some hf))
    have hl : f.lower entry.1 = f.lower term := by simpa using List.find?_some hf
    simp [he, hl]

lemma all_termMatches (g : Bytes → Bool) {asked : List Bytes} (h : ∀ term ∈ asked, Listed f terms term) :
    asked.all (termMatches f terms (terms.map fun t => g (f.lower t))) = asked.all fun term => g (f.lower term) := by
  induction asked with
  | nil => rfl
  | cons term asked ih =>
    rw [forall_mem_cons] at h
    rw [all_cons, all_cons, termMatches_map g h.1, ih h.2]

structure ContentTerms.Covers (f : CaseMap) (terms : ContentTerms) (c : Conditions) : Prop where
  body : ∀ term ∈ c.body, Listed f terms.bodyTerms term
  text : ∀ term ∈ c.text, Listed f terms.textTerms term
  headers : c.needsHeaders = true → terms.needHeaders = true
  content : c.needsContent = true → terms.hasContent = true

lemma Conditions.collect_covers (c : Conditions) (terms : ContentTerms) : (c.collect f terms).Covers f c where
  body _ h := listed_addTerms h
  text _ h := listed_addTerms h
  headers h := by
    simp only [needsHeaders, Bool.or_eq_true] at h
    simp only [collect, Bool.or_eq_true]
    tauto
  content h := by
    simp only [needsContent, needsHeaders, Bool.or_eq_true] at h
    simp only [collect, Bool.or_eq_true]
    tauto

lemma ContentTerms.Covers.collect {terms : ContentTerms} {c : Conditions} (h : terms.Covers f c) (d : Conditions) :
    (d.collect f terms).Covers f c where
  body term hterm := (h.body term hterm).kept d.body
  text term hterm := (h.text term hterm).kept d.text
  headers hn := by simp [Conditions.collect, h.headers hn]
  content hn := by simp [Conditions.collect, h.content hn]

lemma collectContentTerms_covers (f : CaseMap) (criteria : Criteria) (terms : ContentTerms) {c : Conditions}
    (h : c ∈ criteria.nodes) : (criteria.collectContentTerms f terms).Covers f c := by
  rw [criteria.collect_eq]
  obtain ⟨before, after, hn⟩ := append_of_mem h
  rw [hn, foldl_append, foldl_cons]
  have hk (ds : List Conditions) : ∀ terms : ContentTerms, terms.Covers f c →
      (ds.foldl (fun terms c => c.collect f terms) terms).Covers f c := by
    induction ds with
    | nil => exact fun _ ht => ht
    | cons d ds ih => exact fun _ ht => ih _ (ht.collect d)
  exact hk after _ (c.collect_covers _)

end Terms

section Scan

variable {σ ε τ δ : Type} {reader : Reader σ ε} {f : CaseMap} {mailbox : Bytes} {s : σ}
  {messages : List DatedInfo} {retrieve : τ → Nat → τ × Except δ Bytes} {content : Nat → Option Bytes} {inv : τ → Prop}

-- The search of the reader is a scan, by a retrieval that gives the same answer
-- for a message whenever it is asked.
structure Reader.Scans (reader : Reader σ ε) (f : CaseMap) (mailbox : Bytes) (messages : List DatedInfo) (s : σ)
    (retrieve : τ → Nat → τ × Except δ Bytes) (content : Nat → Option Bytes) (inv : τ → Prop) : Prop where
  scan : ∀ q, q.uids = messages.map (fun info => info.uid) → ∃ found, (reader.searchContent s mailbox q).2 = .ok found ∧
    (q.uids ≠ [] → ∃ t, inv t ∧ found = (scanContent f q retrieve q.uids t).2)
  consistent : ∀ t, inv t → ∀ info ∈ messages,
    inv (retrieve t info.uid).1 ∧ (retrieve t info.uid).2.toOption = content info.uid

def scanned (f : CaseMap) (content : Nat → Option Bytes) (q : ContentQuery) : List ContentMatch :=
  q.uids.filterMap fun uid => (content uid).map (matchMessageContent f · uid q)

lemma scanContent_consistent (q : ContentQuery) {uids : List Nat}
    (h : ∀ t, inv t → ∀ uid ∈ uids, inv (retrieve t uid).1 ∧ (retrieve t uid).2.toOption = content uid) {t : τ}
    (ht : inv t) : (scanContent f q retrieve uids t).2 =
      uids.filterMap fun uid => (content uid).map (matchMessageContent f · uid q) := by
  induction uids generalizing t with
  | nil => rfl
  | cons uid uids ih =>
    obtain ⟨hi, hc⟩ := h t ht uid mem_cons_self
    have hr := ih (fun t ht uid hu => h t ht uid (mem_cons_of_mem _ hu)) hi
    rw [scanContent]
    rcases hca : retrieve t uid with ⟨t', answer⟩
    rw [hca] at hc hr
    rcases answer with e | data
    · rw [filterMap_cons_none (by rw [← hc]; rfl)]
      exact hr
    · rw [filterMap_cons_some (b := matchMessageContent f data uid q) (by rw [← hc]; rfl), ← hr]

variable {Envelope Structure Section : Type} (lib : Library Envelope Structure Section)

lemma byUid_scanned {q : ContentQuery} {uid : Nat} (hu : uid ∈ q.uids) :
    ContentIndex.byUid ⟨scanned f content q, q.bodyTerms, q.textTerms⟩ uid =
      (content uid).map (matchMessageContent f · uid q) := by
  rw [ContentIndex.byUid]
  cases hf : (scanned f content q).reverse.find? fun m => decide (m.uid = uid) with
  | some m =>
    obtain ⟨other, _, ho⟩ := mem_filterMap.mp (mem_reverse.mp (mem_of_find?_eq_some hf))
    have hu : m.uid = uid := by simpa using List.find?_some hf
    obtain ⟨data, hd, rfl⟩ := Option.map_eq_some_iff.mp ho
    exact hu ▸ ho.symm
  | none =>
    cases hc : content uid with
    | none => rfl
    | some data =>
      have hm : matchMessageContent f data uid q ∈ scanned f content q :=
        mem_filterMap.mpr ⟨uid, hu, by rw [hc, Option.map_some]⟩
      exact absurd (decide_eq_true rfl) (List.find?_eq_none.mp hf _ (mem_reverse.mpr hm))

lemma contentMatches_unneeded {c : Conditions} (h : c.needsContent = false) (cc : Option ContentIndex) (uid : Nat)
    (data : Option Bytes) : c.contentMatches lib f cc uid = c.contentHolds lib f data := by
  have hp := h
  simp only [Conditions.needsContent, Conditions.needsHeaders, Conditions.usesSentDate, Bool.or_eq_false_iff,
    Bool.not_eq_false'] at hp
  obtain ⟨⟨⟨⟨hs, hb⟩, hh⟩, hbo⟩, ht⟩ := hp
  cases data <;> simp_all [Conditions.contentMatches, Conditions.contentHolds, Conditions.usesSentDate, withinDays]

lemma contentMatches_scanned {q : ContentQuery} {uid : Nat} (huid : uid ∈ q.uids) {c : Conditions}
    (h : ContentTerms.Covers f ⟨q.bodyTerms, q.textTerms, q.needHeaders, true⟩ c) :
    c.contentMatches lib f (some ⟨scanned f content q, q.bodyTerms, q.textTerms⟩) uid =
      c.contentHolds lib f (content uid) := by
  rcases hn : c.needsContent with _ | _
  · exact contentMatches_unneeded lib hn _ _ _
  have hu := hn
  rw [Conditions.needsContent, Conditions.needsHeaders] at hu
  simp only [Conditions.contentMatches, hu, if_true, byUid_scanned huid]
  rcases hc : content uid with _ | data
  · simp [Conditions.contentHolds, hn]
  simp only [Option.map_some, matchMessageContent, Conditions.contentHolds,
    all_termMatches (fun t => contains t (f.lower (splitMessage data).2)) h.body,
    all_termMatches (fun t => contains t (f.lower data)) h.text]
  cases hh : c.needsHeaders with
  | true => rw [show q.needHeaders = true from h.headers hh, if_pos rfl]
  | false =>
    simp only [Conditions.needsHeaders, Conditions.usesSentDate, Bool.or_eq_false_iff, Bool.not_eq_false',
      List.isEmpty_iff] at hh
    simp [hh.2, withinDays, hh.1.1, hh.1.2]

lemma Reader.Scans.prefetchContent_eq (h : reader.Scans f mailbox messages s retrieve content inv)
    (criteria : Criteria) :
    ∃ cc, reader.prefetchContent f criteria mailbox messages s = .ok cc ∧ ∀ c ∈ criteria.nodes, ∀ info ∈ messages,
      c.contentMatches lib f cc info.uid = c.contentHolds lib f (content info.uid) := by
  have hco {c : Conditions} (hc : c ∈ criteria.nodes) :=
    collectContentTerms_covers f criteria ⟨[], [], false, false⟩ hc
  unfold Reader.prefetchContent
  dsimp only
  generalize criteria.collectContentTerms f ⟨[], [], false, false⟩ = terms at hco ⊢
  obtain ⟨bodyTerms, textTerms, needHeaders, hasContent⟩ := terms
  rcases hasContent with _ | _
  · refine ⟨none, rfl, fun c hc info _ => contentMatches_unneeded lib ?_ _ _ _⟩
    exact Bool.eq_false_iff.mpr fun hn => Bool.false_ne_true ((hco hc).content hn)
  obtain ⟨found, hf, hs⟩ := h.scan ⟨messages.map fun info => info.uid, bodyTerms, textTerms, needHeaders⟩ rfl
  refine ⟨_, by rw [hf]; rfl, fun c hc info hi => ?_⟩
  have hm : info.uid ∈ messages.map fun info => info.uid := mem_map_of_mem hi
  obtain ⟨t, ht, rfl⟩ := hs (ne_nil_of_mem hm)
  rw [scanContent_consistent _ (fun t ht => forall_mem_map.mpr (h.consistent t ht)) ht]
  exact contentMatches_scanned lib hm (hco hc)

-- UIDs may even repeat: the scan has the same answer for both.
theorem one_scan_answers (h : reader.Scans f mailbox messages s retrieve content inv) (byUid : Bool)
    (criteria : Criteria) :
    reader.search lib f byUid criteria mailbox messages s =
      .ok ((messages.zipIdx 1).filterMap fun entry =>
        if criteria.eval (·.holdsAfresh lib f (content entry.1.uid) entry.1 entry.2) then
          some (if byUid then entry.1.uid else entry.2)
        else none) := by
  obtain ⟨cc, hcc, hm⟩ := h.prefetchContent_eq lib criteria
  have hn : matchedNumbers lib f byUid criteria cc messages = (messages.zipIdx 1).filterMap fun entry =>
      if criteria.eval (·.holdsAfresh lib f (content entry.1.uid) entry.1 entry.2) then
        some (if byUid then entry.1.uid else entry.2)
      else none := by
    refine filterMap_congr fun entry he => ?_
    rw [criteria.matches_eq fun c hc => ?_]
    rw [Conditions.holds, hm c hc entry.1 (fst_mem_of_mem_zipIdx he)]
    rfl
  rw [Reader.search, hcc, ← hn]
  cases messages with
  | nil => cases reader.nilListing <;> rfl
  | cons => rw [isEmpty_cons, Bool.and_false]; rfl

lemma storeReader_scans (b : Box) (sessionKey : Option Bytes) (f : CaseMap) (modTime : Bytes → Bytes → Time)
    {st : Store} (hl : (listStore st mailbox).2.isOk = true) {inv : Store → Prop} (hst : inv st)
    (h : ∀ t, inv t → ∀ info ∈ messages, inv (retrieveStore t mailbox info.uid).1 ∧
      ((retrieveStore t mailbox info.uid).2.map (b.decryptOrRaw sessionKey)).toOption = content info.uid) :
    (storeReader b sessionKey f modTime).Scans f mailbox messages st (fun t uid => ((retrieveStore t mailbox uid).1,
      (retrieveStore t mailbox uid).2.map (b.decryptOrRaw sessionKey))) content inv where
  scan q _ := by
    simp only [storeReader, searchContentStore]
    split
    · next hn =>
      rcases hc : listStore st mailbox with ⟨st', _ | msgs⟩
      · rw [hc] at hl
        cases hl
      · exact ⟨_, rfl, fun hne => absurd hn hne⟩
    · exact ⟨_, rfl, fun _ => ⟨st, hst, rfl⟩⟩
  consistent := h

end Scan

def listed : Store := (maildrop (ascii "a\r\n")).store.list.1

lemma listed_scans : (storeReader zeroTagBox none .asciiOnly fun _ _ => .zero).Scans .asciiOnly inbox
    [⟨⟨1, [], 3, []⟩, .zero⟩] listed (fun t uid => ((retrieveStore t inbox uid).1,
      (retrieveStore t inbox uid).2.map (zeroTagBox.decryptOrRaw none))) (fun _ => some (ascii "a\r\n"))
    (fun t => retrieveStore t inbox 1 = (t, .ok (ascii "a\r\n"))) := by
  refine storeReader_scans zeroTagBox none .asciiOnly _ (by decide) rfl fun t ht info hi => ?_
  rw [mem_singleton.mp hi, ht]
  exact ⟨ht, rfl⟩

-- NOT TEXT "B" holds, and its other branch asks for "A" in capitals.
theorem one_scan_answers_branches :
    (storeReader zeroTagBox none .asciiOnly fun _ _ => .zero).search undatedLibrary .asciiOnly false
      (.node ⟨[], [], [], [], 0, 0, .zero, .zero, .zero, .zero, [], [], [ascii "A"]⟩
        [.node ⟨[], [], [], [], 0, 0, .zero, .zero, .zero, .zero, [], [], [ascii "B"]⟩ [] []] [])
      inbox [⟨⟨1, [], 3, []⟩, .zero⟩] listed = .ok [1] :=
  (one_scan_answers undatedLibrary listed_scans false _).trans (by decide +kernel)

end Maildancer.Imap

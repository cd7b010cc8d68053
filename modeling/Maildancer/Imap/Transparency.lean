import Maildancer.Imap.Sizes

namespace Maildancer.Imap

open List Text Maildir MailSession

mutual

def Criteria.usesInternalDate : Criteria → Bool
  | .node here nots ors => here.usesInternalDate || notsUseInternalDate nots || orsUseInternalDate ors

def notsUseInternalDate : List Criteria → Bool
  | [] => false
  | c :: rest => c.usesInternalDate || notsUseInternalDate rest

def orsUseInternalDate : List (Criteria × Criteria) → Bool
  | [] => false
  | (c, d) :: rest => c.usesInternalDate || d.usesInternalDate || orsUseInternalDate rest

end

section Congruence

variable {Envelope Structure Section : Type} (lib : Library Envelope Structure Section) (f : CaseMap)
  (cc : Option ContentIndex) {info info' : DatedInfo} (seqNum : Nat)

-- Two descriptions that differ at most in the internal date.
structure SameMessage (info info' : DatedInfo) : Prop where
  uid : info.uid = info'.uid
  size : info.size = info'.size
  flags : info.flags = info'.flags

lemma Conditions.holds_congr (h : SameMessage info info') (c : Conditions)
    (hd : info.internalDate = info'.internalDate ∨ c.usesInternalDate = false) :
    c.holds lib f cc info seqNum = c.holds lib f cc info' seqNum := by
  have hda : withinDays c.since c.before info.internalDate = withinDays c.since c.before info'.internalDate := by
    rcases hd with hs | hu
    · rw [hs]
    · simp only [usesInternalDate, Bool.or_eq_false_iff, Bool.not_eq_false'] at hu
      simp only [withinDays, hu.1, hu.2, Bool.and_self, if_true]
  simp only [holds, h.uid, h.size, h.flags, hda]

mutual

lemma Criteria.matches_congr (h : SameMessage info info') : ∀ criteria : Criteria,
    (info.internalDate = info'.internalDate ∨ criteria.usesInternalDate = false) →
      criteria.matchesCriteria lib f cc info seqNum = criteria.matchesCriteria lib f cc info' seqNum
  | .node here nots ors, hda => by
    simp only [Criteria.usesInternalDate, Bool.or_eq_false_iff] at hda
    rw [Criteria.matchesCriteria, Criteria.matchesCriteria,
      here.holds_congr lib f cc seqNum h (hda.imp_right fun hd => hd.1.1),
      matchesNone_congr h nots (hda.imp_right fun hd => hd.1.2),
      matchesEach_congr h ors (hda.imp_right fun hd => hd.2)]

lemma matchesNone_congr (h : SameMessage info info') : ∀ criteria : List Criteria,
    (info.internalDate = info'.internalDate ∨ notsUseInternalDate criteria = false) →
      matchesNone lib f cc info seqNum criteria = matchesNone lib f cc info' seqNum criteria
  | [], _ => rfl
  | c :: rest, hda => by
    simp only [notsUseInternalDate, Bool.or_eq_false_iff] at hda
    rw [matchesNone, matchesNone, c.matches_congr h (hda.imp_right fun hd => hd.1),
      matchesNone_congr h rest (hda.imp_right fun hd => hd.2)]

lemma matchesEach_congr (h : SameMessage info info') : ∀ criteria : List (Criteria × Criteria),
    (info.internalDate = info'.internalDate ∨ orsUseInternalDate criteria = false) →
      matchesEach lib f cc info seqNum criteria = matchesEach lib f cc info' seqNum criteria
  | [], _ => rfl
  | (c, d) :: rest, hda => by
    simp only [orsUseInternalDate, Bool.or_eq_false_iff] at hda
    rw [matchesEach, matchesEach, c.matches_congr h (hda.imp_right fun hd => hd.1.1),
      d.matches_congr h (hda.imp_right fun hd => hd.1.2), matchesEach_congr h rest (hda.imp_right fun hd => hd.2)]

end

lemma matchedNumbers_congr (byUid : Bool) (criteria : Criteria) {msgs : List Message}
    (first second : Message → DatedInfo) (h : ∀ m ∈ msgs, SameMessage (first m) (second m))
    (hda : (∀ m ∈ msgs, (first m).internalDate = (second m).internalDate) ∨ criteria.usesInternalDate = false) :
    matchedNumbers lib f byUid criteria cc (msgs.map first) =
      matchedNumbers lib f byUid criteria cc (msgs.map second) := by
  unfold matchedNumbers
  rw [zipIdx_map, zipIdx_map, filterMap_map, filterMap_map]
  refine filterMap_congr fun entry he => ?_
  have hm := fst_mem_of_mem_zipIdx he
  have hma := criteria.matches_congr lib f cc entry.2 (h entry.1 hm) (hda.imp_left fun hd => hd entry.1 hm)
  simp only [Function.comp_apply, Prod.map_fst, Prod.map_snd, id_eq, hma, (h entry.1 hm).uid]

lemma fetchItems_congr (h : SameMessage info info') (req : FetchRequest Section)
    (hd : info.internalDate = info'.internalDate ∨ req.internalDate = false) (now : Time) (content : Bytes) :
    fetchItems lib req now info content = fetchItems lib req now info' content := by
  rcases hd with hs | hu
  · simp only [fetchItems, h.uid, h.size, h.flags, hs]
  · simp only [fetchItems, h.uid, h.size, h.flags, hu, Bool.false_eq_true, if_false]

end Congruence

lemma uidIndex_map (messages : List MessageInfo) (uid : Nat) :
    uidIndex messages uid =
      ((messages.map MessageInfo.uid).zipIdx.reverse.find? fun entry => entry.1 = uid).map Prod.snd := by
  rw [uidIndex, zipIdx_map, ← map_reverse, List.find?_map, Option.map_map]
  rfl

lemma resolveNumSet_congr {messages messages' : List MessageInfo}
    (h : messages.map MessageInfo.uid = messages'.map MessageInfo.uid) (set : NumSet) :
    resolveNumSet messages set = resolveNumSet messages' set := by
  have hl : messages.length = messages'.length := by
    rw [← length_map MessageInfo.uid, h, length_map]
  cases set with
  | seq set => rfl
  | seqDynamic contains => simp only [resolveNumSet, hl]
  | uid set =>
    have hi : uidIndex messages = uidIndex messages' := funext fun uid => by
      rw [uidIndex_map, uidIndex_map, h]
    simp only [resolveNumSet, hi]
  | uidDynamic contains =>
    have hf : ∀ msgs : List MessageInfo, (msgs.zipIdx.filter fun entry =>
        contains entry.1.uid || entry.2 + 1 = msgs.length).map Prod.snd =
          ((msgs.map MessageInfo.uid).zipIdx.filter fun entry =>
            contains entry.1 || entry.2 + 1 = msgs.length).map Prod.snd := by
      intro msgs
      rw [zipIdx_map, filter_map, map_map]
      rfl
    simp only [resolveNumSet]
    rw [hf messages, hf messages', h, hl]

section Transparency

variable {Envelope Structure Section : Type} (b : Box) (sessionKey : Option Bytes) (f : CaseMap)
  (lib : Library Envelope Structure Section) (modTime : Bytes → Bytes → Time)

structure Transparent (server : Process) (mailbox : Bytes) : Prop where
  search : ∀ byUid criteria,
    (sessionManagerReader b sessionKey f).searchAfterSelect lib f byUid criteria server mailbox =
      (storeReader b sessionKey f modTime).searchAfterSelect lib f byUid criteria server.store mailbox
  fetch : ∀ req clock set,
    (sessionManagerReader b sessionKey f).fetchAfterSelect lib req clock set server mailbox =
      (storeReader b sessionKey f modTime).fetchAfterSelect lib req clock set server.store mailbox

variable {b sessionKey f lib modTime} {server : Process} {mailbox : Bytes} {loc : Loc}

lemma sameMessage_info (recentKeys : List Bytes) (m : Message) :
    SameMessage (adapterInfo recentKeys m) (storeInfo modTime mailbox recentKeys m) := ⟨rfl, rfl, rfl⟩

lemma search_nil (hg : server.store.Good) (hp : folderOrInboxPath mailbox = .ok loc) {d : Folder}
    (hd : server.store.disk loc = some d) (byUid : Bool) (criteria : Criteria) :
    (sessionManagerReader b sessionKey f).search lib f byUid criteria mailbox [] server = .ok [] := by
  have hf : MailboxServer.folderOrInbox mailbox = mailbox := if_neg fun hnil => by
    rw [hnil] at hp
    cases hp
  have hfo : ∀ q, ∃ found, ((sessionManagerReader b sessionKey f).searchContent server mailbox q).2 = .ok found := by
    intro q
    simp only [sessionManagerReader, Box.searchContent, MailboxServer.withFolder, hf]
    obtain ⟨-, hn⟩ | ⟨st, _, _, recentKeys, hs, -⟩ := Process.select_spec hg hp
    · cases hd.symm.trans hn
    · rw [hs]
      exact ⟨_, rfl⟩
  unfold Reader.search Reader.prefetchContent
  dsimp only
  rcases (criteria.collectContentTerms f ⟨[], [], false, false⟩).hasContent with _ | _
  · rfl
  obtain ⟨found, hc⟩ := hfo ⟨[], (criteria.collectContentTerms f ⟨[], [], false, false⟩).bodyTerms,
    (criteria.collectContentTerms f ⟨[], [], false, false⟩).textTerms,
    (criteria.collectContentTerms f ⟨[], [], false, false⟩).needHeaders⟩
  simp only [map_nil, hc]
  rfl

lemma searchAfterSelect_eq (hg : server.store.Good) (hpa : folderOrInboxPath mailbox = .ok loc)
    (hn : equalFold mailbox inbox = true → searchRoot mailbox = true) (byUid : Bool) (criteria : Criteria)
    (hd : (∀ m ∈ server.store.contents loc, modTime mailbox m.file.key = .zero) ∨ criteria.usesInternalDate = false) :
    (sessionManagerReader b sessionKey f).searchAfterSelect lib f byUid criteria server mailbox =
      (storeReader b sessionKey f modTime).searchAfterSelect lib f byUid criteria server.store mailbox := by
  unfold Reader.searchAfterSelect
  obtain ⟨_, _, _, _, hpr, hs, -⟩ | ⟨p, st, recentKeys, hpr, hs, hp, ⟨d, hdi⟩, hst⟩ :=
    list_cases b sessionKey f hg hpa modTime
  · rw [hpr, hs]
  rw [hpr, hs]
  dsimp only
  by_cases hnil : server.store.contents loc = []
  · rw [hnil, map_nil, map_nil, search_nil hp.1 hpa hdi]
    rfl
  rw [(sessionManagerReader_serves b sessionKey f hpa _).search_eq lib _ (fun _ => rfl) hnil byUid criteria hp,
    (storeReader_serves b sessionKey f hpa hn modTime _).search_eq lib _ (fun _ => rfl) hnil byUid criteria hst,
    matchedNumbers_congr lib f _ byUid criteria _ _
      (fun m _ => sameMessage_info recentKeys m) (hd.imp_left fun hz m hm => (hz m hm).symm)]
  rfl

lemma fetchAfterSelect_eq (hg : server.store.Good) (hpa : folderOrInboxPath mailbox = .ok loc)
    (hn : equalFold mailbox inbox = true → searchRoot mailbox = true) (req : FetchRequest Section)
    (clock : Nat → Time) (set : NumSet)
    (hd : (∀ m ∈ server.store.contents loc, modTime mailbox m.file.key = .zero) ∨ req.internalDate = false) :
    (sessionManagerReader b sessionKey f).fetchAfterSelect lib req clock set server mailbox =
      (storeReader b sessionKey f modTime).fetchAfterSelect lib req clock set server.store mailbox := by
  unfold Reader.fetchAfterSelect
  obtain ⟨_, _, _, _, hpr, hs, -⟩ | ⟨p, st, recentKeys, hpr, hs, hp, -, hst⟩ :=
    list_cases b sessionKey f hg hpa modTime
  · rw [hpr, hs]
  have hset :
      resolveNumSet (((server.store.contents loc).map (adapterInfo recentKeys)).map DatedInfo.toMessageInfo) set =
      resolveNumSet (((server.store.contents loc).map (storeInfo modTime mailbox recentKeys)).map
        DatedInfo.toMessageInfo) set := resolveNumSet_congr (by simp only [map_map]; rfl) set
  rw [hpr, hs]
  dsimp only
  rw [hset, (sessionManagerReader_serves b sessionKey f hpa _).fetchLoop_eq lib _ (fun _ => rfl) req clock _ hp,
    (storeReader_serves b sessionKey f hpa hn modTime _).fetchLoop_eq lib _ (fun _ => rfl) req clock _ hst]
  refine congrArg some (Prod.ext (filterMap_congr fun idx _ => Option.map_congr fun m hm => ?_) rfl)
  rw [fetchItems_congr lib (sameMessage_info recentKeys m) req
    (hd.imp_left fun hz => (hz m (mem_of_getElem? hm)).symm)]

def sinceCriteria (date : Time) : Criteria :=
  .node ⟨[], [], [], [], 0, 0, date, .zero, .zero, .zero, [], [], []⟩ [] []

lemma matches_sinceCriteria (date : Time) (info : DatedInfo) (seqNum : Nat) :
    (sinceCriteria date).matchesCriteria lib f none info seqNum = withinDays date .zero info.internalDate := by
  simp [sinceCriteria, Criteria.matchesCriteria, matchesNone, matchesEach, Conditions.holds, Conditions.contentMatches,
    Conditions.usesSentDate, Time.isZero]

lemma withinDays_self {date : Time} (h : date ≠ .zero) : withinDays date .zero date = true := by
  simp [withinDays, Time.isZero, Time.before, h]

lemma withinDays_unknown {date : Time} (h : date ≠ .zero) : withinDays date .zero .zero = false := by
  simp [withinDays, Time.isZero, h]

-- SEARCH SINCE the date of a message finds it only where the date is known.
lemma zero_of_search_eq (hg : server.store.Good) (hpa : folderOrInboxPath mailbox = .ok loc)
    (hn : equalFold mailbox inbox = true → searchRoot mailbox = true) {m : Message} (hm : m ∈ server.store.contents loc)
    (heq : (sessionManagerReader b sessionKey f).searchAfterSelect lib f true
      (sinceCriteria (modTime mailbox m.file.key))
        server mailbox =
      (storeReader b sessionKey f modTime).searchAfterSelect lib f true (sinceCriteria (modTime mailbox m.file.key))
        server.store mailbox) : modTime mailbox m.file.key = .zero := by
  by_contra hd
  have hne : server.store.contents loc ≠ [] := ne_nil_of_mem hm
  have hin : contentIndex f (served b sessionKey) (server.store.contents loc)
      (sinceCriteria (modTime mailbox m.file.key)) = none := rfl
  unfold Reader.searchAfterSelect at heq
  obtain ⟨_, _, _, _, -, -, hnil⟩ | ⟨p, st, recentKeys, hpr, hs, hp, -, hst⟩ :=
    list_cases b sessionKey f hg hpa modTime
  · exact hne hnil
  rw [hpr, hs] at heq
  dsimp only at heq
  rw [(sessionManagerReader_serves b sessionKey f hpa _).search_eq lib _ (fun _ => rfl) hne true _ hp,
    (storeReader_serves b sessionKey f hpa hn modTime _).search_eq lib _ (fun _ => rfl) hne true _ hst, hin] at heq
  have hno : m.uid ∉ matchedNumbers lib f true (sinceCriteria (modTime mailbox m.file.key)) none
      ((server.store.contents loc).map (adapterInfo recentKeys)) := by
    intro hf
    obtain ⟨entry, he, hma⟩ := mem_filterMap.mp hf
    obtain ⟨other, -, ho⟩ := mem_map.mp (fst_mem_of_mem_zipIdx he)
    rw [matches_sinceCriteria, ← ho] at hma
    rw [show (adapterInfo recentKeys other).internalDate = .zero from rfl, withinDays_unknown hd] at hma
    cases hma
  have hf : m.uid ∈ matchedNumbers lib f true (sinceCriteria (modTime mailbox m.file.key)) none
      ((server.store.contents loc).map (storeInfo modTime mailbox recentKeys)) := by
    obtain ⟨i, hi⟩ := mem_iff_getElem?.mp hm
    refine mem_filterMap.mpr ⟨(storeInfo modTime mailbox recentKeys m, i + 1), ?_, ?_⟩
    · refine mk_mem_zipIdx_iff_le_and_getElem?_sub.mpr ⟨by omega, ?_⟩
      rw [Nat.add_sub_cancel, List.getElem?_map, hi, Option.map_some]
    · rw [matches_sinceCriteria]
      exact if_pos (withinDays_self hd)
  rw [Except.toOption, Except.toOption, Option.some.injEq] at heq
  exact hno (heq ▸ hf)

end Transparency

def secondDay : Time := ⟨24 * 60 * 60 * 1000000000⟩

end Maildancer.Imap

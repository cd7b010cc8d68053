import Maildancer.Imap.Expunge
import Maildancer.Imap.Reading

namespace Maildancer.Imap

open List Text Maildir MailSession

section Generic

variable {σ ε : Type} {reader : Reader σ ε} {f : CaseMap} {mailbox : Bytes} {msgs : List Message}
  {content : Message → Bytes} {inv : σ → Prop}

-- Whatever the library asks for, the reader answers from these messages.
structure Reader.Serves (reader : Reader σ ε) (f : CaseMap) (mailbox : Bytes) (msgs : List Message)
    (content : Message → Bytes) (inv : σ → Prop) : Prop where
  retrieve : ∀ s, inv s → ∀ m ∈ msgs, ∃ s', reader.retrieve s mailbox m.uid = (s', .ok (content m)) ∧ inv s'
  search : ∀ s, inv s → ∀ q, q.uids = msgs.map Message.uid → msgs ≠ [] →
    (reader.searchContent s mailbox q).2 = .ok (msgs.map fun m => matchMessageContent f (content m) m.uid q)

lemma scanContent_eq (inv : σ → Prop) (q : ContentQuery) {retrieve : σ → Nat → σ × Except ε Bytes}
    (h : ∀ s, inv s → ∀ m ∈ msgs, ∃ s', retrieve s m.uid = (s', .ok (content m)) ∧ inv s') {s : σ} (hs : inv s) :
    (scanContent f q retrieve (msgs.map Message.uid) s).2 =
      msgs.map fun m => matchMessageContent f (content m) m.uid q := by
  induction msgs generalizing s with
  | nil => rfl
  | cons m msgs ih =>
    obtain ⟨s', hc, hs'⟩ := h s hs m mem_cons_self
    simp only [map_cons, scanContent, hc]
    rw [ih (fun s hs other ho => h s hs other (mem_cons_of_mem _ ho)) hs']

variable {Envelope Structure Section : Type} (lib : Library Envelope Structure Section)

lemma Reader.Serves.fetchLoop_eq (h : reader.Serves f mailbox msgs content inv) (info : Message → DatedInfo)
    (hi : ∀ m, (info m).uid = m.uid) (req : FetchRequest Section) (clock : Nat → Time) (indices : List Nat) {s : σ}
    (hs : inv s) : reader.fetchLoop lib req clock mailbox (msgs.map info) indices s =
      (indices.filterMap fun idx => msgs[idx]?.map fun m =>
        (idx + 1, fetchItems lib req (clock idx) (info m) (if req.needContent then content m else [])), none) := by
  induction indices generalizing s with
  | nil => rfl
  | cons idx rest ih =>
    rw [Reader.fetchLoop, List.getElem?_map]
    cases hm : msgs[idx]? with
    | none =>
      rw [Option.map_none, filterMap_cons_none (by rw [hm, Option.map_none])]
      exact ih hs
    | some m =>
      obtain ⟨s', hc, hs'⟩ : ∃ s', (if req.needContent then reader.retrieve s mailbox (info m).uid else (s, .ok [])) =
          (s', .ok (if req.needContent then content m else [])) ∧ inv s' := by
        by_cases hn : req.needContent = true
        · rw [if_pos hn, if_pos hn, hi]
          exact h.retrieve s hs m (mem_of_getElem? hm)
        · rw [if_neg hn, if_neg hn]
          exact ⟨s, rfl, hs⟩
      rw [Option.map_some]
      dsimp only
      rw [hc, filterMap_cons_some (by rw [hm, Option.map_some])]
      dsimp only
      rw [ih hs']

-- The one scan that SEARCH makes for all its text keys.
def contentIndex (f : CaseMap) (content : Message → Bytes) (msgs : List Message) (criteria : Criteria) :
    Option ContentIndex :=
  let terms := criteria.collectContentTerms f ⟨[], [], false, false⟩
  if terms.hasContent then
    some ⟨msgs.map fun m => matchMessageContent f (content m) m.uid
      ⟨msgs.map Message.uid, terms.bodyTerms, terms.textTerms, terms.needHeaders⟩, terms.bodyTerms, terms.textTerms⟩
  else none

lemma Reader.Serves.prefetchContent_eq (h : reader.Serves f mailbox msgs content inv) (info : Message → DatedInfo)
    (hi : ∀ m, (info m).uid = m.uid) (hne : msgs ≠ []) (criteria : Criteria) {s : σ} (hs : inv s) :
    reader.prefetchContent f criteria mailbox (msgs.map info) s = .ok (contentIndex f content msgs criteria) := by
  have hu : (msgs.map info).map (fun i => i.uid) = msgs.map Message.uid := by
    rw [map_map]
    exact map_congr_left fun m _ => hi m
  unfold Reader.prefetchContent contentIndex
  dsimp only
  rcases (criteria.collectContentTerms f ⟨[], [], false, false⟩).hasContent with _ | _
  · rfl
  · rw [hu, h.search s hs _ rfl hne]
    rfl

lemma Reader.Serves.search_eq (h : reader.Serves f mailbox msgs content inv) (info : Message → DatedInfo)
    (hi : ∀ m, (info m).uid = m.uid) (hne : msgs ≠ []) (byUid : Bool) (criteria : Criteria) {s : σ} (hs : inv s) :
    reader.search lib f byUid criteria mailbox (msgs.map info) s =
      .ok (matchedNumbers lib f byUid criteria (contentIndex f content msgs criteria) (msgs.map info)) := by
  have he : (msgs.map info).isEmpty = false := by simpa using hne
  rw [Reader.search, he, Bool.and_false, if_neg Bool.false_ne_true, h.prefetchContent_eq info hi hne criteria hs]
  rfl

end Generic

variable {mailbox : Bytes} {loc : Loc} (b : Box) (sessionKey : Option Bytes) (f : CaseMap)

def served (m : Message) : Bytes := b.decryptOrRaw sessionKey m.file.data

lemma sessionManagerReader_serves (hpa : folderOrInboxPath mailbox = .ok loc) (msgs : List Message) :
    (sessionManagerReader b sessionKey f).Serves f mailbox msgs (served b sessionKey)
      (fun p => p.store.Good ∧ p.store.contents loc = msgs) where
  retrieve := by
    rintro p ⟨hg, hc⟩ m hm
    have hr := path_rpcFolder hpa
    obtain ⟨hgo, hco⟩ := MailboxServer.fetch_spec hg hr m.uid
    refine ⟨_, ?_, hgo, (congrFun hco loc).trans hc⟩
    have hf := MailboxServer.fetch_ok hg hr (hc ▸ hm)
    show ((MailboxServer.fetch p (rpcFolder mailbox) m.uid).1,
      (MailboxServer.fetch p (rpcFolder mailbox) m.uid).2.map _) = _
    rw [hf]
    rfl
  search := by
    rintro p ⟨hg, rfl⟩ q hu hne
    have hfo : MailboxServer.folderOrInbox mailbox = mailbox := if_neg fun hnil => by
      rw [hnil] at hpa
      cases hpa
    have hn : q.uids ≠ [] := by
      rw [hu]
      exact fun hnil => hne (map_eq_nil_iff.mp hnil)
    simp only [sessionManagerReader, Box.searchContent]
    obtain ⟨-, hnil⟩ | ⟨st, d, ul, recentKeys, hca, hst, hl, hc⟩ :=
      MailboxServer.withFolder_cases _ hg (hfo.symm ▸ hpa)
    · exact absurd hnil hne
    rw [hca]
    rw [if_neg hn, hu]
    -- Nothing changes while the messages are read.
    refine congrArg Except.ok (scanContent_eq (· = _) q (fun p hp m hm => ?_) rfl)
    subst hp
    rw [Process.retrieve_ok hst hl hpa hfo (hc ▸ hm)]
    exact ⟨_, rfl, rfl⟩

lemma storeReader_serves (hp : folderOrInboxPath mailbox = .ok loc)
    (hn : equalFold mailbox inbox = true → searchRoot mailbox = true) (modTime : Bytes → Bytes → Time)
    (msgs : List Message) : (storeReader b sessionKey f modTime).Serves f mailbox msgs (served b sessionKey)
      (fun st => st.Good ∧ (∃ d ul, st.Listed loc d ul) ∧ st.contents loc = msgs) := by
  have hr : ∀ st : Store, (st.Good ∧ (∃ d ul, st.Listed loc d ul) ∧ st.contents loc = msgs) → ∀ m ∈ msgs,
      (if equalFold mailbox inbox then st.retrieve m.uid else st.retrieveFromFolder mailbox m.uid) =
        (st, .ok m.file.data) := by
    rintro st ⟨hg, ⟨d, ul, hl⟩, hc⟩ m hm
    have hf := Store.retrieveAt_ok hg hl (hc ▸ hm)
    obtain ⟨-, hfo, rfl⟩ | ⟨-, hfo, hfl⟩ := path_cases hp
    · simp [hfo, Store.retrieve, hf]
    · simp [hfo, Store.retrieveFromFolder, hfl, hf]
  have hro : searchRoot mailbox = equalFold mailbox inbox := by
    rcases hfo : equalFold mailbox inbox with _ | _
    · rw [Bool.eq_false_iff]
      intro hrt
      simp only [searchRoot, decide_eq_true_eq] at hrt
      rcases hrt with rfl | rfl | rfl
      · cases hp
      · revert hfo
        decide
      · revert hfo
        decide
    · exact hn hfo
  refine ⟨fun st hst m hm => ⟨st, ?_, hst⟩, fun st hst q hu hne => ?_⟩
  · simp only [storeReader, hr st hst m hm]
    rfl
  have hno : q.uids ≠ [] := by
    rw [hu]
    exact fun hnil => hne (map_eq_nil_iff.mp hnil)
  simp only [storeReader, searchContentStore]
  rw [if_neg hno, hu]
  refine congrArg Except.ok (scanContent_eq
    (fun st => st.Good ∧ (∃ d ul, st.Listed loc d ul) ∧ st.contents loc = msgs) q
    (fun st hst m hm => ⟨st, ?_, hst⟩) hst)
  simp only [retrieveStore, hro, hr st hst m hm]
  rfl

-- Over the session-manager neither key nor time of a message is known.
def adapterInfo (recentKeys : List Bytes) (m : Message) : DatedInfo := ⟨{ m.info recentKeys with key := [] }, .zero⟩

def storeInfo (modTime : Bytes → Bytes → Time) (mailbox : Bytes) (recentKeys : List Bytes) (m : Message) : DatedInfo :=
  ⟨m.info recentKeys, modTime mailbox m.file.key⟩

lemma listFolder_rpcFolder (hp : folderOrInboxPath mailbox = .ok loc) (st : Store) :
    Process.listFolder st (MailboxServer.folderOrInbox (rpcFolder mailbox)) = Process.listFolder st mailbox := by
  obtain ⟨-, hf, rfl⟩ | ⟨-, hf, hfo⟩ := path_cases hp
  · have hi : equalFold (MailboxServer.folderOrInbox (rpcFolder mailbox)) inbox = true := by
      rw [rpcFolder, if_pos hf]
      decide
    rw [Process.listFolder, Process.listFolder, hi, hf]
    rfl
  · have hne : mailbox ≠ [] := by
      rintro rfl
      cases hfo
    rw [rpcFolder, hf, if_neg Bool.false_ne_true, MailboxServer.folderOrInbox, if_neg hne]

lemma list_cases {p : Process} (hg : p.store.Good) (hp : folderOrInboxPath mailbox = .ok loc)
    (modTime : Bytes → Bytes → Time) :
    (∃ p' st e e', (sessionManagerReader b sessionKey f).list p mailbox = (p', .error e) ∧
        (storeReader b sessionKey f modTime).list p.store mailbox = (st, .error e') ∧ p.store.contents loc = []) ∨
      ∃ p' st recentKeys,
        (sessionManagerReader b sessionKey f).list p mailbox =
          (p', .ok ((p.store.contents loc).map (adapterInfo recentKeys))) ∧
        (storeReader b sessionKey f modTime).list p.store mailbox =
          (st, .ok ((p.store.contents loc).map (storeInfo modTime mailbox recentKeys))) ∧
        (p'.store.Good ∧ p'.store.contents loc = p.store.contents loc) ∧ (∃ d, p'.store.disk loc = some d) ∧
        st.Good ∧ (∃ d ul, st.Listed loc d ul) ∧ st.contents loc = p.store.contents loc := by
  have hr := listFolder_rpcFolder hp p.store
  obtain ⟨hl, hn⟩ | ⟨st, d, ul, recentKeys, hl, hst, hli, hc⟩ := Process.listFolder_spec hg hp
  · refine .inl ⟨p, p.store, .select (MailboxServer.folderOrInbox (rpcFolder mailbox))
      (.select (MailboxServer.folderOrInbox (rpcFolder mailbox)) .folderNotFound), .folderNotFound, ?_, ?_,
      Store.contents_eq_nil hn⟩
    · simp only [sessionManagerReader, listMessages, MailboxServer.list, MailboxServer.withFolder, Process.select, hr,
        hl, Except.map]
    · simp only [storeReader, hl, Except.map]
  · refine .inr ⟨⟨{ p.sess with
      selectedFolder := MailboxServer.folderOrInbox (rpcFolder mailbox)
      msgs := (p.store.contents loc).map (Message.info recentKeys) }, st⟩, st, recentKeys, ?_, ?_,
      ⟨hst, congrFun hc loc⟩, ⟨d, hli.disk⟩, hst, ⟨d, ul, hli⟩, congrFun hc loc⟩
    · simp only [sessionManagerReader, listMessages, MailboxServer.list, MailboxServer.withFolder, Process.select, hr,
        hl, Except.map, map_map]
      rfl
    · simp only [storeReader, hl, Except.map, map_map]
      rfl

end Maildancer.Imap

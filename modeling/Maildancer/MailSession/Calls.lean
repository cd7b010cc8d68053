import Maildancer.MailSession
import Maildancer.Maildir.Operations

namespace Maildancer.MailSession

open Function List Text Maildir

variable {folder : Bytes} {loc : Loc}

-- The empty name is no folder here, so both ways to say INBOX agree.
lemma path_cases (hp : folderOrInboxPath folder = .ok loc) :
    isRoot folder = true ∧ equalFold folder inbox = true ∧ loc = .inbox ∨
      isRoot folder = false ∧ equalFold folder inbox = false ∧ folderPath folder = .ok loc := by
  unfold folderOrInboxPath at hp
  rcases hf : equalFold folder inbox with _ | _
  · have hi : equalFold folder (ascii "INBOX") = false := hf
    rw [hi, if_neg Bool.false_ne_true] at hp
    have hne : folder ≠ [] := by
      rintro rfl
      cases hp
    exact Or.inr ⟨by simp [isRoot, hf, hne], rfl, hp⟩
  · have hi : equalFold folder (ascii "INBOX") = true := hf
    rw [if_pos hi, Except.ok.injEq] at hp
    exact Or.inl ⟨by simp [isRoot, hf], rfl, hp.symm⟩

-- The messages that Expunge takes, by their flags in the list of the session.
def flaggedUids (msgs : List MessageInfo) : List Nat :=
  (msgs.filter (ImapFlag.deleted ∈ ·.flags)).map MessageInfo.uid

lemma flaggedUids_info (recentKeys : List Bytes) (msgs : List Message) :
    flaggedUids (msgs.map (Message.info recentKeys)) = (msgs.filter Message.trashed).map Message.uid := by
  simp only [flaggedUids, filter_map, map_map, comp_def, Message.deleted_mem_info]
  rfl

variable {d : Folder} {m : Message}

namespace Process

variable {p : Process}

variable {st : Store} {ul : UidList}

lemma listFolder_spec (h : st.Good) (hp : folderOrInboxPath folder = .ok loc) :
    listFolder st folder = (st, .error .folderNotFound) ∧ st.disk loc = none ∨ ∃ st' d ul recentKeys,
        listFolder st folder = (st', .ok ((st.contents loc).map (Message.info recentKeys))) ∧
        st'.Good ∧ st'.Listed loc d ul ∧ st'.contents = st.contents := by
  obtain ⟨-, hf, rfl⟩ | ⟨-, hf, hp⟩ := path_cases hp
  · obtain ⟨st', d, ul, recentKeys, hl, hr⟩ := Store.list_spec h
    exact Or.inr ⟨st', d, ul, recentKeys, by simp only [listFolder, hf, ite_true, hl], hr⟩
  · simpa only [listFolder, hf, Bool.false_eq_true, ite_false] using Store.listInFolder_spec h hp

lemma select_spec (h : p.store.Good) (hp : folderOrInboxPath folder = .ok loc) :
    p.select folder = (p, .error (.select folder .folderNotFound)) ∧ p.store.disk loc = none ∨
      ∃ st d ul recentKeys,
        p.select folder = (⟨{ p.sess with
            selectedFolder := folder
            msgs := (p.store.contents loc).map (Message.info recentKeys) }, st⟩,
          .ok ((p.store.contents loc).map (Message.info recentKeys))) ∧
        st.Good ∧ st.Listed loc d ul ∧ st.contents = p.store.contents := by
  obtain ⟨hl, hn⟩ | ⟨st, d, ul, recentKeys, hl, hr⟩ := listFolder_spec h hp
  · exact Or.inl ⟨by simp only [select, hl], hn⟩
  · exact Or.inr ⟨st, d, ul, recentKeys, by simp only [select, hl], hr⟩

lemma retrieve_ok {sess : Session} (h : st.Good) (hl : st.Listed loc d ul)
    (hp : folderOrInboxPath folder = .ok loc) (hs : sess.selectedFolder = folder)
    (hm : m ∈ st.contents loc) : retrieve ⟨sess, st⟩ m.uid = (⟨sess, st⟩, .ok m.file.data) := by
  have hf := Store.retrieveAt_ok h hl hm
  simp only [retrieve, hs]
  obtain ⟨hr, -, rfl⟩ | ⟨hr, -, hfo⟩ := path_cases hp
  · simp only [hr, ite_true, Store.retrieve, hf, Except.mapError]
  · simp only [hr, Bool.false_eq_true, ite_false, Store.retrieveFromFolder, hfo, hf, Except.mapError]

-- The loop of Expunge cannot fail once the folder has a place.
lemma markDeleted_spec (hp : folderOrInboxPath folder = .ok loc) (st : Store) (msgs : List MessageInfo) :
    ∃ marks, markDeleted folder st msgs =
        ({ st with deleted := update st.deleted loc marks }, .ok (flaggedUids msgs)) ∧
      ∀ uid, uid ∈ marks ↔ uid ∈ st.deleted loc ∨ uid ∈ flaggedUids msgs := by
  have hm : ∀ st : Store, ∀ uid, (if isRoot folder then (st.delete uid, Except.ok ())
      else st.deleteInFolder folder uid) = (st.markDeleted loc uid, Except.ok ()) := by
    intro st uid
    obtain ⟨hr, -, rfl⟩ | ⟨hr, -, hf⟩ := path_cases hp
    · simp [hr, Store.delete]
    · simp [hr, Store.deleteInFolder, hf]
  induction msgs generalizing st with
  | nil => exact ⟨st.deleted loc, by simp [markDeleted, flaggedUids], by simp [flaggedUids]⟩
  | cons m msgs ih =>
    by_cases hfl : ImapFlag.deleted ∈ m.flags
    · obtain ⟨marks, hl, hmem⟩ := ih (st.markDeleted loc m.uid)
      refine ⟨marks, ?_, fun uid => ?_⟩
      · simp only [markDeleted, hfl, ite_true, hm, hl]
        simp [Store.markDeleted, flaggedUids, hfl, Except.map]
      · simp [hmem, Store.markDeleted, flaggedUids, hfl, or_assoc, or_left_comm]
    · obtain ⟨marks, hl, hmem⟩ := ih st
      refine ⟨marks, ?_, fun uid => ?_⟩
      · simp [markDeleted, hfl, hl, flaggedUids]
      · simp [hmem, flaggedUids, hfl]

lemma expunge_route (hp : folderOrInboxPath folder = .ok loc) : ∃ missing, ∀ st : Store,
      (if isRoot folder then st.expunge else st.expungeFolder folder) = st.expungeAt loc missing := by
  obtain ⟨hr, -, rfl⟩ | ⟨hr, -, hf⟩ := path_cases hp
  · exact ⟨.mailboxNotFound, fun st => by simp only [hr, ite_true, Store.expunge]⟩
  · exact ⟨.folderNotFound, fun st => by
      simp only [hr, Bool.false_eq_true, ite_false, Store.expungeFolder, hf]⟩

lemma expunge_spec {recentKeys : List Bytes}
    (sess : Session) (h : st.Good) (hl : st.Listed loc d ul) (hp : folderOrInboxPath folder = .ok loc)
    (hf : sess.selectedFolder = folder)
    (hms : sess.msgs = (st.contents loc).map (Message.info recentKeys)) :
    ∃ sess' st' expelled, expunge ⟨sess, st⟩ = (⟨sess', st'⟩, .ok expelled) ∧ st'.Good ∧
      sess'.deleted = sess.deleted ∧
      st'.contents = update st.contents loc ((st.contents loc).filter (¬ ·.trashed)) ∧
      ∃ e, st'.disk loc = some e := by
  obtain ⟨marks, hlo, hmem⟩ := markDeleted_spec hp st sess.msgs
  rw [hms, flaggedUids_info] at hlo hmem
  have hma : ∀ m ∈ st.contents loc, m.uid ∈ marks ↔ m.trashed := by
    intro m hm
    rw [hmem, h.quiet loc, mem_map]
    constructor
    · rintro (hnil | ⟨n, hn, hu⟩)
      · cases hnil
      · obtain ⟨hn, ht⟩ := mem_filter.mp hn
        rw [← Folder.eq_of_uid (Store.contents_increasing h loc) hn hm hu]
        exact of_decide_eq_true ht
    · exact fun ht => Or.inr ⟨m, mem_filter.mpr ⟨hm, decide_eq_true ht⟩, rfl⟩
  have hk : (st.contents loc).filter (·.uid ∉ marks) = (st.contents loc).filter (¬ ·.trashed) :=
    filter_congr fun m hm => by simp [hma m hm]
  simp only [expunge, hf, hms, hlo]
  by_cases hno : (st.contents loc).filter Message.trashed = []
  · -- Nothing is marked, so nothing changes.
    obtain rfl : marks = [] := by
      rw [eq_nil_iff_forall_not_mem]
      intro uid hu
      rw [hmem, h.quiet loc, hno] at hu
      simp at hu
    have hs : update st.deleted loc [] = st.deleted := by
      rw [← h.quiet loc, update_eq_self]
    have ha : (st.contents loc).filter (¬ ·.trashed) = st.contents loc := by
      rw [← hk]
      simp
    rw [ha, update_eq_self, hno, hs]
    exact ⟨_, _, _, rfl, h, rfl, rfl, d, hl.disk⟩
  · have he : ((st.contents loc).filter Message.trashed).map Message.uid ≠ [] := by
      simpa using hno
    have hne : marks ≠ [] := by
      rintro rfl
      obtain ⟨uid, hu⟩ := exists_mem_of_ne_nil _ he
      exact not_mem_nil ((hmem uid).mpr (Or.inr hu))
    obtain ⟨missing, hr⟩ := expunge_route hp
    obtain ⟨st', hex, hg, ⟨e, hd⟩, hc⟩ := Store.expungeAt_spec h hl hne missing
    rw [if_neg he, hr, hex]
    rw [hk] at hc
    obtain ⟨-, hgo⟩ | ⟨st'', _, _, _, hse, hgd, hli, hs⟩ :=
      select_spec (p := ⟨sess, st'⟩) hg hp
    · exact absurd (hd.symm.trans hgo) (by simp)
    · simp only [hse]
      exact ⟨_, _, _, rfl, hgd, rfl, hs.trans hc, _, hli.disk⟩

end Process

namespace MailboxServer

variable {p : Process}

-- Every call selects its folder first, which fails only where there is none.
lemma withFolder_cases {α : Type} (act : Process → Process × Except RpcError α) (h : p.store.Good)
    (hp : folderOrInboxPath (folderOrInbox folder) = .ok loc) :
    withFolder p folder act = (p, .error (.select (folderOrInbox folder)
        (.select (folderOrInbox folder) .folderNotFound))) ∧ p.store.contents loc = [] ∨
      ∃ st d ul recentKeys,
        withFolder p folder act = act ⟨{ p.sess with
            selectedFolder := folderOrInbox folder
            msgs := (p.store.contents loc).map (Message.info recentKeys) }, st⟩ ∧
        st.Good ∧ st.Listed loc d ul ∧ st.contents = p.store.contents := by
  obtain ⟨hs, hn⟩ | ⟨st, d, ul, recentKeys, hs, hr⟩ := Process.select_spec h hp
  · exact Or.inl ⟨by simp only [withFolder, hs], Store.contents_eq_nil hn⟩
  · exact Or.inr ⟨st, d, ul, recentKeys, by simp only [withFolder, hs], hr⟩

lemma folderOrInbox_ne_nil (folder : Bytes) : folderOrInbox folder ≠ [] := by
  unfold folderOrInbox
  split_ifs with hn
  · decide
  · exact hn

lemma list_spec (h : p.store.Good) (hp : folderOrInboxPath (folderOrInbox folder) = .ok loc) :
    (list p folder).1.store.Good ∧ (list p folder).1.store.contents = p.store.contents ∧
      ∀ msgs, (list p folder).2 = .ok msgs →
        ∃ recentKeys, msgs = (p.store.contents loc).map (Message.info recentKeys) := by
  unfold list
  obtain ⟨hc, -⟩ | ⟨st, _, _, recentKeys, hc, hg, -, hco⟩ :=
    withFolder_cases (fun p => (p, .ok p.sess.msgs)) h hp
  · rw [hc]
    exact ⟨h, rfl, fun msgs hm => (nomatch hm)⟩
  · rw [hc]
    exact ⟨hg, hco, fun msgs hm => ⟨recentKeys, (Except.ok.inj hm).symm⟩⟩

-- A folder that is there is always listed.
lemma list_present (h : p.store.Good)
    (hp : folderOrInboxPath (folderOrInbox folder) = .ok loc) (hd : p.store.disk loc = some d) :
    ∃ recentKeys, (list p folder).2 = .ok ((p.store.contents loc).map (Message.info recentKeys)) := by
  obtain ⟨-, hn⟩ | ⟨st, _, _, recentKeys, hs, -⟩ := Process.select_spec h hp
  · cases hd.symm.trans hn
  · exact ⟨recentKeys, by simp only [list, withFolder, hs]⟩

lemma fetch_spec (h : p.store.Good) (hp : folderOrInboxPath (folderOrInbox folder) = .ok loc) (uid : Nat) :
    (fetch p folder uid).1.store.Good ∧ (fetch p folder uid).1.store.contents = p.store.contents := by
  unfold fetch
  obtain ⟨hc, -⟩ | ⟨st, _, _, _, hc, hg, hl, hco⟩ :=
    withFolder_cases (fun p => lift _ _) h hp
  · rw [hc]
    exact ⟨h, rfl⟩
  rw [hc]
  have hs : ∀ sess : Session, sess.selectedFolder = folderOrInbox folder →
      (Process.retrieve ⟨sess, st⟩ uid).1.store = st := by
    intro sess hse
    simp only [Process.retrieve, hse]
    obtain ⟨hr, -, rfl⟩ | ⟨hr, -, hf⟩ := path_cases hp
    · simp [hr, Store.retrieve, Store.retrieveAt_fst hl.cache]
    · simp only [hr, Bool.false_eq_true, ite_false, Store.retrieveFromFolder, hf,
        Store.retrieveAt_fst hl.cache]
  simp only [lift, hs]
  exact ⟨hg, hco⟩

lemma fetch_ok (h : p.store.Good) (hp : folderOrInboxPath (folderOrInbox folder) = .ok loc)
    (hm : m ∈ p.store.contents loc) : (fetch p folder m.uid).2 = .ok m.file.data := by
  unfold fetch
  obtain ⟨-, hn⟩ | ⟨st, _, _, _, hc, hg, hl, hco⟩ :=
    withFolder_cases (fun p => lift _ _) h hp
  · rw [hn] at hm
    exact absurd hm not_mem_nil
  · rw [hc, lift, Process.retrieve_ok hg hl hp rfl (hco ▸ hm)]
    rfl

lemma setFlags_spec (h : p.store.Good) (hp : folderOrInboxPath (folderOrInbox folder) = .ok loc)
    (uid : Nat) (flags : List ImapFlag) :
    (∃ p' e, setFlags p folder uid flags = (p', .error e) ∧ (∀ m ∈ p.store.contents loc, m.uid ≠ uid) ∧
        p'.store.Good ∧ p'.store.contents = p.store.contents) ∨
      ∃ p', setFlags p folder uid flags = (p', .ok ()) ∧ (∃ m ∈ p.store.contents loc, m.uid = uid) ∧
        p'.store.Good ∧ p'.store.contents = update p.store.contents loc
          ((p.store.contents loc).map (Message.setFlags uid (convertFlagsFromImap flags))) := by
  unfold setFlags
  obtain ⟨hc, he⟩ | ⟨st, d, ul, recentKeys, hc, hg, hl, hco⟩ :=
    withFolder_cases (fun p => lift .setFlags _) h hp
  · rw [hc, he]
    exact Or.inl ⟨_, _, rfl, by simp, h, rfl⟩
  rw [hc, ← hco]
  simp only [Process.setFlags, folderOrInbox_ne_nil, ite_false]
  obtain ⟨hs, ha⟩ | ⟨st', hs, hgo, hpr, hcn⟩ :=
    Store.setFlagsInFolder_spec hg hl hp uid flags
  · simp only [hs]
    exact Or.inl ⟨_, _, rfl, ha, hg, rfl⟩
  · simp only [hs]
    exact Or.inr ⟨_, rfl, hpr, hgo, hcn⟩

lemma expunge_spec (h : p.store.Good) (hp : folderOrInboxPath (folderOrInbox folder) = .ok loc) :
    (expunge p folder).1.store.Good ∧ (expunge p folder).1.store.contents = update p.store.contents loc
        ((p.store.contents loc).filter (¬ ·.trashed)) ∧
      (p.store.contents loc ≠ [] → (∃ expelled, (expunge p folder).2 = .ok expelled) ∧
        ∃ d, (expunge p folder).1.store.disk loc = some d) := by
  unfold expunge
  obtain ⟨hc, he⟩ | ⟨st, d, ul, recentKeys, hc, hg, hl, hco⟩ :=
    withFolder_cases (fun p => lift .expunge p.expunge) h hp
  · rw [hc, he]
    refine ⟨h, ?_, fun hne => absurd rfl hne⟩
    rw [filter_nil, ← he, update_eq_self]
  obtain ⟨sess', st', expelled, hex, hgo, -, hcn, hd⟩ :=
    Process.expunge_spec { p.sess with
      selectedFolder := folderOrInbox folder
      msgs := (p.store.contents loc).map _ } hg hl hp rfl
      (by rw [hco])
  rw [hc, hex, ← hco]
  exact ⟨hgo, hcn, fun _ => ⟨⟨expelled, rfl⟩, hd⟩⟩

end MailboxServer

end Maildancer.MailSession

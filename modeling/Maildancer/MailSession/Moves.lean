import Maildancer.MailSession.Calls

namespace Maildancer.Maildir

open Function List Text

namespace Store

-- A folder as it was last listed: nothing waits in new/, nothing is marked, and the UID list is the one
-- of the file, whether or not it is still cached.
structure Undisturbed (st : Store) (loc : Loc) (d : Folder) (ul : UidList) : Prop where
  disk : st.disk loc = some d
  opened : d.Opened ul
  cache : ∀ ul', st.cache loc = some ul' → ul' = ul
  quiet : st.deleted loc = []

variable {st later : Store} {loc : Loc} {d : Folder} {ul : UidList}

lemma Undisturbed.of_eq (h : st.Undisturbed loc d ul) (hd : later.disk loc = st.disk loc)
    (hc : ∀ ul', later.cache loc = some ul' → st.cache loc = some ul') (hq : later.deleted loc = st.deleted loc) :
    later.Undisturbed loc d ul :=
  ⟨hd.trans h.disk, h.opened, fun ul' he => h.cache ul' (hc ul' he), hq.trans h.quiet⟩

lemma Undisturbed.cached (h : st.Undisturbed loc d ul) :
    ((st.setFolder loc d).cacheUidList loc ul).Undisturbed loc d ul := by
  refine ⟨setFolder_disk_self st loc d, h.opened, fun ul' he => ?_, h.quiet⟩
  simpa [cacheUidList] using he.symm

lemma Undisturbed.lookupKey (h : st.Undisturbed loc d ul) (uid : Nat) :
    (st.lookupKey loc uid).1.Undisturbed loc d ul := by
  unfold Store.lookupKey
  rcases st.cache loc with _ | ul'
  · rw [h.disk]
    dsimp only
    rw [loadUidList_opened h.opened]
    exact h.cached
  · exact h

lemma Undisturbed.listDir (h : st.Undisturbed loc d ul) : (st.listDir loc d).1.Undisturbed loc d ul ∧
      (st.listDir loc d).1.cache loc = some ul ∧
      ∃ recentKeys, (st.listDir loc d).2 = (d.messages ul).map (Message.info recentKeys) := by
  have hl := loadUidList_opened h.opened st.now
  have hu := Folder.unseen_eq_self h.opened.new_nil
  unfold Store.listDir
  dsimp only
  rw [hu, hl, h.quiet]
  exact ⟨h.cached, by simp [cacheUidList], d.maildirNewKeys, Folder.filterMap_messageInfo _ _ _⟩

-- A copy into another folder.
lemma Undisturbed.copyMessage (h : st.Undisturbed loc d ul) {folder destFolder : Bytes}
    (hp : folderOrInboxPath folder = .ok loc) (hne : folderOrInboxPath destFolder ≠ .ok loc) (uid : Nat)
    (fresh : Bytes) : (st.copyMessage folder uid destFolder fresh).1.Undisturbed loc d ul := by
  have hu := h.lookupKey uid
  unfold Store.copyMessage
  rw [hp]
  rcases hd : folderOrInboxPath destFolder with e | dest
  · exact h
  have hno : loc ≠ dest := fun heq => hne (by rw [hd, heq])
  have hi : ∀ st : Store, st.Undisturbed loc d ul → (st.initDir dest).1.Undisturbed loc d ul := by
    intro st hst
    unfold initDir
    split
    · exact hst
    · exact hst.of_eq (setFolder_disk_of_ne hno) (fun _ he => he) rfl
  have hin := hi _ hu
  dsimp only
  split
  · exact hu
  split
  · exact hin
  split
  · exact hin
  · refine hin.of_eq (setFolder_disk_of_ne hno) (fun ul' he => ?_) rfl
    simpa [assignUid, invalidateUidListCache, setFolder, update_of_ne hno] using he

lemma Undisturbed.expunged (h : st.Undisturbed loc d ul) (uid : Nat) (missing : StoreError) :
    ∃ st' e ul', (st.markDeleted loc uid).expungeAt loc missing = (st', .ok ()) ∧ st'.Undisturbed loc e ul' ∧
      e.messages ul' = (d.messages ul).filter (·.uid ≠ uid) := by
  have hm : (st.markDeleted loc uid).deleted loc = [uid] := by
    simp [markDeleted, h.quiet]
  obtain ⟨e, ul', hex, ho, hms⟩ := expungeAt_opened (show (st.markDeleted loc uid).disk loc = some d from h.disk)
    h.opened hm (cons_ne_nil _ _) missing
  refine ⟨_, e, ul', hex, ⟨setFolder_disk_self _ loc e, ho, fun ul'' he => ?_, update_self _ _ _⟩, ?_⟩
  · simp [invalidateUidListCache] at he
  · simpa using hms

end Store

end Maildancer.Maildir

namespace Maildancer.MailSession

open Function List Text Maildir

variable {folder : Bytes} {loc : Loc} {d : Folder} {ul : UidList} {p : Process}

lemma folderPath_ne_inbox : folderPath folder ≠ .ok .inbox := by
  unfold folderPath
  split_ifs <;> simp

lemma equalFold_of_path {other : Bytes} (hp : folderOrInboxPath folder = .ok loc)
    (ho : folderOrInboxPath other = .ok loc) : equalFold folder other = true := by
  obtain ⟨-, hf, rfl⟩ | ⟨-, -, hf⟩ := path_cases hp
  · obtain ⟨-, hg, -⟩ | ⟨-, -, hg⟩ := path_cases ho
    · simp only [equalFold, decide_eq_true_eq] at hf hg ⊢
      exact hf.trans hg.symm
    · exact absurd hg folderPath_ne_inbox
  · obtain ⟨-, -, rfl⟩ | ⟨-, -, hg⟩ := path_cases ho
    · exact absurd hf folderPath_ne_inbox
    · unfold folderPath at hf hg
      split_ifs at hf hg
      obtain rfl := Loc.folder.inj (Except.ok.inj (hf.trans hg.symm))
      simp [equalFold]

lemma Process.select_undisturbed (h : p.store.Undisturbed loc d ul) (hp : folderOrInboxPath folder = .ok loc) :
    ∃ p' recentKeys, p.select folder = (p', .ok ((d.messages ul).map (Message.info recentKeys))) ∧
      p'.sess.selectedFolder = folder ∧ p'.sess.msgs = (d.messages ul).map (Message.info recentKeys) ∧
      p'.store.Undisturbed loc d ul ∧ p'.store.cache loc = some ul := by
  obtain ⟨hu, hc, recentKeys, hms⟩ := h.listDir
  have hl : Process.listFolder p.store folder = ((p.store.listDir loc d).1, .ok (p.store.listDir loc d).2) := by
    obtain ⟨-, hf, rfl⟩ | ⟨-, hf, hp⟩ := path_cases hp
    · simp only [Process.listFolder, hf, ite_true, Store.list, Store.ensureMaildir, h.disk]
    · simp only [Process.listFolder, hf, Bool.false_eq_true, ite_false, Store.listInFolder, hp, h.disk]
  rw [hms] at hl
  exact ⟨⟨{ p.sess with
      selectedFolder := folder
      msgs := (d.messages ul).map (Message.info recentKeys) }, (p.store.listDir loc d).1⟩, recentKeys,
    by simp only [Process.select, hl], rfl, rfl, hu, hc⟩

namespace MailboxServer

lemma list_undisturbed (h : p.store.Undisturbed loc d ul)
    (hp : folderOrInboxPath (folderOrInbox folder) = .ok loc) :
    ∃ p' recentKeys, list p folder = (p', .ok ((d.messages ul).map (Message.info recentKeys))) := by
  obtain ⟨p', recentKeys, hs, -, hm, -⟩ := Process.select_undisturbed h hp
  exact ⟨p', recentKeys, by simp only [list, withFolder, hs, hm]⟩

lemma fetch_undisturbed (h : p.store.Undisturbed loc d ul)
    (hp : folderOrInboxPath (folderOrInbox folder) = .ok loc) (uid : Nat) :
    (fetch p folder uid).1.store.Undisturbed loc d ul := by
  obtain ⟨p', recentKeys, hs, hf, -, hu, hc⟩ := Process.select_undisturbed h hp
  have hst : (Process.retrieve p' uid).1.store = p'.store := by
    simp only [Process.retrieve, hf]
    obtain ⟨hr, -, rfl⟩ | ⟨hr, -, hfo⟩ := path_cases hp
    · simp [hr, Store.retrieve, Store.retrieveAt_fst hc]
    · simp only [hr, Bool.false_eq_true, ite_false, Store.retrieveFromFolder, hfo, Store.retrieveAt_fst hc]
  simp only [fetch, withFolder, hs, lift, hst]
  exact hu

-- A message that has been moved is gone from its folder, and nothing else is.
lemma move_undisturbed (h : p.store.Undisturbed loc d ul) (hp : folderOrInboxPath folder = .ok loc)
    {uid newUid : Nat} {destFolder fresh : Bytes} {p' : Process}
    (hm : move p folder uid destFolder fresh = (p', .ok newUid)) :
    ∃ e ul', p'.store.Undisturbed loc e ul' ∧ e.messages ul' = (d.messages ul).filter (·.uid ≠ uid) := by
  have hne : folder ≠ [] := by
    rintro rfl
    cases hp
  unfold move lift Process.moveMessage at hm
  rw [if_neg hne] at hm
  dsimp only at hm
  by_cases hs : equalFold folder destFolder = true
  · rw [if_pos hs] at hm
    cases (Prod.mk.inj hm).2
  rw [if_neg hs] at hm
  have hu := h.copyMessage hp (fun hd => hs (equalFold_of_path hp hd)) uid fresh
  rcases hc : p.store.copyMessage folder uid destFolder fresh with ⟨st, result⟩
  rw [hc] at hm hu
  rcases result with e | copied
  · cases (Prod.mk.inj hm).2
  dsimp only at hm hu
  obtain ⟨missing, hmark, hroute⟩ : ∃ missing,
      (if equalFold folder inbox then (st.delete uid, Except.ok ()) else st.deleteInFolder folder uid) =
        (st.markDeleted loc uid, .ok ()) ∧
      ∀ st : Store, (if equalFold folder inbox then st.expunge else st.expungeFolder folder) =
        st.expungeAt loc missing := by
    obtain ⟨-, hf, rfl⟩ | ⟨-, hf, hpa⟩ := path_cases hp
    · exact ⟨.mailboxNotFound, by simp [hf, Store.delete], fun st => by simp [hf, Store.expunge]⟩
    · exact ⟨.folderNotFound, by simp [hf, Store.deleteInFolder, hpa], fun st => by
        simp [hf, Store.expungeFolder, hpa]⟩
  obtain ⟨st', e, ul', hex, hund, hms⟩ := hu.expunged uid missing
  rw [hmark] at hm
  dsimp only at hm
  rw [hroute, hex] at hm
  cases (Prod.mk.inj hm).1
  exact ⟨e, ul', hund, hms⟩

end MailboxServer

end Maildancer.MailSession

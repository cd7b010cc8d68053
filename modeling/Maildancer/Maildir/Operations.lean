import Maildancer.Maildir.Contents

namespace Maildancer.Maildir

open Function List Text UidList

-- What List answers for a message; Recent is known from the move out of new/.
def Message.info (recentKeys : List Bytes) (m : Message) : MessageInfo :=
  ⟨m.uid, m.file.key, m.file.data.length,
    (if m.file.key ∈ recentKeys then [ImapFlag.recent] else []) ++ convertFlags m.file.flags⟩

def Message.trashed (m : Message) : Prop := Flag.trashed ∈ m.file.flags

instance : DecidablePred Message.trashed := fun m => inferInstanceAs (Decidable (_ ∈ m.file.flags))

lemma Message.deleted_mem_info (recentKeys : List Bytes) (m : Message) :
    ImapFlag.deleted ∈ (m.info recentKeys).flags ↔ m.trashed := by
  have hr : ImapFlag.deleted ∉ (if m.file.key ∈ recentKeys then [ImapFlag.recent] else []) := by
    split <;> decide
  simp only [info, mem_append, hr, false_or, convertFlags, mem_filterMap, trashed]
  constructor
  · rintro ⟨f, hf, hc⟩
    cases f <;> simp_all [convertFlag]
  · exact fun h => ⟨.trashed, h, rfl⟩

lemma Folder.filterMap_messageInfo (d : Folder) (recentKeys : List Bytes) (ul : UidList) :
    ul.entries.filterMap (messageInfo recentKeys d []) = (d.messages ul).map (Message.info recentKeys) := by
  rw [Folder.messages, map_filterMap]
  congr 1
  funext e
  simp only [messageInfo, not_mem_nil, ite_false, Option.map_map]
  rcases hf : d.messageByKey e.key with _ | f
  · rfl
  · obtain ⟨-, hk⟩ := messageByKey_eq_some.mp hf
    simp [Message.info, hk]

lemma Folder.sound_of_no_uidlist {d : Folder} (hf : d.uidlist = none)
    (hr : d.unseen.curDirKeys.length + 1 < 2 ^ 32)
    (hv : ∀ key ∈ d.unseen.curDirKeys, UidList.ValidKey key) : d.Sound where
  settled u hre := by
    rw [hf] at hre
    cases hre
  room := hr
  nodup := d.unseen.curDirKeys_nodup
  validKeys := hv

lemma Folder.empty_sound : Folder.empty.Sound :=
  Folder.sound_of_no_uidlist rfl (by decide) (by simp [Folder.empty, Folder.unseen, Folder.curDirKeys])

lemma Folder.contents_empty (now : Nat) : Folder.empty.contents now = [] := rfl

variable {m : Message} {folder key : Bytes}

namespace Store

def contents (st : Store) (loc : Loc) : List Message :=
  match st.disk loc with
  | none => []
  | some d => d.contents st.now

-- Every folder can be listed and no deletion is pending.
structure Good (st : Store) : Prop where
  sound : ∀ loc d, st.disk loc = some d → d.Sound
  quiet : ∀ loc, st.deleted loc = []

lemma good_of_inbox {st : Store} {d : Folder} (hi : st.disk .inbox = some d)
    (hf : ∀ name, st.disk (.folder name) = none) (hm : ∀ loc, st.deleted loc = []) (hs : d.Sound) :
    st.Good := by
  refine ⟨fun loc e hd => ?_, hm⟩
  rcases loc with _ | name
  · obtain rfl := Option.some.inj (hi.symm.trans hd)
    exact hs
  · cases (hf name).symm.trans hd

-- The store has just read the folder, so its cache is the list on disk.
structure Listed (st : Store) (loc : Loc) (d : Folder) (ul : UidList) : Prop where
  disk : st.disk loc = some d
  opened : d.Opened ul
  cache : st.cache loc = some ul

variable {st : Store} {loc : Loc} {d : Folder} {ul : UidList}

lemma contents_eq_nil (hd : st.disk loc = none) : st.contents loc = [] := by
  simp [contents, hd]

lemma contents_eq (hd : st.disk loc = some d) : st.contents loc = d.contents st.now := by
  simp [contents, hd]

@[simp] lemma setFolder_disk_self (st : Store) (loc : Loc) (d : Folder) :
    (st.setFolder loc d).disk loc = some d := by
  simp [setFolder]

lemma setFolder_disk_of_ne {other : Loc} (hne : other ≠ loc) :
    (st.setFolder loc d).disk other = st.disk other := by
  simp [setFolder, hne]

lemma contents_setFolder (st : Store) (loc other : Loc) (d : Folder) : (st.setFolder loc d).contents other =
      if other = loc then d.contents st.now else st.contents other := by
  rcases eq_or_ne other loc with rfl | hne
  · simp [contents, setFolder]
  · simp [contents, setFolder, hne]

lemma Good.setFolder (h : st.Good) (hd : d.Sound) : (st.setFolder loc d).Good := by
  refine ⟨fun other e he => ?_, h.quiet⟩
  rcases eq_or_ne other loc with rfl | hne
  · rw [setFolder_disk_self, Option.some.injEq] at he
    exact he ▸ hd
  · rw [setFolder_disk_of_ne hne] at he
    exact h.sound other e he

lemma Listed.contents_eq (h : st.Listed loc d ul) : st.contents loc = d.messages ul := by
  rw [Store.contents_eq h.disk, h.opened.contents_eq]

lemma contents_increasing (h : st.Good) (loc : Loc) :
    (st.contents loc).Pairwise fun m n => m.uid < n.uid := by
  rcases hd : st.disk loc with _ | d
  · rw [contents_eq_nil hd]
    exact List.Pairwise.nil
  · rw [contents_eq hd]
    exact Folder.messages_increasing ((h.sound loc d hd).opened st.now).settled.consistent

lemma contents_length_lt (h : st.Good) (loc : Loc) : (st.contents loc).length < 2 ^ 32 := by
  cases hd : st.disk loc with
  | none =>
    rw [contents_eq_nil hd]
    decide
  | some d =>
    rw [contents_eq hd]
    have ho := (h.sound loc d hd).opened st.now
    have hk := (ho.settled.consistent.keys_nodup.subperm fun key => (ho.keys key).mp).length_le
    have hr := ho.room
    have hle := length_filterMap_le (fun e => ((d.opened st.now).2.messageByKey e.key).map (⟨e.uid, ·⟩ : _ → Message))
      (d.opened st.now).1.entries
    rw [UidList.keys, length_map] at hk
    exact lt_of_le_of_lt hle (by omega)

lemma disk_of_mem_contents (hm : m ∈ st.contents loc) : ∃ d, st.disk loc = some d := by
  rcases hd : st.disk loc with _ | d
  · rw [contents_eq_nil hd] at hm
    exact absurd hm not_mem_nil
  · exact ⟨d, rfl⟩

lemma listDir_spec (h : st.Good) (hd : st.disk loc = some d) : (st.listDir loc d).1.Good ∧
      (st.listDir loc d).1.Listed loc (d.opened st.now).2 (d.opened st.now).1 ∧
      (st.listDir loc d).1.contents = st.contents ∧
      (st.listDir loc d).2 = (st.contents loc).map (Message.info d.maildirNewKeys) := by
  have ho := (h.sound loc d hd).opened st.now
  refine ⟨?_, ⟨?_, ho, ?_⟩, ?_, ?_⟩
  · exact ⟨(h.setFolder ho.sound).sound, h.quiet⟩
  · simp [listDir, setFolder, cacheUidList, Folder.opened]
  · simp [listDir, cacheUidList, Folder.opened]
  · funext other
    change (st.setFolder loc (d.opened st.now).2).contents other = _
    rw [contents_setFolder, ho.contents_eq]
    split_ifs with heq
    · rw [heq, contents_eq hd]
      rfl
    · rfl
  · rw [contents_eq hd]
    simp only [listDir, h.quiet loc]
    exact Folder.filterMap_messageInfo _ _ _

lemma Good.setFolder_empty (h : st.Good) (hd : st.disk loc = none) :
    (st.setFolder loc .empty).Good ∧ (st.setFolder loc .empty).contents = st.contents := by
  refine ⟨h.setFolder Folder.empty_sound, funext fun other => ?_⟩
  rw [contents_setFolder, Folder.contents_empty]
  split_ifs with heq
  · rw [heq, contents_eq_nil hd]
  · rfl

lemma addFolder_spec (h : st.Good) (folder : Bytes) :
    (st.addFolder folder).Good ∧ (st.addFolder folder).contents = st.contents ∧
      (st.addFolder folder).disk .inbox = st.disk .inbox := by
  unfold addFolder
  split
  · exact ⟨h, rfl, rfl⟩
  · rename_i hd
    obtain ⟨hg, hc⟩ := h.setFolder_empty hd
    exact ⟨hg, hc, setFolder_disk_of_ne (by simp)⟩

lemma foldl_addFolder_spec (h : st.Good) (folders : List Bytes) :
    (folders.foldl addFolder st).Good ∧ (folders.foldl addFolder st).contents = st.contents ∧
      (folders.foldl addFolder st).disk .inbox = st.disk .inbox := by
  induction folders generalizing st with
  | nil => exact ⟨h, rfl, rfl⟩
  | cons folder folders ih =>
    obtain ⟨hg, hc, hd⟩ := addFolder_spec h folder
    obtain ⟨hr, hs, hi⟩ := ih hg
    exact ⟨hr, hs.trans hc, hi.trans hd⟩

lemma ensureMaildir_spec (h : st.Good) : st.ensureMaildir.1.Good ∧ st.ensureMaildir.1.contents = st.contents ∧
      st.ensureMaildir.1.disk .inbox = some st.ensureMaildir.2 := by
  unfold ensureMaildir
  split
  · rename_i d hd
    exact ⟨h, rfl, hd⟩
  rename_i hd
  obtain ⟨hg, hc⟩ := h.setFolder_empty hd
  obtain ⟨hr, hs, hi⟩ := foldl_addFolder_spec hg defaultFolders
  exact ⟨hr, hs.trans hc, hi.trans (setFolder_disk_self _ _ _)⟩

lemma listInFolder_spec (h : st.Good) (hp : folderPath folder = .ok loc) :
    st.listInFolder folder = (st, .error .folderNotFound) ∧ st.disk loc = none ∨ ∃ st' d ul recentKeys,
        st.listInFolder folder = (st', .ok ((st.contents loc).map (Message.info recentKeys))) ∧
        st'.Good ∧ st'.Listed loc d ul ∧ st'.contents = st.contents := by
  simp only [listInFolder, hp]
  rcases hd : st.disk loc with _ | d
  · exact Or.inl ⟨rfl, rfl⟩
  · obtain ⟨hg, hl, hc, hi⟩ := listDir_spec h hd
    exact Or.inr ⟨_, _, _, d.maildirNewKeys, by simp only [← hi], hg, hl, hc⟩

lemma list_spec (h : st.Good) :
    ∃ st' d ul recentKeys, st.list = (st', (st.contents .inbox).map (Message.info recentKeys)) ∧
      st'.Good ∧ st'.Listed .inbox d ul ∧ st'.contents = st.contents := by
  obtain ⟨he, hs, hd⟩ := ensureMaildir_spec h
  obtain ⟨hg, hl, hc, hi⟩ := listDir_spec he hd
  refine ⟨_, _, _, st.ensureMaildir.2.maildirNewKeys, ?_, hg, hl, hc.trans hs⟩
  rw [← hs, ← hi]
  rfl

end Store

-- As reflag, for the message with the UID.
def Message.setFlags (uid : Nat) (flags : List Flag) (m : Message) : Message :=
  if m.uid = uid then ⟨m.uid, { m.file with flags := infoFromFlags flags.dedup }⟩ else m

lemma Folder.messages_setFlags_uid {d : Folder} {ul : UidList} (h : ul.Consistent) {uid : Nat}
    (hk : ⟨uid, key⟩ ∈ ul.entries) (flags : List Flag) :
    (d.setFlags key flags).messages ul = (d.messages ul).map (Message.setFlags uid flags) := by
  rw [Folder.messages_setFlags]
  refine map_congr_left fun m hm => ?_
  have hl := (Folder.mem_messages.mp hm).1
  have hi : m.file.key = key ↔ m.uid = uid := by
    constructor
    · rintro rfl
      exact h.uid_unique hl hk
    · rintro rfl
      exact h.key_unique hl hk
  simp [Message.reflag, Message.setFlags, hi]

namespace Store

variable {st : Store} {loc : Loc} {d : Folder} {ul : UidList}

lemma Listed.mem_contents (h : st.Listed loc d ul) {uid : Nat}
    (hk : ⟨uid, key⟩ ∈ ul.entries) : ∃ f, d.messageByKey key = some f ∧ ⟨uid, f⟩ ∈ st.contents loc := by
  obtain ⟨f, hf, hfk⟩ := mem_map.mp ((h.opened.keys key).mp (mem_keys.mpr ⟨uid, hk⟩))
  refine ⟨f, Folder.messageByKey_eq_some.mpr ⟨hf, hfk⟩, ?_⟩
  rw [h.contents_eq, Folder.mem_messages]
  exact ⟨hfk ▸ hk, hf⟩

lemma setFlagsInFolder_spec (h : st.Good) (hl : st.Listed loc d ul)
    (hp : folderOrInboxPath folder = .ok loc) (uid : Nat) (flags : List ImapFlag) :
    (st.setFlagsInFolder folder uid flags = (st, .error .messageNotFound) ∧
        ∀ m ∈ st.contents loc, m.uid ≠ uid) ∨
      ∃ st', st.setFlagsInFolder folder uid flags = (st', .ok ()) ∧ st'.Good ∧
        (∃ m ∈ st.contents loc, m.uid = uid) ∧
        st'.contents = update st.contents loc
          ((st.contents loc).map (Message.setFlags uid (convertFlagsFromImap flags))) := by
  simp only [setFlagsInFolder, hp, lookupKey, hl.cache, findKey]
  rcases hk : ul.uidToKey uid with _ | key
  · refine Or.inl ⟨rfl, fun m hm hu => ?_⟩
    rw [hl.contents_eq, Folder.mem_messages, hu] at hm
    have hf := (hl.opened.settled.consistent.uidToKey_iff uid _).mpr hm.1
    exact absurd (hk.symm.trans hf) (by simp)
  · have he := (hl.opened.settled.consistent.uidToKey_iff uid key).mp hk
    obtain ⟨f, hf, hmem⟩ := hl.mem_contents he
    simp only [hl.disk, hf]
    have ho := hl.opened.setFlags key (convertFlagsFromImap flags)
    refine Or.inr ⟨_, rfl, h.setFolder ho.sound, ⟨_, hmem, rfl⟩, funext fun other => ?_⟩
    rw [contents_setFolder, ho.contents_eq, update_apply, hl.contents_eq,
      Folder.messages_setFlags_uid hl.opened.settled.consistent he]

lemma retrieveAt_fst (hc : st.cache loc = some ul) (missing : StoreError) (uid : Nat) :
    (st.retrieveAt loc missing uid).1 = st := by
  unfold retrieveAt
  split_ifs
  · rfl
  split
  · rfl
  · simp only [lookupKey, hc]
    split <;> rfl

lemma retrieveAt_ok (h : st.Good) (hl : st.Listed loc d ul) (hm : m ∈ st.contents loc)
    (missing : StoreError) : st.retrieveAt loc missing m.uid = (st, .ok m.file.data) := by
  rw [hl.contents_eq, Folder.mem_messages] at hm
  obtain ⟨he, hf⟩ := hm
  have hk := (hl.opened.settled.consistent.uidToKey_iff m.uid m.file.key).mpr he
  have hfo := Folder.messageByKey_eq_some.mpr ⟨hf, rfl⟩
  have hma : m.uid ∉ st.deleted loc := by simp [h.quiet loc]
  simp only [retrieveAt, hma, if_false, hl.disk, lookupKey, hl.cache, findKey, hk, retrieveFromDir,
    Option.bind_some, hfo]

lemma loadUidList_opened (ho : d.Opened ul) (now : Nat) : d.loadUidList now d.curDirKeys = (ul, d) := by
  have he := ho.opened_eq now
  rwa [Folder.opened, Folder.unseen_eq_self ho.new_nil] at he

-- The marked messages go and the others stay; nothing is cached afterwards.
lemma expungeAt_opened (hd : st.disk loc = some d) (ho : d.Opened ul) {marks : List Nat}
    (hm : st.deleted loc = marks) (hne : marks ≠ []) (missing : StoreError) :
    ∃ e ul', st.expungeAt loc missing =
        ((Store.setFolder { st with deleted := update st.deleted loc [] } loc e).invalidateUidListCache loc, .ok ()) ∧
      e.Opened ul' ∧ e.messages ul' = (d.messages ul).filter (·.uid ∉ marks) := by
  have hc := ho.settled.consistent
  refine ⟨_, _, ?_, ho.expungeKeys (marks.filterMap ul.uidToKey), ?_⟩
  · simp only [expungeAt, hm, hne, ite_false, hd, loadUidList_opened ho]
  rw [ho.messages_expungeKeys]
  refine filter_congr fun m hm => ?_
  have he := (Folder.mem_messages.mp hm).1
  congr 1
  rw [mem_filterMap, eq_iff_iff]
  refine not_congr ⟨?_, fun hma => ⟨m.uid, hma, (hc.uidToKey_iff _ _).mpr he⟩⟩
  rintro ⟨uid, hma, hk⟩
  rwa [hc.uid_unique he ((hc.uidToKey_iff _ _).mp hk)]

lemma expungeAt_spec (h : st.Good) (hl : st.Listed loc d ul) {marks : List Nat} (hne : marks ≠ [])
    (missing : StoreError) :
    ∃ st', Store.expungeAt { st with deleted := update st.deleted loc marks } loc missing =
        (st', .ok ()) ∧ st'.Good ∧ (∃ e, st'.disk loc = some e) ∧
      st'.contents = update st.contents loc ((st.contents loc).filter (·.uid ∉ marks)) := by
  have hd : Store.disk { st with deleted := update st.deleted loc marks } loc = some d := hl.disk
  obtain ⟨e, ul', hex, ho, hms⟩ := expungeAt_opened hd hl.opened (update_self loc marks st.deleted) hne missing
  refine ⟨_, hex, ⟨(h.setFolder ho.sound).sound, fun other => ?_⟩,
    ⟨_, setFolder_disk_self { st with deleted := _ } loc _⟩, funext fun other => ?_⟩
  · change update (update st.deleted loc marks) loc [] other = []
    rw [update_idem, update_apply]
    split_ifs
    · rfl
    · exact h.quiet other
  · change (st.setFolder loc _).contents other = _
    rw [contents_setFolder, ho.contents_eq, hms, update_apply, hl.contents_eq]

end Store

end Maildancer.Maildir

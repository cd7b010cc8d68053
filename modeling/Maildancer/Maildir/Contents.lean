import Maildancer.Maildir.Store
import Maildancer.UidList.Load

namespace Maildancer.Maildir

open List Text UidList

structure Message where
  uid : Nat
  file : MsgFile
deriving DecidableEq

variable {key : Bytes} {m : Message}

namespace Folder

-- What every listing does first: new/ moves into cur/ and the uidlist is brought up to date.
def opened (d : Folder) (now : Nat) : UidList × Folder :=
  d.unseen.loadUidList now d.unseen.curDirKeys

-- The files in the order of their UIDs. An entry whose file is gone is passed over.
def messages (d : Folder) (ul : UidList) : List Message :=
  ul.entries.filterMap fun e => (d.messageByKey e.key).map (⟨e.uid, ·⟩)

-- What a listing would show now: new/ is moved to cur/ and the list reconciled first.
def contents (d : Folder) (now : Nat) : List Message := (d.opened now).2.messages (d.opened now).1

-- The list can be loaded, and there are numbers left for the files not yet in it.
def Sound (d : Folder) : Prop := Loadable d.uidlist d.unseen.curDirKeys

-- After a listing nothing is new and the list has exactly the keys of cur/.
structure Opened (d : Folder) (ul : UidList) : Prop where
  new_nil : d.new = []
  settled : Settled d.uidlist ul
  keys : ∀ key, key ∈ ul.keys ↔ key ∈ d.curDirKeys
  room : d.curDirKeys.length + 1 < 2 ^ 32

variable {d : Folder} {ul : UidList}

lemma messageByKey_eq_some {f : MsgFile} :
    d.messageByKey key = some f ↔ f ∈ d.cur ∧ f.key = key := by
  constructor
  · intro h
    exact ⟨mem_of_find?_eq_some h, by simpa using List.find?_some h⟩
  rintro ⟨hmem, rfl⟩
  rw [messageByKey]
  cases hf : d.cur.find? (·.key = f.key) with
  | none => exact absurd hmem fun hm => by simpa using List.find?_eq_none.mp hf f hm
  | some g =>
    have hk : g.key = f.key := by simpa using List.find?_some hf
    exact congrArg some
      (inj_on_of_nodup_map d.curDirKeys_nodup (mem_of_find?_eq_some hf) hmem hk)

lemma mem_messages : m ∈ d.messages ul ↔ ⟨m.uid, m.file.key⟩ ∈ ul.entries ∧ m.file ∈ d.cur := by
  simp only [messages, mem_filterMap, Option.map_eq_some_iff, messageByKey_eq_some]
  constructor
  · rintro ⟨e, he, f, ⟨hf, hk⟩, rfl⟩
    exact ⟨hk ▸ he, hf⟩
  · rintro ⟨he, hf⟩
    exact ⟨_, he, m.file, ⟨hf, rfl⟩, rfl⟩

lemma messages_increasing (h : ul.Consistent) : (d.messages ul).Pairwise fun m n => m.uid < n.uid := by
  refine pairwise_filterMap.mpr (h.increasing.imp ?_)
  rintro e e' hlt m hm m' hm'
  obtain ⟨f, -, rfl⟩ := Option.map_eq_some_iff.mp hm
  obtain ⟨f', -, rfl⟩ := Option.map_eq_some_iff.mp hm'
  exact hlt

lemma eq_of_increasing {first second : List Message} (hf : first.Pairwise fun m n => m.uid < n.uid)
    (hs : second.Pairwise fun m n => m.uid < n.uid) (h : ∀ m, m ∈ first ↔ m ∈ second) :
    first = second := by
  have : Std.Irrefl fun m n : Message => m.uid < n.uid := ⟨fun m => lt_irrefl m.uid⟩
  have : Std.Antisymm fun m n : Message => m.uid < n.uid := ⟨fun m n hmn hnm => absurd hmn hnm.asymm⟩
  exact hf.eq_of_mem_iff hs h

lemma eq_of_uid {msgs : List Message} (h : msgs.Pairwise fun m n => m.uid < n.uid) {n : Message}
    (hm : m ∈ msgs) (hn : n ∈ msgs) (hu : m.uid = n.uid) : m = n := by
  have hno := pairwise_map.mpr (h.imp fun hlt => hlt.ne)
  exact inj_on_of_nodup_map hno hm hn hu

lemma unseen_eq_self (h : d.new = []) : d.unseen = d := by
  ext1
  · exact h.symm
  · simp [unseen, h]
  · rfl

lemma Opened.opened_eq (h : d.Opened ul) (now : Nat) : d.opened now = (ul, d) := by
  rw [opened, unseen_eq_self h.new_nil, loadUidList, h.settled.load_same_keys now h.keys]

lemma Opened.contents_eq (h : d.Opened ul) (now : Nat) : d.contents now = d.messages ul := by
  rw [contents, h.opened_eq]

lemma Sound.opened (h : d.Sound) (now : Nat) : (d.opened now).2.Opened (d.opened now).1 := by
  obtain ⟨hs, hk⟩ := Loadable.load now h
  exact ⟨rfl, hs, hk, h.room⟩

lemma Opened.validKeys (h : d.Opened ul) : ∀ key ∈ d.curDirKeys, ValidKey key := by
  intro key hk
  obtain ⟨uid, he⟩ := mem_keys.mp ((h.keys key).mpr hk)
  exact h.settled.storable.validKey _ he

lemma Opened.sound (h : d.Opened ul) : d.Sound := by
  rw [Sound, unseen_eq_self h.new_nil]
  refine ⟨?_, h.room, d.curDirKeys_nodup, h.validKeys⟩
  intro u hr
  obtain rfl := h.settled.unique hr
  rw [h.settled.consistent.assigns_eq_zero fun key hk => (h.keys key).mpr hk]
  exact ⟨h.settled, h.settled.storable.next_lt⟩

lemma curDirKeys_setFlags (d : Folder) (key : Bytes) (flags : List Flag) :
    (d.setFlags key flags).curDirKeys = d.curDirKeys := by
  simp only [curDirKeys, Folder.setFlags, map_map]
  congr 1
  funext f
  simp only [Function.comp_apply]
  split <;> rfl

lemma Opened.setFlags (h : d.Opened ul) (key : Bytes) (flags : List Flag) :
    (d.setFlags key flags).Opened ul := by
  refine ⟨h.new_nil, h.settled, ?_, ?_⟩ <;> rw [curDirKeys_setFlags]
  · exact h.keys
  · exact h.room

lemma messageByKey_setFlags (key other : Bytes) (flags : List Flag) :
    (d.setFlags key flags).messageByKey other = (d.messageByKey other).map fun f =>
      if f.key = key then { f with flags := infoFromFlags flags.dedup } else f := by
  simp only [messageByKey, Folder.setFlags, List.find?_map]
  congr 2
  funext f
  simp only [Function.comp_apply]
  split <;> rfl

end Folder

-- The effect of a rename of the file on the message.
def Message.reflag (key : Bytes) (flags : List Flag) (m : Message) : Message :=
  if m.file.key = key then ⟨m.uid, { m.file with flags := infoFromFlags flags.dedup }⟩ else m

namespace Folder

variable {d : Folder} {ul : UidList}

lemma messages_setFlags (key : Bytes) (flags : List Flag) :
    (d.setFlags key flags).messages ul = (d.messages ul).map (Message.reflag key flags) := by
  simp only [messages, map_filterMap, messageByKey_setFlags, Option.map_map]
  congr 1
  funext e
  congr 1
  funext f
  simp only [Function.comp_apply, Message.reflag]
  split <;> rfl

lemma Opened.mem_curDirKeys_remove (h : d.Opened ul) (gone : List Bytes) :
    key ∈ (d.removeMessages gone).curDirKeys ↔ key ∈ ul.keys ∧ key ∉ gone := by
  rw [h.keys]
  simp only [curDirKeys, removeMessages, mem_map, mem_filter, decide_eq_true_eq]
  constructor
  · rintro ⟨f, ⟨hf, hg⟩, rfl⟩
    exact ⟨⟨f, hf, rfl⟩, hg⟩
  · rintro ⟨⟨f, hf, rfl⟩, hg⟩
    exact ⟨f, ⟨hf, hg⟩, rfl⟩

lemma Opened.room_remove (h : d.Opened ul) (gone : List Bytes) :
    ul.uidNext + ul.assigns (d.removeMessages gone).curDirKeys < 2 ^ 32 := by
  rw [h.settled.consistent.assigns_eq_zero fun _ hk => ((h.mem_curDirKeys_remove gone).mp hk).1]
  exact h.settled.storable.next_lt

lemma Opened.expungeKeys (h : d.Opened ul) (gone : List Bytes) :
    (d.expungeKeys ul gone).Opened (ul.reconcile (d.removeMessages gone).curDirKeys).1 := by
  have hn := (d.removeMessages gone).curDirKeys_nodup
  have hvalid : ∀ key ∈ (d.removeMessages gone).curDirKeys, ValidKey key := fun key hk =>
    h.validKeys key ((h.keys key).mp ((h.mem_curDirKeys_remove gone).mp hk).1)
  refine ⟨h.new_nil, ?_, fun key => h.settled.consistent.mem_keys_reconcile (h.room_remove gone), ?_⟩
  · exact settled_write (h.settled.consistent.reconcile hn (h.room_remove gone))
      (h.settled.storable_reconcile hn hvalid (h.room_remove gone))
  · refine lt_of_le_of_lt (Nat.succ_le_succ ?_) h.room
    simp only [curDirKeys, Folder.expungeKeys, removeMessages, length_map]
    exact length_filter_le _ _

lemma Opened.messages_expungeKeys (h : d.Opened ul) (gone : List Bytes) :
    (d.expungeKeys ul gone).messages (ul.reconcile (d.removeMessages gone).curDirKeys).1 =
      (d.messages ul).filter (·.file.key ∉ gone) := by
  have hc := (h.expungeKeys gone).settled.consistent
  refine eq_of_increasing (messages_increasing hc)
    ((messages_increasing h.settled.consistent).filter _) fun m => ?_
  have hn : (ul.sweep (d.removeMessages gone).curDirKeys).newKeys
      (d.removeMessages gone).curDirKeys = [] := by
    rw [← length_eq_zero_iff]
    exact h.settled.consistent.assigns_eq_zero fun _ hk =>
      ((h.mem_curDirKeys_remove gone).mp hk).1
  have hen : (ul.reconcile (d.removeMessages gone).curDirKeys).1.entries =
      (ul.sweep (d.removeMessages gone).curDirKeys).entries := by
    rw [reconcile_entries (h.room_remove gone), hn]
    exact append_nil _
  rw [mem_messages, hen, mem_sweep, h.mem_curDirKeys_remove]
  simp only [Folder.expungeKeys, removeMessages, mem_filter, mem_messages, decide_eq_true_eq]
  constructor
  · rintro ⟨⟨he, -, hg⟩, hf, -⟩
    exact ⟨⟨he, hf⟩, hg⟩
  · rintro ⟨⟨he, hf⟩, hg⟩
    exact ⟨⟨he, mem_keys.mpr ⟨m.uid, he⟩, hg⟩, hf, hg⟩

-- Nothing is lost and nothing comes up but the keys that arrived.
structure Grown (old current : List Message) (keys : List Bytes) : Prop where
  kept : ∀ m ∈ old, m ∈ current
  added : ∀ m ∈ current, m ∈ old ∨ m.file.key ∈ keys
  arrived : ∀ key ∈ keys, ∃ m ∈ current, m.file.key = key
  fresh : ∀ m ∈ old, m.file.key ∉ keys

lemma Grown.uid_new_iff {old current : List Message} {keys : List Bytes}
    (h : Grown old current keys) (hi : current.Pairwise fun m n => m.uid < n.uid)
    (hm : m ∈ current) : m.uid ∉ old.map Message.uid ↔ m.file.key ∈ keys := by
  constructor
  · intro hnew
    rcases h.added m hm with hold | hk
    · exact absurd (mem_map_of_mem hold) hnew
    · exact hk
  · intro hk hu
    obtain ⟨n, hn, heq⟩ := mem_map.mp hu
    obtain rfl := eq_of_uid hi (h.kept n hn) hm heq
    exact h.fresh n hn hk

-- Deliveries touch new/ only.
structure Arrived (d : Folder) (files : List NewFile) (e : Folder) : Prop where
  new : e.new = files
  cur : e.cur = d.cur
  uidlist : e.uidlist = d.uidlist

section Arrived

variable {files : List NewFile} {e : Folder} (h : d.Opened ul) (harrived : Arrived d files e)

include harrived

lemma Arrived.cur_unseen : e.unseen.cur = d.cur ++ files.map (·.toCur []) := by
  simp [unseen, harrived.new, harrived.cur]

lemma Arrived.curDirKeys_unseen : e.unseen.curDirKeys = d.curDirKeys ++ files.map NewFile.key := by
  rw [curDirKeys, harrived.cur_unseen, map_append, map_map]
  rfl

lemma Arrived.fresh : ∀ f ∈ files, f.key ∉ d.curDirKeys := by
  intro f hf hc
  have hd := e.distinct
  rw [harrived.new, harrived.cur] at hd
  exact (nodup_append.mp hd).2.2 _ (mem_map_of_mem hf) _ hc rfl

include h

lemma Opened.assigns_arrived : ul.assigns e.unseen.curDirKeys = files.length := by
  have hn : ∀ key ∈ d.curDirKeys, ul.keyToUid key ≠ none := fun key hk => by
    rw [ne_eq, h.settled.consistent.keyToUid_eq_none, not_not, h.keys]
    exact hk
  have hs : ∀ f ∈ files, ul.keyToUid f.key = none := fun f hf => by
    rw [h.settled.consistent.keyToUid_eq_none, h.keys]
    exact harrived.fresh f hf
  have hsw : ul.sweep e.unseen.curDirKeys = ul := sweep_eq_self fun entry he => by
    rw [harrived.curDirKeys_unseen]
    exact mem_append_left _ ((h.keys _).mp (mem_keys.mpr ⟨entry.uid, he⟩))
  rw [assigns, hsw, newKeys, harrived.curDirKeys_unseen, filter_append,
    filter_eq_nil_iff.mpr, filter_eq_self.mpr, nil_append, length_map]
  · intro key hk
    obtain ⟨f, hf, rfl⟩ := mem_map.mp hk
    exact decide_eq_true (hs f hf)
  · intro key hk
    simpa using hn key hk

variable (hvalid : ∀ f ∈ files, ValidKey f.key) (hnext : ul.uidNext + files.length < 2 ^ 32)
  (hlength : d.curDirKeys.length + files.length + 1 < 2 ^ 32)

include hvalid hnext hlength

lemma Opened.sound_arrived : e.Sound := by
  refine ⟨fun u hr => ?_, ?_, e.unseen.curDirKeys_nodup, fun key hk => ?_⟩
  · rw [harrived.uidlist] at hr ⊢
    obtain rfl := h.settled.unique hr
    rw [h.assigns_arrived harrived]
    exact ⟨h.settled, hnext⟩
  · rw [harrived.curDirKeys_unseen, length_append, length_map]
    exact hlength
  · rw [harrived.curDirKeys_unseen] at hk
    rcases mem_append.mp hk with hk | hk
    · exact h.validKeys key hk
    · obtain ⟨f, hf, rfl⟩ := mem_map.mp hk
      exact hvalid f hf

omit hvalid hnext hlength in
lemma Opened.reconcile_arrived (now : Nat) : (e.opened now).1 = (ul.reconcile e.unseen.curDirKeys).1 := by
  have hs := harrived.uidlist ▸ h.settled
  exact load_settled now hs

omit hvalid hlength in
lemma Opened.uidNext_arrived (now : Nat) : (e.opened now).1.uidNext = ul.uidNext + files.length := by
  have ha := h.assigns_arrived harrived
  rw [h.reconcile_arrived harrived, reconcile_uidNext (ha ▸ hnext), ha]

lemma Opened.grown (now : Nat) : Grown (d.messages ul) (e.contents now) (files.map NewFile.key) := by
  have hr : ul.uidNext + ul.assigns e.unseen.curDirKeys < 2 ^ 32 := by
    rw [h.assigns_arrived harrived]
    exact hnext
  have ho := (h.sound_arrived harrived hvalid hnext hlength).opened now
  have hc : (e.opened now).2.cur = d.cur ++ files.map (·.toCur []) := harrived.cur_unseen
  have hk : ∀ entry ∈ ul.entries, entry ∈ (e.opened now).1.entries := by
    intro entry he
    rw [h.reconcile_arrived harrived]
    apply reconcile_keeps hr he
    rw [harrived.curDirKeys_unseen]
    exact mem_append_left _ ((h.keys _).mp (mem_keys.mpr ⟨entry.uid, he⟩))
  refine ⟨fun m hm => ?_, fun m hm => ?_, fun key hkey => ?_, fun m hm hkey => ?_⟩
  · obtain ⟨he, hfi⟩ := mem_messages.mp hm
    refine mem_messages.mpr ⟨hk _ he, ?_⟩
    rw [hc]
    exact mem_append_left _ hfi
  · obtain ⟨he, hfi⟩ := mem_messages.mp hm
    rw [hc] at hfi
    rcases mem_append.mp hfi with hfi | hfi
    · obtain ⟨uid, hold⟩ := mem_keys.mp ((h.keys _).mpr (mem_map_of_mem hfi))
      have hu := ho.settled.consistent.uid_unique (hk _ hold) he
      exact Or.inl (mem_messages.mpr ⟨hu ▸ hold, hfi⟩)
    obtain ⟨f, hf, heq⟩ := mem_map.mp hfi
    refine Or.inr (mem_map.mpr ⟨f, hf, ?_⟩)
    rw [← heq]
    rfl
  · obtain ⟨f, hf, rfl⟩ := mem_map.mp hkey
    have hfi : f.toCur [] ∈ (e.opened now).2.cur := by
      rw [hc]
      exact mem_append_right _ (mem_map_of_mem hf)
    obtain ⟨uid, he⟩ := mem_keys.mp ((ho.keys _).mpr (mem_map_of_mem hfi))
    exact ⟨⟨uid, f.toCur []⟩, mem_messages.mpr ⟨he, hfi⟩, rfl⟩
  · obtain ⟨f, hf, heq⟩ := mem_map.mp hkey
    apply harrived.fresh f hf
    rw [heq]
    exact mem_map_of_mem (mem_messages.mp hm).2

end Arrived

end Folder

end Maildancer.Maildir

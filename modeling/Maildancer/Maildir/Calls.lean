import Maildancer.Maildir.ReturnedUid
import Maildancer.Maildir.Validity

namespace Maildancer.Maildir

open Function List Text UidList

namespace Store

def deliverAt (st : Store) (loc : Loc) (d : Folder) (fresh data : Bytes) : Store × Except StoreError Unit :=
  if hfresh : fresh ∉ d.keys then (st.setFolder loc (d.deliver ⟨fresh, data⟩ hfresh), .ok ())
  else (st, .error .deliveryFailed)

def deliverToFolder (st : Store) (folder fresh data : Bytes) : Store × Except StoreError Unit :=
  let st := st.ensureMaildir.1
  match folderPath folder with
  | .error e => (st, .error e)
  | .ok loc =>
    let (st, d) := st.initDir loc
    st.deliverAt loc d fresh data

-- Deliver for a recipient of the mailbox with an extension, which may be empty.
def deliver (st : Store) (extension fresh data : Bytes) : Store × Except StoreError Unit :=
  match if validateFolderName extension then st.disk (.folder extension) else none with
  | some d => st.deliverAt (.folder extension) d fresh data
  | none =>
    let (st, d) := st.ensureMaildir
    st.deliverAt .inbox d fresh data

end Store

inductive StoreCall
  | tick (now : Nat)
  | createFolder (folder : Bytes)
  | deleteFolder (folder : Bytes)
  | renameFolder (oldName newName : Bytes)
  | deliver (extension fresh data : Bytes)
  | deliverToFolder (folder fresh data : Bytes)
  | appendToFolder (folder fresh data : Bytes) (flags : List ImapFlag)
  | copyMessage (srcFolder : Bytes) (uid : Nat) (destFolder fresh : Bytes)
  | setFlagsInFolder (folder : Bytes) (uid : Nat) (flags : List ImapFlag)
  | delete (uid : Nat)
  | deleteInFolder (folder : Bytes) (uid : Nat)
  | expunge
  | expungeFolder (folder : Bytes)
  | list
  | listInFolder (folder : Bytes)
  | retrieve (uid : Nat)
  | retrieveFromFolder (folder : Bytes) (uid : Nat)
  | uidValidity (folder : Bytes)
deriving DecidableEq

def Store.call (st : Store) : StoreCall → Store
  | .tick now => { st with now := now }
  | .createFolder folder => (st.createFolder folder).1
  | .deleteFolder folder => (st.deleteFolder folder).1
  | .renameFolder oldName newName => (st.renameFolder oldName newName).1
  | .deliver extension fresh data => (st.deliver extension fresh data).1
  | .deliverToFolder folder fresh data => (st.deliverToFolder folder fresh data).1
  | .appendToFolder folder fresh data flags => (st.appendToFolder folder fresh data flags).1
  | .copyMessage srcFolder uid destFolder fresh => (st.copyMessage srcFolder uid destFolder fresh).1
  | .setFlagsInFolder folder uid flags => (st.setFlagsInFolder folder uid flags).1
  | .delete uid => st.delete uid
  | .deleteInFolder folder uid => (st.deleteInFolder folder uid).1
  | .expunge => st.expunge.1
  | .expungeFolder folder => (st.expungeFolder folder).1
  | .list => st.list.1
  | .listInFolder folder => (st.listInFolder folder).1
  | .retrieve uid => (st.retrieve uid).1
  | .retrieveFromFolder folder uid => (st.retrieveFromFolder folder uid).1
  | .uidValidity folder => (st.uidValidity folder).1

-- The key that a call gives to a new file.
def StoreCall.Names : StoreCall → Bytes → Prop
  | .deliver _ fresh _, key | .deliverToFolder _ fresh _, key | .appendToFolder _ fresh _ _, key
  | .copyMessage _ _ _ fresh, key => key = fresh
  | _, _ => False

-- The UID that a call remembers for the next Expunge.
def StoreCall.marked : StoreCall → Option (Loc × Nat)
  | .delete uid => some (.inbox, uid)
  | .deleteInFolder folder uid => if validateFolderName folder then some (.folder folder, uid) else none
  | _ => none

-- The folder that a call takes away, with its list in the cache.
def Store.takes (st : Store) : StoreCall → Option Loc
  | .deleteFolder folder => if (st.deleteFolder folder).2.isOk then some (.folder folder) else none
  | .renameFolder oldName newName =>
    if (st.renameFolder oldName newName).2.isOk then some (.folder oldName) else none
  | _ => none

def Folder.Spare (d : Folder) (n : Nat) : Prop :=
  n + 1 < 2 ^ 32 ∧ ∀ u, readUidList d.uidlist = .ok (some u) → u.uidNext + n < 2 ^ 32

namespace Folder

variable {d e : Folder}

lemma Spare.mono {m n : Nat} (h : d.Spare n) (hmn : m ≤ n) : d.Spare m := by
  refine ⟨by have := h.1; omega, fun u hr => ?_⟩
  have := h.2 u hr
  omega

lemma Kept.loadable_of_spare (h : d.Kept) (hs : d.Spare d.keys.length) : Loadable d.uidlist d.curDirKeys := by
  have hf : d.curDirKeys.length ≤ d.keys.length := by
    rw [Folder.keys, length_append]
    omega
  refine ⟨fun u hr => ⟨h.settled u hr, ?_⟩, by have := hs.1; omega, d.curDirKeys_nodup, h.cur⟩
  have ha : u.assigns d.curDirKeys ≤ d.curDirKeys.length := length_filter_le _ _
  have := hs.2 u hr
  omega

lemma Kept.load (h : d.Kept) (hl : Loadable d.uidlist d.curDirKeys) (now : Nat) :
    (d.loadUidList now d.curDirKeys).2.Kept :=
  ⟨h.validKeys, fun _ hr => (hl.load now).1.unique hr ▸ (hl.load now).1⟩

lemma Spare.load {n : Nat} (h : d.Kept) (hs : d.Spare (d.keys.length + n)) (now : Nat) :
    (d.loadUidList now d.curDirKeys).2.Spare n := by
  have hl := h.loadable_of_spare (hs.mono (Nat.le_add_right _ _))
  have hf : d.curDirKeys.length ≤ d.keys.length := by
    rw [Folder.keys, length_append]
    omega
  refine ⟨by have := hs.1; omega, fun v hr => ?_⟩
  rw [← (hl.load now).1.unique hr]
  by_cases hre : ∃ u, readUidList d.uidlist = .ok (some u)
  · obtain ⟨u, hu⟩ := hre
    obtain ⟨hse, hro⟩ := hl.settled u hu
    have ha : u.assigns d.curDirKeys ≤ d.curDirKeys.length := length_filter_le _ _
    have := hs.2 u hu
    rw [load_settled now hse, reconcile_uidNext hro]
    omega
  · have := hs.1
    rw [load_unread now hre, bootstrap_uidNext now hl.room]
    omega

lemma rearranges_setFlags (names : Bytes → Prop) (d : Folder) (key : Bytes) (flags : List Flag) :
    Rearranges names d (d.setFlags key flags) := by
  refine ⟨rfl, fun _ h => .inl h, fun other h => .inl ?_, fun other h => ?_⟩
  · rw [curDirKeys_setFlags] at h
    exact mem_append_right _ h
  · rw [curDirKeys_setFlags]
    exact h

lemma length_keys_moveNewToCur {key : Bytes} {flags : List Flag} (h : d.moveNewToCurWithFlags key flags = some e) :
    e.keys.length ≤ d.keys.length := by
  unfold moveNewToCurWithFlags at h
  split at h
  · cases h
  case h_2 f hf =>
    cases h
    have hfe : (d.new.filter (·.key ≠ f.key)).length < d.new.length :=
      length_filter_lt_length_iff_exists.mpr ⟨f, mem_of_find?_eq_some hf, by simp⟩
    simp only [Folder.keys, maildirNewKeys, curDirKeys, moveToCur, length_append, length_map,
      length_cons, length_nil]
    omega

lemma length_keys_deliver {f : NewFile} (hf : f.key ∉ d.keys) :
    (d.deliver f hf).keys.length = d.keys.length + 1 := by
  simp only [Folder.keys, maildirNewKeys, curDirKeys, deliver, length_append, length_map, length_cons,
    length_nil]
  omega

lemma length_keys_addCopy {f : MsgFile} (hf : f.key ∉ d.keys) :
    (d.addCopy f hf).keys.length = d.keys.length + 1 := by
  simp only [Folder.keys, maildirNewKeys, curDirKeys, addCopy, length_append, length_map, length_cons,
    length_nil]
  omega

end Folder

@[ext]
-- All that the store has of one folder, on disk and in memory.
structure Slot where
  disk : Option Folder
  marks : List Nat
  cache : Option UidList

def Store.slot (st : Store) (loc : Loc) : Slot := ⟨st.disk loc, st.deleted loc, st.cache loc⟩

-- What a call does to one location that it neither marks nor takes away. The last list found under the lock
-- is cached by a listing or a lookup, and the cache is dropped by what adds a file.
inductive Change (names : Bytes → Prop) : Slot → Slot → Prop
  | arrive {d : Folder} {marks : List Nat} {cache : Option UidList} (hd : d.Kept) :
      Change names ⟨none, marks, cache⟩ ⟨some d, marks, cache⟩
  | touch {d e : Folder} {marks : List Nat} {cache : Option UidList} (h : d.Rearranges names e)
      (hcur : e.curDirKeys = d.curDirKeys) : Change names ⟨some d, marks, cache⟩ ⟨some e, marks, cache⟩
  | load {d e : Folder} {marks : List Nat} {cache cached : Option UidList} (now : Nat) (h : d.Rearranges names e)
      (hload : Loadable e.uidlist e.curDirKeys)
      (hcached : cached = some (e.loadUidList now e.curDirKeys).1 ∨ cached = none) :
      Change names ⟨some d, marks, cache⟩ ⟨some (e.loadUidList now e.curDirKeys).2, marks, cached⟩
  | reread {d : Folder} {marks : List Nat} {cache : Option UidList} (now : Nat)
      (hload : Loadable d.uidlist d.curDirKeys) :
      Change names ⟨some d, marks, cache⟩ ⟨some (d.loadUidList now d.curDirKeys).2, marks, cache⟩
  -- SetFlagsInFolder finds a listed message in new/.
  | settle {d e : Folder} {marks : List Nat} {ul : UidList} {uid : Nat} {key : Bytes} {flags : List Flag}
      (hkey : ul.uidToKey uid = some key) (hmissing : key ∉ d.curDirKeys)
      (h : d.moveNewToCurWithFlags key flags = some e) :
      Change names ⟨some d, marks, some ul⟩ ⟨some e, marks, some ul⟩
  | expunge {d : Folder} {marks : List Nat} {cache : Option UidList} (now : Nat) (gone : List Bytes)
      (hload : Loadable d.uidlist d.curDirKeys) :
      Change names ⟨some d, marks, cache⟩
        ⟨some ((d.loadUidList now d.curDirKeys).2.expungeKeys (d.loadUidList now d.curDirKeys).1 gone), [], none⟩
  | forget {disk : Option Folder} {marks : List Nat} {cache : Option UidList} :
      Change names ⟨disk, marks, cache⟩ ⟨disk, [], cache⟩

lemma Folder.Kept.expunge {d : Folder} (h : d.Kept) (hl : Loadable d.uidlist d.curDirKeys) (now : Nat)
    (gone : List Bytes) :
    ((d.loadUidList now d.curDirKeys).2.expungeKeys (d.loadUidList now d.curDirKeys).1 gone).Kept := by
  obtain ⟨hs, hk⟩ := hl.load now
  have hr : ∀ key ∈ (d.removeMessages gone).curDirKeys, key ∈ d.curDirKeys :=
    fun key hkey => Folder.curDirKeys_removeMessages hkey
  have hw := hs.reconcile_fewer (d.removeMessages gone).curDirKeys_nodup
    fun key hkey => (hk key).mpr (hr key hkey)
  refine ⟨fun key hkey => h.validKeys key ?_, fun _ hre => hw.unique hre ▸ hw⟩
  exact (mem_append.mp hkey).elim (mem_append_left _) fun hc => mem_append_right _ (hr key hc)

lemma Change.kept {names : Bytes → Prop} {s t : Slot} (h : Change names s t)
    (hn : ∀ key, names key → ValidKey key) (hs : ∀ d, s.disk = some d → d.Kept) (e : Folder) (he : t.disk = some e) :
    e.Kept := by
  cases h with
  | arrive hd => exact Option.some.inj he ▸ hd
  | touch hm hcur => exact Option.some.inj he ▸ hm.kept (hs _ rfl) hn
  | load now hm hl hc => exact Option.some.inj he ▸ (hm.kept (hs _ rfl) hn).load hl now
  | reread now hl => exact Option.some.inj he ▸ (hs _ rfl).load hl now
  | settle hk hmi hmo =>
    exact Option.some.inj he ▸ (Folder.rearranges_moveNewToCur hmo).kept (hs _ rfl) hn
  | expunge now gone hl => exact Option.some.inj he ▸ (hs _ rfl).expunge hl now gone
  | forget => exact hs e he

abbrev Steps (names : Bytes → Prop) : Slot → Slot → Prop := Relation.ReflTransGen (Change names)

lemma Steps.kept {names : Bytes → Prop} {s t : Slot} (h : Steps names s t) (hn : ∀ key, names key → ValidKey key)
    (hs : ∀ d, s.disk = some d → d.Kept) : ∀ e, t.disk = some e → e.Kept := by
  induction h with
  | refl => exact hs
  | tail _ hc ih => exact hc.kept hn ih

def Store.Roomy (st : Store) (n : Nat) : Prop :=
  ∀ loc d, st.disk loc = some d → d.Kept ∧ d.Spare (n * (d.keys.length + 1))

-- New names are fit for .uidlist, and one call does not exhaust the UIDs.
def Store.Ready (st : Store) (c : StoreCall) : Prop :=
  (∀ key, c.Names key → ValidKey key) ∧ ∀ loc d, st.disk loc = some d → d.Spare (2 * (d.keys.length + 1))

lemma Folder.empty_kept : Folder.empty.Kept :=
  ⟨fun _ hk => absurd hk not_mem_nil, fun _ hr => by cases hr⟩

namespace Store

variable {st later : Store} {names : Bytes → Prop} {loc : Loc} {n : Nat}

lemma Roomy.mono {m : Nat} (h : st.Roomy n) (hmn : m ≤ n) : st.Roomy m := by
  intro loc d hd
  obtain ⟨hk, hs⟩ := h loc d hd
  exact ⟨hk, hs.mono (Nat.mul_le_mul_right _ hmn)⟩

lemma Roomy.extends (h : st.Roomy n) (hn : n ≤ 2) (hl : st.Extends later) : later.Roomy n := by
  intro loc d hd
  obtain hs | ⟨-, he⟩ := hl loc
  · exact h loc d (hs.symm.trans hd)
  obtain rfl := Option.some.inj (he.symm.trans hd)
  refine ⟨Folder.empty_kept, ?_, fun _ hr => by cases hr⟩
  rw [show Folder.empty.keys.length = 0 from rfl]
  omega

-- Every folder changes by small steps only.
def Leads (names : Bytes → Prop) (st later : Store) : Prop := ∀ other, Steps names (st.slot other) (later.slot other)

@[refl] lemma Leads.refl : Leads names st st := fun _ => .refl

lemma Leads.trans {last : Store} (h : Leads names st later) (hl : Leads names later last) : Leads names st last :=
  fun other => (h other).trans (hl other)

lemma leads_at (loc : Loc) (hs : Steps names (st.slot loc) (later.slot loc))
    (ho : ∀ other, other ≠ loc → later.slot other = st.slot other) : Leads names st later := by
  intro other
  rcases eq_or_ne other loc with rfl | hne
  · exact hs
  · rw [ho other hne]

variable {other : Loc} {c : StoreCall}

lemma slot_setFolder_of_ne {d : Folder} (h : other ≠ loc) :
    (st.setFolder loc d).slot other = st.slot other := by
  rw [slot, setFolder_disk_of_ne h]
  rfl

lemma slot_setFolder_self (d : Folder) : (st.setFolder loc d).slot loc = ⟨some d, st.deleted loc, st.cache loc⟩ := by
  rw [slot, setFolder_disk_self]
  rfl

lemma slot_of_disk {d : Folder} (h : st.disk loc = some d) : st.slot loc = ⟨some d, st.deleted loc, st.cache loc⟩ := by
  rw [slot, h]

lemma slot_cached_of_ne {d : Folder} {ul : UidList} (h : other ≠ loc) :
    ((st.setFolder loc d).cacheUidList loc ul).slot other = st.slot other := by
  simp [slot, cacheUidList, setFolder, update_of_ne h]

lemma slot_dropped_of_ne {d : Folder} (h : other ≠ loc) :
    ((st.setFolder loc d).invalidateUidListCache loc).slot other = st.slot other := by
  simp [slot, invalidateUidListCache, setFolder, update_of_ne h]

lemma slot_cached_self (d : Folder) (ul : UidList) :
    ((st.setFolder loc d).cacheUidList loc ul).slot loc = ⟨some d, st.deleted loc, some ul⟩ := by
  simp [slot, cacheUidList, setFolder]

lemma slot_dropped_self (d : Folder) :
    ((st.setFolder loc d).invalidateUidListCache loc).slot loc = ⟨some d, st.deleted loc, none⟩ := by
  simp [slot, invalidateUidListCache, setFolder]

lemma leads_cached {d e : Folder} (hd : st.disk loc = some d) (h : d.Rearranges names e)
    (hl : Loadable e.uidlist e.curDirKeys) (now : Nat) :
    Leads names st ((st.setFolder loc (e.loadUidList now e.curDirKeys).2).cacheUidList loc
      (e.loadUidList now e.curDirKeys).1) := by
  refine leads_at loc ?_ fun _ hne => slot_cached_of_ne hne
  rw [slot_of_disk hd, slot_cached_self]
  exact .single (.load now h hl (.inl rfl))

lemma leads_assignUid {d e : Folder} (hd : st.disk loc = some d) (h : d.Rearranges names e)
    (hl : Loadable e.uidlist e.curDirKeys) : Leads names st (st.assignUid loc e).1 := by
  unfold assignUid
  refine leads_at loc ?_ fun _ hne => slot_dropped_of_ne hne
  rw [slot_of_disk hd, slot_dropped_self]
  exact .single (.load st.now h hl (.inr rfl))

lemma leads_touch {d e : Folder} (hd : st.disk loc = some d) (h : d.Rearranges names e)
    (hc : e.curDirKeys = d.curDirKeys) : Leads names st (st.setFolder loc e) := by
  refine leads_at loc ?_ fun _ hne => slot_setFolder_of_ne hne
  rw [slot_of_disk hd, slot_setFolder_self]
  exact .single (.touch h hc)

lemma leads_extends (h : st.Extends later) (hr : later.deleted = st.deleted ∧ later.cache = st.cache) :
    Leads names st later := by
  intro other
  rw [slot, slot, hr.1, hr.2]
  obtain hs | ⟨hn, he⟩ := h other
  · rw [hs]
  · rw [hn, he]
    exact .single (.arrive Folder.empty_kept)

lemma addFolder_rest (st : Store) (folder : Bytes) :
    (st.addFolder folder).deleted = st.deleted ∧ (st.addFolder folder).cache = st.cache := by
  unfold addFolder
  cases st.disk (.folder folder) with
  | some d | none => exact ⟨rfl, rfl⟩

lemma foldl_addFolder_rest (folders : List Bytes) (st : Store) :
    (folders.foldl addFolder st).deleted = st.deleted ∧ (folders.foldl addFolder st).cache = st.cache := by
  induction folders generalizing st with
  | nil => exact ⟨rfl, rfl⟩
  | cons folder folders ih =>
    obtain ⟨hd, hc⟩ := addFolder_rest st folder
    rw [foldl_cons, (ih _).1, (ih _).2]
    exact ⟨hd, hc⟩

lemma ensureMaildir_rest (st : Store) :
    st.ensureMaildir.1.deleted = st.deleted ∧ st.ensureMaildir.1.cache = st.cache := by
  unfold ensureMaildir
  rcases st.disk .inbox with _ | d
  · exact foldl_addFolder_rest defaultFolders _
  · exact ⟨rfl, rfl⟩

lemma leads_ensureMaildir (st : Store) : Leads names st st.ensureMaildir.1 :=
  leads_extends (extends_ensureMaildir st) (ensureMaildir_rest st)

lemma foldl_addFolder_inbox (folders : List Bytes) (st : Store) :
    (folders.foldl addFolder st).disk .inbox = st.disk .inbox := by
  induction folders generalizing st with
  | nil => rfl
  | cons folder folders ih =>
    rw [foldl_cons, ih]
    unfold addFolder
    rcases st.disk (.folder folder) with _ | d
    · exact setFolder_disk_of_ne (by simp)
    · rfl

lemma ensureMaildir_inbox (st : Store) : st.ensureMaildir.1.disk .inbox = some st.ensureMaildir.2 := by
  unfold ensureMaildir
  rcases hd : st.disk .inbox with _ | d
  · dsimp only
    rw [foldl_addFolder_inbox, setFolder_disk_self]
  · exact hd

lemma extends_initDir (st : Store) (loc : Loc) : st.Extends (st.initDir loc).1 := by
  unfold initDir
  rcases hd : st.disk loc with _ | d
  · exact (Extends.refl st).setFolder hd
  · exact .refl st

lemma initDir_disk (st : Store) (loc : Loc) : (st.initDir loc).1.disk loc = some (st.initDir loc).2 := by
  unfold initDir
  rcases hd : st.disk loc with _ | d
  · exact setFolder_disk_self _ _ _
  · exact hd

lemma leads_initDir (st : Store) (loc : Loc) : Leads names st (st.initDir loc).1 := by
  refine leads_extends (extends_initDir st loc) ?_
  unfold initDir
  cases st.disk loc with
  | some d | none => exact ⟨rfl, rfl⟩

lemma lookupKey_cases (st : Store) (loc : Loc) (uid : Nat) :
    (st.lookupKey loc uid).1 = st ∨ ∃ d, st.disk loc = some d ∧
      (st.lookupKey loc uid).1 = (st.setFolder loc (d.loadUidList st.now d.curDirKeys).2).cacheUidList loc
        (d.loadUidList st.now d.curDirKeys).1 := by
  unfold lookupKey
  rcases st.cache loc with _ | ul
  · rcases hd : st.disk loc with _ | d
    · exact .inl rfl
    · exact .inr ⟨d, rfl, rfl⟩
  · exact .inl rfl

lemma lookupKey_ok {uid : Nat} {key : Bytes} (h : (st.lookupKey loc uid).2 = .ok key) :
    ∃ ul, (st.lookupKey loc uid).1.cache loc = some ul ∧ ul.uidToKey uid = some key := by
  have hf : ∀ ul : UidList, findKey ul uid = .ok key → ul.uidToKey uid = some key := by
    intro ul hul
    unfold findKey at hul
    rcases hk : ul.uidToKey uid with _ | found
    · rw [hk] at hul
      cases hul
    · rw [hk] at hul
      exact congrArg some (Except.ok.inj hul)
  unfold lookupKey at h ⊢
  rcases hc : st.cache loc with _ | ul
  · rw [hc] at h
    rcases hd : st.disk loc with _ | d
    · rw [hd] at h
      cases h
    · rw [hd] at h
      exact ⟨_, by simp [cacheUidList], hf _ h⟩
  · rw [hc] at h
    exact ⟨ul, hc, hf ul h⟩

lemma Roomy.loadable (h : st.Roomy 1) {d : Folder} (hd : st.disk loc = some d) :
    Loadable d.uidlist d.curDirKeys := by
  obtain ⟨hk, hs⟩ := h loc d hd
  exact hk.loadable_of_spare (hs.mono (by omega))

lemma leads_lookupKey (h : st.Roomy 1) (loc : Loc) (uid : Nat) : Leads names st (st.lookupKey loc uid).1 := by
  obtain hs | ⟨d, hd, hl⟩ := lookupKey_cases st loc uid
  · rw [hs]
  · rw [hl]
    exact leads_cached hd (.refl names d) (h.loadable hd) st.now

lemma Roomy.lookupKey (h : st.Roomy (n + 1)) (loc : Loc) (uid : Nat) : (st.lookupKey loc uid).1.Roomy n := by
  obtain hs | ⟨d, hd, hl⟩ := lookupKey_cases st loc uid
  · rw [hs]
    exact h.mono (by omega)
  rw [hl]
  intro other e he
  rcases eq_or_ne other loc with rfl | hne
  · obtain rfl := Option.some.inj ((setFolder_disk_self st other _).symm.trans he)
    obtain ⟨hk, hsp⟩ := h other d hd
    have hlo := (h.mono (by omega : 1 ≤ n + 1)).loadable hd
    refine ⟨hk.load hlo st.now, ?_⟩
    have hke : (d.loadUidList st.now d.curDirKeys).2.keys = d.keys := rfl
    rw [hke]
    exact Folder.Spare.load hk (hsp.mono (by rw [Nat.succ_mul]; omega)) st.now
  · exact h.mono (by omega) other e ((setFolder_disk_of_ne hne).symm.trans he)

lemma Roomy.loadable_rearranged (h : st.Roomy 1) (hn : ∀ key, names key → ValidKey key) {d e : Folder}
    (hd : st.disk loc = some d) (hm : d.Rearranges names e) (hl : e.keys.length ≤ d.keys.length + 1) :
    Loadable e.uidlist e.curDirKeys := by
  obtain ⟨hk, hs⟩ := h loc d hd
  refine (hm.kept hk hn).loadable_of_spare ⟨?_, fun u hr => ?_⟩
  · have := hs.1
    omega
  · have := hs.2 u (hm.uidlist ▸ hr)
    omega

section Call

lemma createFolder_rest (st : Store) (folder : Bytes) :
    (st.createFolder folder).1.deleted = st.deleted ∧ (st.createFolder folder).1.cache = st.cache := by
  unfold createFolder
  rcases folderPath folder with e | loc
  · exact ⟨rfl, rfl⟩
  dsimp only
  rcases st.disk loc with _ | d
  · exact ensureMaildir_rest st
  · exact ⟨rfl, rfl⟩

variable {fresh : Bytes}

lemma leads_deliverAt {d : Folder} (hd : st.disk loc = some d) (hn : names fresh) (data : Bytes) :
    Leads names st (st.deliverAt loc d fresh data).1 := by
  unfold deliverAt
  split_ifs with hf
  · exact .refl
  · obtain ⟨hm, hc⟩ := Folder.rearranges_deliver (f := ⟨fresh, data⟩) hf hn
    exact leads_touch hd hm hc

lemma leads_deliverToFolder (st : Store) (folder : Bytes) (hn : names fresh) (data : Bytes) :
    Leads names st (st.deliverToFolder folder fresh data).1 := by
  unfold deliverToFolder
  refine (leads_ensureMaildir st).trans ?_
  rcases folderPath folder with e | loc
  · exact .refl
  · exact (leads_initDir _ loc).trans (leads_deliverAt (initDir_disk _ loc) hn data)

lemma leads_deliver (st : Store) (extension : Bytes) (hn : names fresh) (data : Bytes) :
    Leads names st (st.deliver extension fresh data).1 := by
  unfold deliver
  rcases ht : if validateFolderName extension then st.disk (.folder extension) else none with _ | d
  · exact (leads_ensureMaildir st).trans (leads_deliverAt (ensureMaildir_inbox st) hn data)
  have hd : st.disk (.folder extension) = some d := by
    split_ifs at ht
    exact ht
  exact leads_deliverAt hd hn data

lemma leads_expungeAt (hst : st.Roomy 1) (loc : Loc) (missing : StoreError) :
    Leads names st (st.expungeAt loc missing).1 := by
  unfold expungeAt
  dsimp only
  split_ifs with hn
  · refine leads_at loc ?_ fun _ hne => ?_
    · simp only [slot, update_self, hn]
      exact .refl
    · simp [slot, hne]
  · rcases hd : st.disk loc with _ | d
    · refine leads_at loc ?_ fun _ hne => ?_
      · simp only [slot, update_self]
        exact .single .forget
      · simp [slot, hne]
    · refine leads_at loc ?_ fun _ hne => ?_
      · rw [slot_of_disk hd]
        dsimp only
        rw [slot_dropped_self]
        simp only [update_self]
        exact .single (.expunge st.now _ (hst.loadable hd))
      · dsimp only
        rw [slot_dropped_of_ne hne]
        simp [slot, hne]

lemma leads_expungeFolder (hst : st.Roomy 1) (folder : Bytes) :
    Leads names st (st.expungeFolder folder).1 := by
  unfold expungeFolder
  rcases folderPath folder with e | loc
  · exact .refl
  · exact leads_expungeAt hst loc .folderNotFound

lemma leads_listDir (hst : st.Roomy 1) (hn : ∀ key, names key → ValidKey key) {d : Folder}
    (hd : st.disk loc = some d) : Leads names st (st.listDir loc d).1 := by
  have hm := Folder.rearranges_unseen names d
  refine leads_cached hd hm (hst.loadable_rearranged hn hd hm ?_) st.now
  simp [Folder.keys, Folder.maildirNewKeys, Folder.curDirKeys, Folder.unseen]
  omega

lemma leads_list (hst : st.Roomy 1) (hn : ∀ key, names key → ValidKey key) :
    Leads names st st.list.1 := by
  unfold list
  exact (leads_ensureMaildir st).trans
    (leads_listDir (hst.extends (by omega) (extends_ensureMaildir st)) hn (ensureMaildir_inbox st))

lemma leads_listInFolder (hst : st.Roomy 1) (hn : ∀ key, names key → ValidKey key) (folder : Bytes) :
    Leads names st (st.listInFolder folder).1 := by
  unfold listInFolder
  rcases folderPath folder with e | loc
  · exact .refl
  dsimp only
  rcases hd : st.disk loc with _ | d
  · exact .refl
  · exact leads_listDir hst hn hd

lemma leads_retrieveAt (hst : st.Roomy 1) (missing : StoreError) (uid : Nat) :
    Leads names st (st.retrieveAt loc missing uid).1 := by
  have hl : Leads names st (st.lookupKey loc uid).1 := leads_lookupKey hst loc uid
  unfold retrieveAt
  split_ifs
  · exact .refl
  rcases st.disk loc with _ | d
  · exact .refl
  · dsimp only
    cases (st.lookupKey loc uid).2 with
    | error e | ok key => exact hl

lemma leads_retrieveFromFolder (hst : st.Roomy 1) (folder : Bytes) (uid : Nat) :
    Leads names st (st.retrieveFromFolder folder uid).1 := by
  unfold retrieveFromFolder
  rcases folderPath folder with e | loc
  · exact .refl
  · exact leads_retrieveAt hst .folderNotFound uid

lemma leads_setFlagsInFolder (hst : st.Roomy 1) (folder : Bytes) (uid : Nat) (flags : List ImapFlag) :
    Leads names st (st.setFlagsInFolder folder uid flags).1 := by
  unfold setFlagsInFolder
  rcases folderOrInboxPath folder with e | loc
  · exact .refl
  refine (leads_lookupKey hst loc uid).trans ?_
  dsimp only
  rcases hk : (st.lookupKey loc uid).2 with e | key
  · exact .refl
  obtain ⟨ul, hc, hfo⟩ := lookupKey_ok hk
  rcases hd : (st.lookupKey loc uid).1.disk loc with _ | d
  · exact .refl
  dsimp only
  rcases hm : d.messageByKey key with _ | f
  · dsimp only
    cases hmo : d.moveNewToCurWithFlags key (convertFlagsFromImap flags) with
    | none => exact .refl
    | some e =>
      refine leads_at loc ?_ fun _ hne => slot_setFolder_of_ne hne
      rw [slot_of_disk hd, slot_setFolder_self, hc]
      refine .single (.settle hfo ?_ hmo)
      intro hmem
      obtain ⟨f, hf, hfk⟩ := mem_map.mp hmem
      rw [Folder.messageByKey_eq_some.mpr ⟨hf, hfk⟩] at hm
      cases hm
  · dsimp only
    exact leads_touch hd (Folder.rearranges_setFlags names d key _) (Folder.curDirKeys_setFlags d key _)

lemma leads_appendToFolder (hst : st.Roomy 1) (hn : ∀ key, names key → ValidKey key) (folder : Bytes)
    (hna : names fresh) (data : Bytes) (flags : List ImapFlag) :
    Leads names st (st.appendToFolder folder fresh data flags).1 := by
  unfold appendToFolder
  rcases folderOrInboxPath folder with e | loc
  · exact .refl
  refine (leads_initDir st loc).trans ?_
  have hr := hst.extends (by omega) (extends_initDir st loc)
  have hd := initDir_disk st loc
  dsimp only
  split_ifs with hf
  · exact .refl
  obtain ⟨hm, hc⟩ := Folder.rearranges_deliver (f := ⟨fresh, data⟩) hf hna
  cases hfo : ((st.initDir loc).2.deliver ⟨fresh, data⟩ hf).maildirNewKey
      (st.initDir loc).2.maildirNewKeys with
  | none => exact leads_touch hd hm hc
  | some key =>
    dsimp only
    cases hmo : ((st.initDir loc).2.deliver ⟨fresh, data⟩ hf).moveNewToCurWithFlags key
        (convertFlagsFromImap flags) with
    | none => exact leads_touch hd hm hc
    | some e =>
      dsimp only
      have hmv : Folder.Rearranges names _ e := Folder.rearranges_moveNewToCur hmo
      have hl := Folder.length_keys_moveNewToCur hmo
      have hlo : Loadable e.uidlist e.curDirKeys := by
        refine hr.loadable_rearranged hn hd (hm.trans hmv) ?_
        rw [Folder.length_keys_deliver] at hl
        exact hl
      refine (leads_touch hd hm hc).trans ?_
      cases (((st.initDir loc).1.setFolder loc _).assignUid loc e).2.keyToUid key with
      | some uid | none => exact leads_assignUid (setFolder_disk_self _ _ _) hmv hlo

lemma copyInto_ok {src dest e : Folder} {srcKey : Bytes} (hn : names fresh)
    (h : copyInto src dest srcKey fresh = .ok e) : dest.Rearranges names e ∧ e.keys.length ≤ dest.keys.length + 1 := by
  unfold copyInto at h
  split_ifs at h with hf
  rcases hm : src.messageByKey srcKey with _ | f
  · rw [hm] at h
    dsimp only at h
    rcases hnew : src.new.find? (·.key = srcKey) with _ | f
    · rw [hnew] at h
      cases h
    · rw [hnew] at h
      cases h
      exact ⟨(Folder.rearranges_deliver hf hn).1, (Folder.length_keys_deliver hf).le⟩
  · rw [hm] at h
    cases h
    exact ⟨Folder.rearranges_addCopy hf hn, (Folder.length_keys_addCopy hf).le⟩

lemma leads_copyMessage (hst : st.Roomy 2) (hn : ∀ key, names key → ValidKey key) (srcFolder : Bytes) (uid : Nat)
    (destFolder : Bytes) (hna : names fresh) :
    Leads names st (st.copyMessage srcFolder uid destFolder fresh).1 := by
  unfold copyMessage
  rcases folderOrInboxPath srcFolder with e | srcLoc
  · exact .refl
  rcases folderOrInboxPath destFolder with e | destLoc
  · exact .refl
  refine (leads_lookupKey (hst.mono (by omega)) srcLoc uid).trans ?_
  have hr := hst.lookupKey srcLoc uid
  dsimp only
  rcases (st.lookupKey srcLoc uid).2 with e | srcKey
  · exact .refl
  refine (leads_initDir _ destLoc).trans ?_
  have hd := initDir_disk (st.lookupKey srcLoc uid).1 destLoc
  have ha := hr.extends (by omega) (extends_initDir _ destLoc)
  dsimp only
  rcases ((st.lookupKey srcLoc uid).1.initDir destLoc).1.disk srcLoc with _ | src
  · exact .refl
  dsimp only
  cases hc : copyInto src ((st.lookupKey srcLoc uid).1.initDir destLoc).2 srcKey fresh with
  | error e => exact .refl
  | ok dest =>
    dsimp only
    obtain ⟨hm, hl⟩ := copyInto_ok hna hc
    exact leads_assignUid hd hm (ha.loadable_rearranged hn hd hm hl)

lemma steps_deleteFolder {folder : Bytes} (hk : st.takes (.deleteFolder folder) ≠ some other) :
    Steps names (st.slot other) ((st.deleteFolder folder).1.slot other) := by
  obtain ⟨e, hr⟩ | ⟨d, -, hr⟩ := deleteFolder_cases st folder
  · rw [hr]
  simp only [takes, hr] at hk
  have hne : other ≠ .folder folder := fun heq => hk (congrArg some heq.symm)
  simp only [hr, slot, update_of_ne hne]
  exact .refl

lemma steps_renameFolder (hst : st.Roomy 1) {oldName newName : Bytes}
    (hk : st.takes (.renameFolder oldName newName) ≠ some other) :
    Steps names (st.slot other) ((st.renameFolder oldName newName).1.slot other) := by
  obtain ⟨e, hr⟩ | ⟨d, hs, ht, hr⟩ := renameFolder_cases st oldName newName
  · rw [hr]
  simp only [takes, hr] at hk
  have hne : other ≠ .folder oldName := fun heq => hk (congrArg some heq.symm)
  simp only [hr, slot, update_of_ne hne]
  rcases eq_or_ne other (.folder newName) with rfl | ho
  · rw [update_self, ht]
    exact .single (.arrive (hst _ d hs).1)
  · rw [update_of_ne ho]

lemma leads_uidValidityAt (hst : st.Roomy 1) {d : Folder} (hd : st.disk loc = some d) :
    Leads names st (st.uidValidityAt loc d).1 := by
  unfold uidValidityAt
  refine leads_at loc ?_ fun _ hne => slot_setFolder_of_ne hne
  rw [slot_of_disk hd, slot_setFolder_self]
  exact .single (.reread st.now (hst.loadable hd))

lemma leads_uidValidity (hst : st.Roomy 1) (folder : Bytes) : Leads names st (st.uidValidity folder).1 := by
  have hr := hst.extends (by omega) (extends_ensureMaildir st)
  unfold uidValidity
  refine (leads_ensureMaildir st).trans ?_
  dsimp only
  split_ifs with hi
  · exact leads_uidValidityAt hr (ensureMaildir_inbox st)
  rcases folderPath folder with e | loc
  · exact .refl
  · exact (leads_initDir _ loc).trans
      (leads_uidValidityAt (hr.extends (by omega) (extends_initDir _ loc)) (initDir_disk _ loc))

end Call

lemma call_marked {uid : Nat} (h : c.marked = some (loc, uid)) : st.call c = st.markDeleted loc uid := by
  cases c with
  | delete n =>
    cases h
    rfl
  | deleteInFolder folder n =>
    simp only [StoreCall.marked] at h
    split_ifs at h with hv
    cases h
    simp [call, deleteInFolder, folderPath, hv]
  | _ => cases h

lemma call_takes (h : st.takes c = some loc) :
    (∃ d, st.disk loc = some d) ∧ (st.call c).slot loc = ⟨none, [], st.cache loc⟩ := by
  cases c with
  | deleteFolder folder =>
    obtain ⟨e, hr⟩ | ⟨d, hd, hr⟩ := deleteFolder_cases st folder
    · simp only [takes, hr] at h
      cases h
    · simp only [takes, hr] at h
      cases h
      exact ⟨⟨d, hd⟩, by simp only [call, hr, slot, update_self]⟩
  | renameFolder oldName newName =>
    obtain ⟨e, hr⟩ | ⟨d, hd, -, hr⟩ := renameFolder_cases st oldName newName
    · simp only [takes, hr] at h
      cases h
    · simp only [takes, hr] at h
      cases h
      exact ⟨⟨d, hd⟩, by simp only [call, hr, slot, update_self]⟩
  | _ => cases h

lemma call_steps (hst : st.Roomy 2) (hv : ∀ key, c.Names key → ValidKey key)
    (hm : c.marked = none) (hk : st.takes c ≠ some other) :
    Steps c.Names (st.slot other) ((st.call c).slot other) := by
  have ho := hst.mono (by omega : 1 ≤ 2)
  cases c with
  | tick now => exact .refl
  | createFolder folder =>
    exact leads_extends (extends_createFolder st folder) (createFolder_rest st folder) other
  | deleteFolder folder => exact steps_deleteFolder hk
  | renameFolder oldName newName => exact steps_renameFolder ho hk
  | deliver extension fresh data =>
    have hn : (StoreCall.deliver extension fresh data).Names fresh := rfl
    exact leads_deliver st extension hn data other
  | deliverToFolder folder fresh data =>
    have hn : (StoreCall.deliverToFolder folder fresh data).Names fresh := rfl
    exact leads_deliverToFolder st folder hn data other
  | appendToFolder folder fresh data flags => exact leads_appendToFolder ho hv folder rfl data flags other
  | copyMessage srcFolder uid destFolder fresh => exact leads_copyMessage hst hv srcFolder uid destFolder rfl other
  | setFlagsInFolder folder uid flags => exact leads_setFlagsInFolder ho folder uid flags other
  | delete uid => cases hm
  | deleteInFolder folder uid =>
    simp only [StoreCall.marked] at hm
    split_ifs at hm with hn
    simp only [call, deleteInFolder, folderPath, if_neg hn]
    exact .refl
  | expunge => exact leads_expungeAt ho .inbox .mailboxNotFound other
  | expungeFolder folder => exact leads_expungeFolder ho folder other
  | list => exact leads_list ho hv other
  | listInFolder folder => exact leads_listInFolder ho hv folder other
  | retrieve uid => exact leads_retrieveAt ho .mailboxNotFound uid other
  | retrieveFromFolder folder uid => exact leads_retrieveFromFolder ho folder uid other
  | uidValidity folder => exact leads_uidValidity ho folder other

lemma call_kept (hst : st.Roomy 2) (hv : ∀ key, c.Names key → ValidKey key) (loc : Loc)
    (d : Folder) (hd : (st.call c).disk loc = some d) : d.Kept := by
  by_cases ht : st.takes c = some loc
  · cases (congrArg Slot.disk (call_takes ht).2).symm.trans hd
  rcases hm : c.marked with _ | mark
  · refine (call_steps hst hv hm ht).kept hv (fun e he => ?_) d hd
    exact (hst loc e he).1
  · rw [call_marked hm] at hd
    exact (hst loc d hd).1

end Store

end Maildancer.Maildir

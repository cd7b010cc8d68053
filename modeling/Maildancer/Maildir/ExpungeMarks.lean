import Maildancer.Maildir.Calls

namespace Maildancer.Maildir

open Function List Text UidList

-- Where the file system can fail in an expunge. A file that cannot be removed does not keep the others.
inductive Fault
  | lock
  | readCur
  | loadWrite
  | remove (stuck : List Bytes)
  | rereadCur
  | write
deriving DecidableEq

def Folder.loadWrites (d : Folder) : Bool :=
  match readUidList d.uidlist with
  | .ok (some u) => (u.reconcile d.curDirKeys).2
  | _ => true

-- What an expunge with marks leaves of a folder that exists when it fails; none where it does not come to the
-- fault. An unreadable .uidlist is removed before the write that fails.
def Store.expungeFailing (st : Store) (loc : Loc) (d : Folder) (fault : Fault) : Option Store :=
  let opened := d.loadUidList st.now d.curDirKeys
  let keysToRemove := (st.deleted loc).filterMap opened.1.uidToKey
  let st := { st with deleted := Function.update st.deleted loc [] }
  match fault with
  | .lock | .readCur => some st
  | .loadWrite =>
    if d.loadWrites then some (st.setFolder loc (if readable d.uidlist then d else { d with uidlist := none }))
    else none
  | .remove stuck =>
    if keysToRemove.any (· ∈ stuck) then
      some (st.setFolder loc (opened.2.removeMessages (keysToRemove.filter (· ∉ stuck))))
    else none
  | .rereadCur => some (st.setFolder loc (opened.2.removeMessages keysToRemove))
  | .write => some ((st.setFolder loc (opened.2.removeMessages keysToRemove)).invalidateUidListCache loc)

-- The store, and for each pending mark what its UID denoted when it was marked.
-- Nothing in the code keeps the second.
structure Watch where
  store : Store
  denoted : Loc → List (Nat × Option Bytes)

inductive Happening
  | call (c : StoreCall)
  | damage (loc : Loc) (file : Option Bytes)
  | fail (loc : Loc) (fault : Fault)
deriving DecidableEq

def Store.denotes (st : Store) (loc : Loc) (uid : Nat) : Option Bytes := (st.disk loc).bind fun d => d.keyOf uid

namespace Watch

variable (w : Watch)

def start (st : Store) : Watch := ⟨st, fun _ => []⟩

def mark (later : Store) (target : Loc) (uid : Nat) : Watch :=
  ⟨later, Function.update w.denoted target (w.denoted target ++ [(uid, w.store.denotes target uid)])⟩

-- Marks are dropped all together.
def keep (later : Store) : Watch := ⟨later, fun loc => if later.deleted loc = [] then [] else w.denoted loc⟩

def step : Happening → Option Watch
  | .call c =>
    match c.marked with
    | some (target, uid) => some (w.mark (w.store.call c) target uid)
    | none => some (w.keep (w.store.call c))
  | .damage loc file =>
    match w.store.disk loc with
    | none => none
    | some d => if readable file then none else some (w.keep (w.store.setFolder loc { d with uidlist := file }))
  | .fail loc fault =>
    match w.store.disk loc with
    | none => none
    | some d => if w.store.deleted loc = [] then none else (w.store.expungeFailing loc d fault).map w.keep

-- Marks at the location are for UIDs that the list has given out, to messages that
-- are not in new/, and .uidlist is not lost while there are some.
def Careful (loc : Loc) (w : Watch) : Happening → Prop
  | .call c =>
    w.store.Ready c ∧ (∀ key, c.Names key → ∀ m ∈ w.denoted loc, m.2 ≠ some key) ∧
      ∀ uid, c.marked = some (loc, uid) → ∃ d u, w.store.disk loc = some d ∧
        readUidList d.uidlist = .ok (some u) ∧ uid < u.uidNext ∧
        ∀ key, u.uidToKey uid = some key → key ∉ d.maildirNewKeys
  | .damage target _ => target = loc → w.denoted loc = []
  | .fail _ _ => ∀ loc d, w.store.disk loc = some d → d.Spare (2 * (d.keys.length + 1))

end Watch

structure Folder.Recalls (d : Folder) (u : UidList) (m : Nat × Option Bytes) : Prop where
  settled : Settled d.uidlist u
  below : m.1 < u.uidNext
  sound : ∀ key, u.uidToKey m.1 = some key → m.2 = some key
  complete : ∀ key, m.2 = some key → key ∈ d.curDirKeys → u.uidToKey m.1 = some key
  notNew : ∀ key, m.2 = some key → key ∉ d.maildirNewKeys

section Recalls

variable {d e : Folder} {u : UidList} {m : Nat × Option Bytes} {names : Bytes → Prop}

lemma Folder.Recalls.rearrange (h : d.Recalls u m) (hm : d.Rearranges names e)
    (hn : ∀ key, names key → m.2 ≠ some key) : e.Recalls u m := by
  refine ⟨hm.uidlist ▸ h.settled, h.below, h.sound, fun key hk hc => ?_, fun key hk hnew => ?_⟩
  · refine h.complete key hk ?_
    obtain hold | hna := hm.cur key hc
    · exact (mem_append.mp hold).resolve_left (h.notNew key hk)
    · exact absurd hk (hn key hna)
  · obtain hold | hna := hm.new key hnew
    · exact h.notNew key hk hold
    · exact hn key hna hk

lemma Folder.Recalls.load (h : d.Recalls u m) (hl : Loadable d.uidlist d.curDirKeys) (now : Nat) :
    (d.loadUidList now d.curDirKeys).2.Recalls (d.loadUidList now d.curDirKeys).1 m := by
  obtain ⟨-, hr⟩ := hl.settled u h.settled.read
  have hli : (d.loadUidList now d.curDirKeys).1 = (u.reconcile d.curDirKeys).1 := load_settled now h.settled
  have hc := h.settled.consistent.reconcile hl.nodup hr
  have he := h.settled.consistent.extends_reconcile hl.nodup hr
  refine ⟨(hl.load now).1, ?_, fun key hk => ?_, fun key hk hcur => ?_, h.notNew⟩
  · rw [hli]
    exact h.below.trans_le he.next_le
  · rw [hli, hc.uidToKey_iff, ← hc.keyToUid_iff] at hk
    obtain hold | hf := he.old_or_fresh hk
    · refine h.sound key ?_
      rw [h.settled.consistent.uidToKey_iff, ← h.settled.consistent.keyToUid_iff]
      exact hold
    · exact absurd h.below (Nat.not_lt.mpr hf)
  · rw [hli, hc.uidToKey_iff]
    exact reconcile_keeps hr ((h.settled.consistent.uidToKey_iff _ _).mp (h.complete key hk hcur)) hcur

end Recalls

def Slot.Recalls (s : Slot) (m : Nat × Option Bytes) : Prop := ∃ d u, s.disk = some d ∧ d.Recalls u m

section Steps

variable {names : Bytes → Prop} {s t : Slot} {m : Nat × Option Bytes}

lemma Change.recalls (h : Change names s t) :
    t.marks = [] ∨ t.marks = s.marks ∧ ∀ m, (∀ key, names key → m.2 ≠ some key) → s.Recalls m → t.Recalls m := by
  cases h with
  | arrive hd =>
    refine .inr ⟨rfl, fun m _ => ?_⟩
    rintro ⟨d, u, hd, -⟩
    cases hd
  | touch hm hcur =>
    refine .inr ⟨rfl, fun m hn => ?_⟩
    rintro ⟨d, u, hd, hr⟩
    cases hd
    exact ⟨_, u, rfl, hr.rearrange hm hn⟩
  | load now hm hl hc =>
    refine .inr ⟨rfl, fun m hn => ?_⟩
    rintro ⟨d, u, hd, hr⟩
    cases hd
    exact ⟨_, _, rfl, (hr.rearrange hm hn).load hl now⟩
  | reread now hl =>
    refine .inr ⟨rfl, fun m _ => ?_⟩
    rintro ⟨d, u, hd, hr⟩
    cases hd
    exact ⟨_, _, rfl, hr.load hl now⟩
  | settle hk hmi hmo =>
    refine .inr ⟨rfl, fun m hn => ?_⟩
    rintro ⟨d, u, hd, hr⟩
    cases hd
    exact ⟨_, u, rfl, hr.rearrange (Folder.rearranges_moveNewToCur hmo) hn⟩
  | expunge now gone hl | forget => exact .inl rfl

lemma Steps.recalls (h : Steps names s t) :
    t.marks = [] ∨ t.marks = s.marks ∧ ∀ m, (∀ key, names key → m.2 ≠ some key) → s.Recalls m → t.Recalls m := by
  induction h with
  | refl => exact .inr ⟨rfl, fun _ _ h => h⟩
  | tail _ hc ih =>
    obtain hn | ⟨hma, hl⟩ := hc.recalls
    · exact .inl hn
    · obtain hn | ⟨hb, he⟩ := ih
      · exact .inl (hma.trans hn)
      · exact .inr ⟨hma.trans hb, fun m hna hm => hl m hna (he m hna hm)⟩

end Steps

variable {later st : Store} {file : Option Bytes} {fault : Fault}

namespace Watch

-- What is pending at the location is what the store has marked, and is remembered as it was meant.
structure Faithful (loc : Loc) (w : Watch) : Prop where
  kept : ∀ other d, w.store.disk other = some d → d.Kept
  marks : ∀ uid, uid ∈ w.store.deleted loc ↔ ∃ m ∈ w.denoted loc, m.1 = uid
  recalled : ∀ m ∈ w.denoted loc, (w.store.slot loc).Recalls m

variable {w : Watch} {loc : Loc}

lemma Faithful.keep (h : w.Faithful loc) (hk : ∀ other d, later.disk other = some d → d.Kept)
    (hs : later.deleted loc = [] ∨ later.deleted loc = w.store.deleted loc ∧
      ∀ m ∈ w.denoted loc, (later.slot loc).Recalls m) : (w.keep later).Faithful loc := by
  by_cases hn : later.deleted loc = []
  · have hd : (w.keep later).denoted loc = [] := if_pos hn
    refine ⟨hk, fun uid => ?_, fun m hm => ?_⟩
    · rw [hd]
      simp [Watch.keep, hn]
    · rw [hd] at hm
      cases hm
  · obtain ⟨hma, hr⟩ := hs.resolve_left hn
    have hd : (w.keep later).denoted loc = w.denoted loc := if_neg hn
    refine ⟨hk, fun uid => ?_, fun m hm => ?_⟩
    · rw [hd, ← h.marks]
      exact iff_of_eq (congrArg (uid ∈ ·) hma)
    · rw [hd] at hm
      exact hr m hm

end Watch

namespace Folder

variable {d : Folder} {gone : List Bytes}

lemma Kept.removeMessages (h : d.Kept) (gone : List Bytes) : (d.removeMessages gone).Kept := by
  refine ⟨fun key hk => h.validKeys key ?_, h.settled⟩
  exact (mem_append.mp hk).elim (mem_append_left _)
    fun hc => mem_append_right _ (curDirKeys_removeMessages hc)

lemma Kept.unlisted (h : d.Kept) (hf : readable file = false) :
    ({ d with uidlist := file } : Folder).Kept := by
  refine ⟨h.validKeys, fun u hr => ?_⟩
  have hre : readable file = true := by
    rw [readable, show readUidList file = .ok (some u) from hr]
  rw [hf] at hre
  cases hre

end Folder

lemma Store.expungeFailing_spec {loc : Loc} {d : Folder}
    (hd : st.disk loc = some d) (hk : d.Kept) (hl : Loadable d.uidlist d.curDirKeys)
    (h : st.expungeFailing loc d fault = some later) :
    later.deleted loc = [] ∧ (∀ other, other ≠ loc → later.slot other = st.slot other) ∧
      ∃ (e : Folder) (gone : List Bytes), later.disk loc = some e ∧ e.Kept ∧ e.new = d.new ∧
        e.cur = d.cur.filter (·.key ∉ gone) ∧
        ∀ key ∈ gone, key ∈ (st.deleted loc).filterMap (d.loadUidList st.now d.curDirKeys).1.uidToKey := by
  have hc : d.cur.filter (·.key ∉ ([] : List Bytes)) = d.cur := by simp
  have hlo := hk.load hl st.now
  have ho : ∀ other, other ≠ loc → ∀ e, ({ st with deleted := update st.deleted loc [] } : Store).slot other =
      st.slot other ∧ (({ st with deleted := update st.deleted loc [] } : Store).setFolder loc e).slot other =
      st.slot other := by
    intro other hne e
    have hs : ({ st with deleted := update st.deleted loc [] } : Store).slot other = st.slot other := by
      simp [slot, hne]
    exact ⟨hs, (slot_setFolder_of_ne hne).trans hs⟩
  unfold expungeFailing at h
  cases fault with
  | lock | readCur =>
    cases h
    exact ⟨update_self .., fun other hne => (ho other hne d).1, d, [], hd, hk, rfl, hc.symm,
      fun _ hkey => by cases hkey⟩
  | loadWrite =>
    dsimp only at h
    split_ifs at h with hw hr
    · cases h
      exact ⟨update_self .., fun other hne => (ho other hne _).2, d, [], setFolder_disk_self _ _ _, hk,
        rfl, hc.symm, fun _ hkey => by cases hkey⟩
    · cases h
      exact ⟨update_self .., fun other hne => (ho other hne _).2, _, [], setFolder_disk_self _ _ _,
        hk.unlisted rfl, rfl, hc.symm, fun _ hkey => by cases hkey⟩
  | remove stuck =>
    dsimp only at h
    split_ifs at h
    cases h
    exact ⟨update_self .., fun other hne => (ho other hne _).2, _, _, setFolder_disk_self _ _ _,
      hlo.removeMessages _, rfl, rfl, fun key hkey => (mem_filter.mp hkey).1⟩
  | rereadCur =>
    cases h
    exact ⟨update_self .., fun other hne => (ho other hne _).2, _, _, setFolder_disk_self _ _ _,
      hlo.removeMessages _, rfl, rfl, fun key hkey => hkey⟩
  | write =>
    cases h
    refine ⟨update_self .., fun other hne => ?_, _, _, setFolder_disk_self _ _ _, hlo.removeMessages _, rfl,
      rfl, fun key hkey => hkey⟩
    rw [slot_dropped_of_ne hne]
    exact (ho other hne d).1

namespace Watch

variable {w : Watch} {loc : Loc}

lemma Faithful.unmarked (h : w.Faithful loc) (hn : w.denoted loc = []) : w.store.deleted loc = [] := by
  refine eq_nil_iff_forall_not_mem.mpr fun uid hu => ?_
  obtain ⟨m, hm, -⟩ := (h.marks uid).mp hu
  rw [hn] at hm
  cases hm

variable {target : Loc}

lemma Faithful.mark (h : w.Faithful loc) {uid : Nat}
    (hg : target = loc → ∃ d u, w.store.disk loc = some d ∧ readUidList d.uidlist = .ok (some u) ∧
      uid < u.uidNext ∧ ∀ key, u.uidToKey uid = some key → key ∉ d.maildirNewKeys) :
    (w.mark (w.store.markDeleted target uid) target uid).Faithful loc := by
  rcases eq_or_ne loc target with rfl | hne
  · have hde : (w.mark (w.store.markDeleted loc uid) loc uid).denoted loc =
        w.denoted loc ++ [(uid, w.store.denotes loc uid)] := update_self ..
    have hdl : (w.mark (w.store.markDeleted loc uid) loc uid).store.deleted loc =
        (w.store.deleted loc).insert uid := update_self ..
    refine ⟨h.kept, fun other => ?_, fun m hm => ?_⟩
    · rw [hde, hdl, mem_insert_iff, h.marks]
      simp only [mem_append, mem_singleton]
      constructor
      · rintro (rfl | ⟨m, hm, rfl⟩)
        · exact ⟨_, .inr rfl, rfl⟩
        · exact ⟨m, .inl hm, rfl⟩
      · rintro ⟨m, hm | rfl, rfl⟩
        · exact .inr ⟨m, hm, rfl⟩
        · exact .inl rfl
    · rw [hde] at hm
      obtain hold | hnew := mem_append.mp hm
      · exact h.recalled m hold
      obtain rfl := mem_singleton.mp hnew
      obtain ⟨d, u, hd, hr, hb, hn⟩ := hg rfl
      have hdn : w.store.denotes loc uid = u.uidToKey uid := by
        simp only [Store.denotes, hd, Option.bind_some, Folder.keyOf, hr]
      refine ⟨d, u, hd, (h.kept loc d hd).settled u hr, hb, ?_, ?_, ?_⟩
      · exact fun key hk => hdn.trans hk
      · exact fun key hk _ => hdn.symm.trans hk
      · exact fun key hk => hn key (hdn.symm.trans hk)
  · have hde : (w.mark (w.store.markDeleted target uid) target uid).denoted loc = w.denoted loc :=
      update_of_ne hne ..
    have hdl : (w.store.markDeleted target uid).deleted loc = w.store.deleted loc := update_of_ne hne ..
    refine ⟨h.kept, fun other => ?_, fun m hm => ?_⟩
    · rw [hde, ← h.marks]
      exact iff_of_eq (congrArg (other ∈ ·) hdl)
    · rw [hde] at hm
      exact h.recalled m hm

lemma Faithful.call (h : w.Faithful loc) {c : StoreCall} (hr : w.store.Ready c)
    (hn : ∀ key, c.Names key → ∀ m ∈ w.denoted loc, m.2 ≠ some key) (hma : c.marked = none) :
    (w.keep (w.store.call c)).Faithful loc := by
  have hro : w.store.Roomy 2 := fun other d hd => ⟨h.kept other d hd, hr.2 other d hd⟩
  refine h.keep (Store.call_kept hro hr.1) ?_
  by_cases ht : w.store.takes c = some loc
  · exact .inl (congrArg Slot.marks (Store.call_takes ht).2)
  · obtain hno | ⟨hs, hre⟩ := (Store.call_steps hro hr.1 hma ht).recalls
    · exact .inl hno
    · exact .inr ⟨hs, fun m hm => hre m (fun key hk => hn key hk m hm) (h.recalled m hm)⟩

lemma Faithful.damage (h : w.Faithful loc) {d : Folder} (hd : w.store.disk target = some d)
    (hf : readable file = false) (hu : target = loc → w.denoted loc = []) :
    (w.keep (w.store.setFolder target { d with uidlist := file })).Faithful loc := by
  refine h.keep (fun other e he => ?_) ?_
  · rcases eq_or_ne other target with rfl | hne
    · obtain rfl := Option.some.inj ((Store.setFolder_disk_self _ _ _).symm.trans he)
      exact (h.kept other d hd).unlisted hf
    · exact h.kept other e ((Store.setFolder_disk_of_ne hne).symm.trans he)
  · rcases eq_or_ne loc target with rfl | hne
    · exact .inl (h.unmarked (hu rfl))
    · refine .inr ⟨rfl, fun m hm => ?_⟩
      rw [Store.slot_setFolder_of_ne hne]
      exact h.recalled m hm

lemma Faithful.fail (h : w.Faithful loc) {d : Folder}
    (hr : w.store.Roomy 1) (hd : w.store.disk target = some d)
    (hfa : w.store.expungeFailing target d fault = some later) : (w.keep later).Faithful loc := by
  obtain ⟨hde, ho, e, -, he, hk, -⟩ :=
    Store.expungeFailing_spec hd (h.kept target d hd) (hr.loadable hd) hfa
  refine h.keep (fun other f hf => ?_) ?_
  · rcases eq_or_ne other target with rfl | hne
    · exact Option.some.inj (he.symm.trans hf) ▸ hk
    · exact h.kept other f ((congrArg Slot.disk (ho other hne)).symm.trans hf)
  rcases eq_or_ne loc target with rfl | hne
  · exact .inl hde
  · refine .inr ⟨congrArg Slot.marks (ho loc hne), fun m hm => ?_⟩
    rw [ho loc hne]
    exact h.recalled m hm

lemma Faithful.step (h : w.Faithful loc) {a : Happening} {v : Watch} (hc : w.Careful loc a)
    (hs : w.step a = some v) : v.Faithful loc := by
  cases a with
  | call c =>
    obtain ⟨hr, hn, hg⟩ := hc
    rw [Watch.step] at hs
    rcases hm : c.marked with _ | mark
    · rw [hm] at hs
      cases hs
      exact h.call hr hn hm
    obtain ⟨target, uid⟩ := mark
    rw [hm] at hs
    cases hs
    rw [Store.call_marked hm]
    exact h.mark fun ht => hg uid (ht ▸ hm)
  | damage target file =>
    rw [Watch.step] at hs
    rcases hd : w.store.disk target with _ | d <;> rw [hd] at hs
    · cases hs
    dsimp only at hs
    split_ifs at hs with hf
    cases hs
    exact h.damage hd (Bool.eq_false_iff.mpr hf) hc
  | fail target fault =>
    rw [Watch.step] at hs
    rcases hd : w.store.disk target with _ | d <;> rw [hd] at hs
    · cases hs
    dsimp only at hs
    split_ifs at hs
    obtain ⟨later, hl, rfl⟩ := Option.map_eq_some_iff.mp hs
    have hro : w.store.Roomy 2 := fun other d hd => ⟨h.kept other d hd, hc other d hd⟩
    exact h.fail (hro.mono (by omega)) hd hl

lemma faithful_run (hk : ∀ loc d, st.disk loc = some d → d.Kept)
    (hu : ∀ loc, st.deleted loc = []) (hr : Reaches step (Careful loc) (start st) w) : w.Faithful loc := by
  refine hr.invariant (P := Faithful loc) ⟨hk, fun uid => ?_, fun m hm => ?_⟩
    fun _ _ _ hw hc hs => hw.step hc hs
  · rw [show (start st).store.deleted loc = [] from hu loc]
    simp [start]
  · cases hm

lemma Faithful.mem_keysToRemove (h : w.Faithful loc) {d : Folder} (hd : w.store.disk loc = some d)
    (hl : Loadable d.uidlist d.curDirKeys) (now : Nat) (key : Bytes) :
    key ∈ (w.store.deleted loc).filterMap (d.loadUidList now d.curDirKeys).1.uidToKey ↔
      key ∈ d.curDirKeys ∧ ∃ m ∈ w.denoted loc, m.2 = some key := by
  have hr : ∀ m ∈ w.denoted loc,
      (d.loadUidList now d.curDirKeys).2.Recalls (d.loadUidList now d.curDirKeys).1 m := by
    intro m hm
    obtain ⟨e, u, he, hr⟩ := h.recalled m hm
    obtain rfl := Option.some.inj ((show w.store.disk loc = some e from he).symm.trans hd)
    exact hr.load hl now
  rw [mem_filterMap]
  constructor
  · rintro ⟨uid, hu, hkey⟩
    obtain ⟨m, hm, rfl⟩ := (h.marks uid).mp hu
    obtain ⟨hs, hk⟩ := hl.load now
    refine ⟨(hk key).mp (mem_keys.mpr ⟨m.1, (hs.consistent.uidToKey_iff _ _).mp hkey⟩), m, hm, ?_⟩
    exact (hr m hm).sound key hkey
  · rintro ⟨hc, m, hm, hkey⟩
    exact ⟨m.1, (h.marks m.1).mpr ⟨m, hm, rfl⟩, (hr m hm).complete key hkey hc⟩

end Watch

structure Expunged (denoted : List (Nat × Option Bytes)) (d e : Folder) : Prop where
  new : e.new = d.new
  cur : ∀ f, f ∈ e.cur ↔ f ∈ d.cur ∧ ∀ m ∈ denoted, m.2 ≠ some f.key
  uids : ∀ key uid, key ∈ e.curDirKeys → d.uidOf key = some uid → e.uidOf key = some uid
  next : ∀ u, readUidList d.uidlist = .ok (some u) → ∃ v, readUidList e.uidlist = .ok (some v) ∧ u.uidNext ≤ v.uidNext

lemma Folder.expunged_of_load {d : Folder} {denoted : List (Nat × Option Bytes)} {gone : List Bytes}
    (hl : Loadable d.uidlist d.curDirKeys) (now : Nat)
    (hg : ∀ key ∈ d.curDirKeys, key ∈ gone ↔ ∃ m ∈ denoted, m.2 = some key) :
    Expunged denoted d ((d.loadUidList now d.curDirKeys).2.expungeKeys (d.loadUidList now d.curDirKeys).1 gone) := by
  obtain ⟨hs, hk⟩ := hl.load now
  have hli : ∀ key ∈ (d.removeMessages gone).curDirKeys, key ∈ (d.loadUidList now d.curDirKeys).1.keys :=
    fun key hkey => (hk key).mpr (Folder.curDirKeys_removeMessages hkey)
  have hn := (d.removeMessages gone).curDirKeys_nodup
  have hw := hs.reconcile_fewer hn hli
  refine ⟨rfl, fun f => ?_, fun key uid hkey hu => ?_, fun u hr => ?_⟩
  · rw [show (((d.loadUidList now d.curDirKeys).2.expungeKeys (d.loadUidList now d.curDirKeys).1 gone)).cur =
      d.cur.filter (·.key ∉ gone) from rfl, mem_filter, decide_eq_true_eq]
    refine and_congr_right fun hf => ?_
    rw [hg f.key (mem_map_of_mem hf)]
    exact ⟨fun h m hm hkey => h ⟨m, hm, hkey⟩, fun h ⟨m, hm, hkey⟩ => h m hm hkey⟩
  · have hc := Folder.curDirKeys_removeMessages hkey
    exact (hw.uidIn_eq key).trans (hs.keyToUid_fewer hn hli hkey (hl.keyToUid_load now hc hu))
  · obtain ⟨hold, hro⟩ := hl.settled u hr
    refine ⟨_, hw.read, ?_⟩
    rw [reconcile_uidNext (hs.room_fewer hli), load_settled now hold, reconcile_uidNext hro]
    omega

lemma Store.expungeAt_marked {loc : Loc} {d : Folder} (hd : st.disk loc = some d)
    (hm : st.deleted loc ≠ []) (missing : StoreError) :
    (st.expungeAt loc missing).2 = .ok () ∧ (st.expungeAt loc missing).1.disk = update st.disk loc
      (some ((d.loadUidList st.now d.curDirKeys).2.expungeKeys (d.loadUidList st.now d.curDirKeys).1
        ((st.deleted loc).filterMap (d.loadUidList st.now d.curDirKeys).1.uidToKey))) := by
  unfold expungeAt
  dsimp only
  rw [if_neg hm, hd]
  exact ⟨rfl, rfl⟩

lemma Store.expungeAt_unmarked {loc : Loc} (hn : st.deleted loc = []) (missing : StoreError) :
    (st.expungeAt loc missing).2 = .ok () ∧ (st.expungeAt loc missing).1.disk = st.disk := by
  unfold expungeAt
  dsimp only
  rw [if_pos hn]
  exact ⟨rfl, rfl⟩

-- An expunge that succeeds takes away what was meant, provided the marks are for
-- UIDs that had been given out and .uidlist has lasted; one that fails forgets the marks.
theorem expunge_removes_marked {st : Store} (hkept : ∀ loc d, st.disk loc = some d → d.Kept)
    (hunmarked : ∀ loc, st.deleted loc = []) {loc : Loc} {w : Watch}
    (hrun : Reaches Watch.step (Watch.Careful loc) (Watch.start st) w)
    (hroom : ∀ other d, w.store.disk other = some d → d.Spare (2 * (d.keys.length + 1))) (missing : StoreError) :
    (w.store.expungeAt loc missing).2 = .ok () ∧
      (∀ other, other ≠ loc ∨ w.store.disk loc = none →
        (w.store.expungeAt loc missing).1.disk other = w.store.disk other) ∧
      ∀ d, w.store.disk loc = some d →
        (∃ e, (w.store.expungeAt loc missing).1.disk loc = some e ∧ Expunged (w.denoted loc) d e) ∧
        ∀ fault later, w.store.expungeFailing loc d fault = some later → later.deleted loc = [] ∧
          ∃ e, later.disk loc = some e ∧ e.new = d.new ∧
            ∀ f, (f ∈ e.cur → f ∈ d.cur) ∧ (f ∈ d.cur → f ∉ e.cur → ∃ m ∈ w.denoted loc, m.2 = some f.key) := by
  have hfa := Watch.faithful_run hkept hunmarked hrun
  have hr : w.store.Roomy 2 := fun other d hd => ⟨hfa.kept other d hd, hroom other d hd⟩
  have hl : ∀ d, w.store.disk loc = some d → Loadable d.uidlist d.curDirKeys :=
    fun d hd => (hr.mono (by omega : 1 ≤ 2)).loadable hd
  have hfi : ∀ d, w.store.disk loc = some d → ∀ fault later, w.store.expungeFailing loc d fault = some later →
      later.deleted loc = [] ∧ ∃ e, later.disk loc = some e ∧ e.new = d.new ∧
        ∀ f, (f ∈ e.cur → f ∈ d.cur) ∧ (f ∈ d.cur → f ∉ e.cur → ∃ m ∈ w.denoted loc, m.2 = some f.key) := by
    intro d hd fault later hla
    obtain ⟨hde, -, e, gone, he, -, hn, hc, hg⟩ :=
      Store.expungeFailing_spec hd (hfa.kept loc d hd) (hl d hd) hla
    refine ⟨hde, e, he, hn, fun f => ⟨fun hf => ?_, fun hf hlo => ?_⟩⟩
    · rw [hc] at hf
      exact (mem_filter.mp hf).1
    have hk : f.key ∈ gone := by
      by_contra hk
      refine hlo ?_
      rw [hc]
      exact mem_filter.mpr ⟨hf, decide_eq_true hk⟩
    exact ((hfa.mem_keysToRemove hd (hl d hd) w.store.now f.key).mp (hg f.key hk)).2
  by_cases hma : w.store.deleted loc = []
  · obtain ⟨hok, hdi⟩ := Store.expungeAt_unmarked hma missing
    refine ⟨hok, fun other _ => congrFun hdi other, fun d hd => ⟨⟨d, ?_, ?_⟩, hfi d hd⟩⟩
    · rw [hdi]
      exact hd
    have hno : ∀ m, m ∉ w.denoted loc := by
      intro m hm
      have hu := (hfa.marks m.1).mpr ⟨m, hm, rfl⟩
      rw [hma] at hu
      cases hu
    exact ⟨rfl, fun f => ⟨fun hf => ⟨hf, fun m hm => absurd hm (hno m)⟩, And.left⟩, fun _ _ _ hu => hu,
      fun u hre => ⟨u, hre, le_rfl⟩⟩
  · -- A mark tells that the folder is there.
    obtain ⟨uid, hu⟩ := exists_mem_of_ne_nil _ hma
    obtain ⟨m, hm, -⟩ := (hfa.marks uid).mp hu
    obtain ⟨d, u, hd, -⟩ := hfa.recalled m hm
    obtain ⟨hok, hdi⟩ := Store.expungeAt_marked hd hma missing
    refine ⟨hok, fun other ho => ?_, fun d' hd' => ?_⟩
    · obtain hne | hno := ho
      · rw [hdi, update_of_ne hne]
      · cases hno.symm.trans hd
    obtain rfl := Option.some.inj (hd'.symm.trans hd)
    refine ⟨⟨_, (congrFun hdi loc).trans (update_self ..), ?_⟩, hfi d' hd'⟩
    refine Folder.expunged_of_load (hl d' hd') w.store.now fun key hc => ?_
    rw [hfa.mem_keysToRemove hd' (hl d' hd') w.store.now key]
    exact and_iff_right hc

section Letter

open Shared (letter letterList letterFolder letterFolder_settled letterFolder_kept)

def letterStore : Store := (History.start 5).store.setFolder (.folder work) letterFolder

lemma letterStore_disk {loc : Loc} {d : Folder} (h : letterStore.disk loc = some d) : d = letterFolder := by
  rcases eq_or_ne loc (.folder work) with rfl | hne
  · exact (Option.some.inj h).symm
  · cases (Store.setFolder_disk_of_ne hne).symm.trans h

lemma letterFolder_spare : letterFolder.Spare (2 * (letterFolder.keys.length + 1)) := by
  refine ⟨by decide, fun u hr => ?_⟩
  obtain rfl := letterFolder_settled.unique hr
  decide +kernel

def letterMarked : Watch :=
  (Watch.start letterStore).mark (letterStore.markDeleted (.folder work) 1) (.folder work) 1

lemma letterMarked_denoted : letterMarked.denoted (.folder work) = [(1, some letter.key)] := by
  decide +kernel

lemma marked_work : (StoreCall.deleteInFolder work 1).marked = some (.folder work, 1) := by
  decide +kernel

theorem expunge_removes_marked_letter : letterMarked.denoted (.folder work) = [(1, some letter.key)] ∧
      (letterMarked.store.expungeAt (.folder work) .folderNotFound).2 = .ok () ∧
      ∃ e, (letterMarked.store.expungeAt (.folder work) .folderNotFound).1.disk (.folder work) = some e ∧
        Expunged (letterMarked.denoted (.folder work)) letterFolder e := by
  have hr : ∀ other d, letterStore.disk other = some d → d.Spare _ :=
    fun other d hd => letterStore_disk hd ▸ letterFolder_spare
  have hru : Reaches Watch.step (Watch.Careful (.folder work)) (Watch.start letterStore) letterMarked := by
    refine Reaches.refl.tail (.call (.deleteInFolder work 1)) ⟨⟨fun _ h => False.elim h, hr⟩, fun _ h => False.elim h,
      fun uid hu => ⟨letterFolder, letterList, rfl, letterFolder_settled.read, ?_, fun _ _ h => by cases h⟩⟩ ?_
    · rw [marked_work] at hu
      obtain rfl : 1 = uid := congrArg Prod.snd (Option.some.inj hu)
      decide +kernel
    · rw [Watch.step, marked_work]
      exact congrArg (fun later => some ((Watch.start letterStore).mark later _ 1)) (Store.call_marked marked_work)
  obtain ⟨hok, -, he⟩ := expunge_removes_marked (fun loc d hd => letterStore_disk hd ▸ letterFolder_kept)
    (fun _ => rfl) hru hr .folderNotFound
  exact ⟨letterMarked_denoted, hok, (he letterFolder rfl).1⟩

end Letter

-- The marked message is b, and the one that goes is c.
def renumbered : List Happening :=
  [.call (.appendToFolder work (ascii "a") [] []), .call (.appendToFolder work (ascii "b") [] []),
    .call (.appendToFolder work (ascii "c") [] []), .call (.deleteInFolder work 1), .call (.expungeFolder work),
    .call (.deleteInFolder work 2), .damage (.folder work) none]

def refused : List Happening :=
  [.call (.appendToFolder work (ascii "a") [] []), .call (.deleteInFolder work 1), .fail (.folder work) .lock]

def curAfter (actions : List Happening) : Option (List (Nat × Option Bytes) × Option (List Bytes)) :=
  (runSteps Watch.step (Watch.start (History.start 5).store) actions).map fun w =>
    (w.denoted (.folder work), ((w.store.expungeFolder work).1.disk (.folder work)).map Folder.curDirKeys)

theorem expunge_wrong_file : curAfter renumbered = some ([(2, some (ascii "b"))], some [ascii "b"]) ∧
      curAfter refused = some ([], some [ascii "a"]) := by
  constructor
  · decide +kernel
  · decide +kernel

end Maildancer.Maildir

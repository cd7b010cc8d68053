import Maildancer.Maildir.Folders
import Maildancer.Maildir.Operations
import Maildancer.Maildir.Processes

namespace Maildancer.Maildir

open Option Function List Text UidList

def listIn (file : Option Bytes) : Option UidList :=
  match readUidList file with
  | .ok u => u
  | .error _ => none

variable {file : Option Bytes} {u : UidList} {s t : History} {loc : Loc} {d : Folder}
  {keys : List Bytes}

lemma listIn_eq_some : listIn file = some u ↔ readUidList file = .ok (some u) := by
  unfold listIn
  cases readUidList file with
  | ok u | error e => simp

lemma readable_iff : readable file = true ↔ ∃ u, listIn file = some u := by
  unfold readable listIn
  rcases readUidList file with e | _ | u <;> simp

lemma uidIn_eq (file : Option Bytes) (key : Bytes) : uidIn file key = (listIn file).bind (·.keyToUid key) := by
  unfold uidIn listIn
  rcases readUidList file with e | _ | u <;> rfl

-- A later state of one list: UIDs are added and never given to another key.
def Grows (u v : UidList) : Prop := ∃ (hu : u.Consistent) (hv : v.Consistent), hu.ledger.Extends hv.ledger

lemma Grows.refl (h : u.Consistent) : Grows u u := ⟨h, h, .refl _⟩

variable {v : UidList} {folder : Bytes} {key : String}

lemma Grows.trans {w : UidList} (huv : Grows u v) (hvw : Grows v w) : Grows u w := by
  obtain ⟨hu, _, he⟩ := huv
  obtain ⟨_, hw, hl⟩ := hvw
  exact ⟨hu, hw, he.trans hl⟩

namespace History

def list (s : History) (loc : Loc) : Option UidList := (s.store.disk loc).bind fun d => listIn d.uidlist

-- What an event can do to the lists and to the bootstraps they go back to.
inductive Effect (s t : History) : Prop
  | same (hlist : t.list = s.list) (horigin : t.origin = s.origin) (hbirths : t.births = s.births)
  | cleared (loc : Loc) (hlist : t.list = Function.update s.list loc none)
      (horigin : t.origin = Function.update s.origin loc none) (hbirths : t.births = s.births)
  | moved (source target : Loc) (hne : source ≠ target)
      (hlist : t.list = Function.update (Function.update s.list target (s.list source)) source none)
      (horigin : t.origin = Function.update (Function.update s.origin target (s.origin source)) source none)
      (hbirths : t.births = s.births)
  | grown (loc : Loc) (u v : UidList) (hu : s.list loc = some u) (hgrows : Grows u v)
      (hvalidity : v.uidValidity = u.uidValidity) (hlist : t.list = Function.update s.list loc (some v))
      (horigin : t.origin = s.origin) (hbirths : t.births = s.births)
  | born (loc : Loc) (u : UidList) (now : Nat) (hconsistent : u.Consistent) (hvalidity : u.uidValidity = uint32 now)
      (hlist : t.list = Function.update s.list loc (some u))
      (horigin : t.origin = Function.update s.origin loc (some s.births.length))
      (hbirths : t.births = s.births ++ [now])

-- Each list goes back to one bootstrap, no two to the same, and has its second as UIDVALIDITY.
structure Tracked (s : History) : Prop where
  bound : ∀ {loc i}, s.origin loc = some i → i < s.births.length
  distinct : ∀ {loc other i}, s.origin loc = some i → s.origin other = some i → loc = other
  tracked : ∀ {loc u}, s.list loc = some u →
    u.Consistent ∧ ∃ i now, s.origin loc = some i ∧ s.births[i]? = some now ∧ u.uidValidity = uint32 now

-- A list of a bootstrap that was there before has grown from the one it had then.
structure Since (s t : History) : Prop where
  births : s.births <+: t.births
  old : ∀ {loc i v}, t.origin loc = some i → t.list loc = some v → i < s.births.length →
    ∃ other u, s.origin other = some i ∧ s.list other = some u ∧ Grows u v

lemma Since.refl (h : s.Tracked) : Since s s :=
  ⟨prefix_rfl, fun {loc _ v} ho hl _ => ⟨loc, v, ho, hl, .refl (h.tracked hl).1⟩⟩

lemma Since.trans {u : History} (hst : Since s t) (htu : Since t u) : Since s u := by
  refine ⟨hst.births.trans htu.births, fun {loc i v} ho hl hi => ?_⟩
  obtain ⟨middle, w, hm, hw, hg⟩ := htu.old ho hl (hi.trans_le hst.births.length_le)
  obtain ⟨other, x, hot, hx, hb⟩ := hst.old hm hw hi
  exact ⟨other, x, hot, hx, hb.trans hg⟩

lemma Tracked.carry (hs : s.Tracked) (back : Loc → Option Loc)
    (hinj : ∀ {loc other source}, back loc = some source → back other = some source → loc = other)
    (hl : ∀ {loc v}, t.list loc = some v → ∃ source u, back loc = some source ∧ s.list source = some u ∧
      Grows u v ∧ v.uidValidity = u.uidValidity)
    (ho : t.origin = fun loc => (back loc).bind s.origin) (hb : t.births = s.births) :
    t.Tracked ∧ Since s t := by
  have hf : ∀ {loc i}, t.origin loc = some i → ∃ source, back loc = some source ∧ s.origin source = some i := by
    intro loc i hi
    rw [ho] at hi
    exact bind_eq_some_iff.mp hi
  refine ⟨⟨?_, ?_, ?_⟩, ⟨by rw [hb], ?_⟩⟩
  · intro loc i hi
    obtain ⟨source, -, hso⟩ := hf hi
    rw [hb]
    exact hs.bound hso
  · intro loc other i hi hot
    obtain ⟨source, hba, hso⟩ := hf hi
    obtain ⟨source', hbc, hsu⟩ := hf hot
    obtain rfl := hs.distinct hso hsu
    exact hinj hba hbc
  · intro loc v hv
    obtain ⟨source, u, hba, hu, ⟨-, hc, -⟩, hva⟩ := hl hv
    obtain ⟨-, i, now, hi, hn, hbo⟩ := hs.tracked hu
    refine ⟨hc, i, now, ?_, hb ▸ hn, hva.trans hbo⟩
    simp [ho, hba, hi]
  · intro loc i v hi hv _
    obtain ⟨source, u, hba, hu, hg, -⟩ := hl hv
    simp only [ho, hba, bind_some] at hi
    exact ⟨source, u, hi, hu, hg⟩

lemma Tracked.carry_same (hs : s.Tracked) (back : Loc → Option Loc)
    (hi : ∀ {loc other source}, back loc = some source → back other = some source → loc = other)
    (hl : t.list = fun loc => (back loc).bind s.list) (ho : t.origin = fun loc => (back loc).bind s.origin)
    (hb : t.births = s.births) : t.Tracked ∧ Since s t := by
  refine hs.carry back hi (fun {loc v} hv => ?_) ho hb
  rw [hl] at hv
  obtain ⟨source, hba, hu⟩ := bind_eq_some_iff.mp hv
  exact ⟨source, v, hba, hu, .refl (hs.tracked hu).1, rfl⟩

lemma Tracked.origin (hs : s.Tracked) (hu : s.list loc = some u) : ∃ i, s.origin loc = some i := by
  obtain ⟨-, i, -, hi, -, -⟩ := hs.tracked hu
  exact ⟨i, hi⟩

lemma bind_update {α β : Type} (back : Loc → Option α) (f : α → Option β) (loc : Loc) (x : Option α) :
    (fun other => (update back loc x other).bind f) =
      update (fun other => (back other).bind f) loc (x.bind f) :=
  comp_update (fun y : Option α => y.bind f) back loc x

lemma Effect.keeps (h : Effect s t) (hs : s.Tracked) : t.Tracked ∧ Since s t := by
  cases h with
  | same hl ho hb =>
    exact hs.carry_same some (by rintro _ _ _ ⟨⟩ ⟨⟩; rfl) hl ho hb
  | cleared loc hl ho hb =>
    refine hs.carry_same (update some loc none) ?_ (by rw [bind_update]; exact hl)
      (by rw [bind_update]; exact ho) hb
    intro first second source
    simp only [update_apply]
    grind
  | moved source target hne hl ho hb =>
    refine hs.carry_same (update (update some target (some source)) source none) ?_
      (by rw [bind_update, bind_update]; exact hl) (by rw [bind_update, bind_update]; exact ho) hb
    intro first second place
    simp only [update_apply]
    grind
  | grown loc u v hu hg hva hl ho hb =>
    refine hs.carry some (by rintro _ _ _ ⟨⟩ ⟨⟩; rfl) (fun {other w} hw => ?_) ho hb
    rw [hl] at hw
    rcases eq_or_ne other loc with rfl | hne
    · rw [update_self, Option.some.injEq] at hw
      exact ⟨other, u, rfl, hu, hw ▸ hg, hw ▸ hva⟩
    · rw [update_of_ne hne] at hw
      exact ⟨other, w, rfl, hw, .refl (hs.tracked hw).1, rfl⟩
  | born loc u now hc hva hl ho hb =>
    -- The new origin is above every bound, so no other location has it.
    have hbd := @hs.bound
    have hd := @hs.distinct
    have ht := @hs.tracked
    refine ⟨⟨?_, ?_, ?_⟩, by rw [hb]; exact prefix_append _ _, ?_⟩ <;> simp only [ho, hl, hb, update_apply]
    · grind
    · grind
    · grind
    · grind [Grows.refl]

end History

-- The keys handed to a section are names of message files, and there are numbers for them.
structure Folder.Fits (d : Folder) (keys : List Bytes) : Prop where
  nodup : keys.Nodup
  valid : ∀ key ∈ keys, ValidKey key
  room : ∀ u, listIn d.uidlist = some u → u.uidNext + u.assigns keys < 2 ^ 32
  few : keys.length + 1 < 2 ^ 32

-- A list that can be read is one that the store has written.
def Folder.Clean (d : Folder) : Prop := ∀ u, listIn d.uidlist = some u → Settled d.uidlist u

lemma Folder.Clean.loadable (h : d.Clean) (hf : d.Fits keys) : Loadable d.uidlist keys :=
  ⟨fun u hu => ⟨h u (listIn_eq_some.mpr hu), hf.room u (listIn_eq_some.mpr hu)⟩, hf.few, hf.nodup, hf.valid⟩

-- The list that a section leaves is the one of before, grown, or a new one with the second of the section.
structure Successor (now : Nat) (d : Folder) (v : UidList) : Prop where
  grown : ∀ u, listIn d.uidlist = some u → Grows u v ∧ v.uidValidity = u.uidValidity
  born : listIn d.uidlist = none → v.Consistent ∧ v.uidValidity = uint32 now

lemma Folder.Clean.load_successor (h : d.Clean) (hf : d.Fits keys) (now : Nat) :
    Successor now d (d.loadUidList now keys).1 := by
  constructor
  · intro u hu
    have hs := h u hu
    have hr := hf.room u hu
    have hl : (d.loadUidList now keys).1 = (u.reconcile keys).1 := load_settled now hs
    rw [hl]
    exact ⟨⟨hs.consistent, _, hs.consistent.extends_reconcile hf.nodup hr⟩, (reconcile_header u keys).2⟩
  · intro hn
    have hun : ¬ ∃ u, readUidList d.uidlist = .ok (some u) := by
      rintro ⟨u, hu⟩
      rw [listIn_eq_some.mpr hu] at hn
      cases hn
    have hl : (d.loadUidList now keys).1 = bootstrapUidList now keys := by
      rw [Folder.loadUidList, load_unread now hun]
    rw [hl]
    exact ⟨consistent_bootstrap now hf.nodup hf.few, (foldl_addKey_header _ _).2⟩

lemma Successor.shrink {now : Nat} (h : Successor now d u)
    (hu : Settled file u) (hn : keys.Nodup) (hk : ∀ key ∈ keys, key ∈ u.keys) :
    Successor now d (u.reconcile keys).1 := by
  have hr := hu.room_fewer hk
  have hg : Grows u (u.reconcile keys).1 :=
    ⟨hu.consistent, _, hu.consistent.extends_reconcile hn hr⟩
  have hv := (reconcile_header u keys).2
  refine ⟨fun w hw => ?_, fun hno => ?_⟩
  · obtain ⟨hb, hs⟩ := h.grown w hw
    exact ⟨hb.trans hg, hv.trans hs⟩
  · exact ⟨hg.2.1, hv.trans (h.born hno).2⟩

namespace History

def Clean (s : History) : Prop := ∀ loc d, s.store.disk loc = some d → d.Clean

-- No section under the lock exhausts the UIDs or meets a name it cannot write.
def Ready (s : History) : Event → Prop
  | .load loc keys => ∀ d, s.store.disk loc = some d → d.Fits keys
  | .expunge loc _ => ∀ d, s.store.disk loc = some d → d.Fits d.curDirKeys
  | _ => True

lemma list_of_disk (h : s.store.disk loc = some d) : s.list loc = listIn d.uidlist := by
  rw [list, h, bind_some]

variable {x : Option Folder} {e : Folder}

lemma clean_update {disk : Loc → Option Folder} (h : ∀ loc d, disk loc = some d → d.Clean)
    (hx : ∀ d, x = some d → d.Clean) : ∀ other d, update disk loc x other = some d → d.Clean :=
  (forall_update_iff disk fun _ y => ∀ d, y = some d → d.Clean).mpr ⟨hx, fun other _ => h other⟩

lemma Clean.setFolder (h : s.Clean) (he : e.Clean) :
    ∀ other d, (s.store.setFolder loc e).disk other = some d → d.Clean :=
  clean_update h fun _ hd => Option.some.inj hd ▸ he

lemma list_update (h : t.store.disk = update s.store.disk loc x) :
    t.list = update s.list loc (x.bind fun d => listIn d.uidlist) := by
  rw [show t.list = fun other => (t.store.disk other).bind fun d => listIn d.uidlist from rfl, h]
  exact bind_update _ _ loc x

lemma list_setFolder (h : t.store = s.store.setFolder loc e) :
    t.list = update s.list loc (listIn e.uidlist) :=
  list_update (x := some e) (by rw [h]; rfl)

lemma loaded_effect (hc : s.Clean)
    (hd : s.store.disk loc = some d) (hv : Settled e.uidlist v) (hs : Successor s.store.now d v) :
    Effect s (s.loaded loc d e) ∧ (s.loaded loc d e).Clean := by
  have hl := listIn_eq_some.mpr hv.read
  have he : e.Clean := fun u hu => (Option.some.inj (hl.symm.trans hu)) ▸ hv
  unfold loaded
  rcases hr : listIn d.uidlist with _ | u
  · have hn : ¬ readable d.uidlist = true := by
      rw [readable_iff, hr]
      simp
    rw [if_neg hn]
    obtain ⟨hco, hva⟩ := hs.born hr
    refine ⟨.born loc v s.store.now hco hva ?_ rfl rfl, hc.setFolder he⟩
    rw [list_setFolder rfl, hl]
  · rw [if_pos (readable_iff.mpr ⟨u, hr⟩)]
    obtain ⟨hg, hva⟩ := hs.grown u hr
    refine ⟨.grown loc u v ((list_of_disk hd).trans hr) hg hva ?_ rfl rfl, hc.setFolder he⟩
    rw [list_setFolder rfl, hl]

end History

def Store.Extends (st later : Store) : Prop :=
  ∀ loc, later.disk loc = st.disk loc ∨ (st.disk loc = none ∧ later.disk loc = some .empty)

namespace Store

lemma Extends.refl (st : Store) : st.Extends st := fun _ => .inl rfl

variable {st later : Store}

lemma Extends.setFolder (h : st.Extends later) (hn : st.disk loc = none) :
    st.Extends (later.setFolder loc .empty) := by
  intro other
  rcases eq_or_ne other loc with rfl | hne
  · exact .inr ⟨hn, setFolder_disk_self _ _ _⟩
  · rw [setFolder_disk_of_ne hne]
    exact h other

lemma Extends.addFolder (h : st.Extends later) (folder : Bytes) : st.Extends (later.addFolder folder) := by
  unfold Store.addFolder
  rcases hd : later.disk (.folder folder) with _ | d
  · apply h.setFolder
    obtain hs | ⟨hn, -⟩ := h _
    · exact hs.symm.trans hd
    · exact hn
  · exact h

lemma Extends.foldl_addFolder (h : st.Extends later) (folders : List Bytes) :
    st.Extends (folders.foldl Store.addFolder later) := by
  induction folders generalizing later with
  | nil => exact h
  | cons folder folders ih => exact ih (h.addFolder folder)

lemma extends_ensureMaildir (st : Store) : st.Extends st.ensureMaildir.1 := by
  unfold ensureMaildir
  rcases hd : st.disk .inbox with _ | d
  · exact ((Extends.refl st).setFolder hd).foldl_addFolder defaultFolders
  · exact .refl st

lemma extends_createFolder (st : Store) (folder : Bytes) : st.Extends (st.createFolder folder).1 := by
  unfold createFolder
  rcases folderPath folder with e | loc
  · exact .refl st
  · rcases hd : st.disk loc with _ | d
    · simpa [hd] using (extends_ensureMaildir st).setFolder hd
    · simpa [hd] using Extends.refl st

lemma folderPath_ok (h : folderPath folder = .ok loc) : loc = .folder folder := by
  unfold folderPath at h
  split_ifs at h
  exact (Except.ok.inj h).symm

lemma deleteFolder_cases (st : Store) (folder : Bytes) :
    (∃ e, st.deleteFolder folder = (st, .error e)) ∨ ∃ d, st.disk (.folder folder) = some d ∧
      st.deleteFolder folder = ({ st with
        disk := update st.disk (.folder folder) none
        deleted := update st.deleted (.folder folder) [] }, .ok ()) := by
  unfold deleteFolder
  rcases hp : folderPath folder with e | loc
  · exact .inl ⟨e, rfl⟩
  obtain rfl := folderPath_ok hp
  dsimp only
  rcases hd : st.disk (.folder folder) with _ | d
  · exact .inl ⟨_, rfl⟩
  · exact .inr ⟨d, rfl, rfl⟩

lemma renameFolder_cases (st : Store) (oldName newName : Bytes) :
    (∃ e, st.renameFolder oldName newName = (st, .error e)) ∨ ∃ d, st.disk (.folder oldName) = some d ∧
      st.disk (.folder newName) = none ∧
      st.renameFolder oldName newName = ({ st with
        disk := update (update st.disk (.folder newName) (some d)) (.folder oldName) none
        deleted := update st.deleted (.folder oldName) [] }, .ok ()) := by
  unfold renameFolder
  rcases hold : folderPath oldName with e | oldLoc
  · exact .inl ⟨e, rfl⟩
  obtain rfl := folderPath_ok hold
  rcases hn : folderPath newName with e | newLoc
  · exact .inl ⟨e, rfl⟩
  obtain rfl := folderPath_ok hn
  dsimp only
  cases hs : st.disk (.folder oldName) with
  | none => exact .inl ⟨_, rfl⟩
  | some d =>
    cases ht : st.disk (.folder newName) with
    | some e => exact .inl ⟨_, rfl⟩
    | none => exact .inr ⟨d, rfl, rfl, rfl⟩

end Store

namespace History

lemma step_effect {event : Event} (hc : s.Clean) (hr : s.Ready event)
    (hs : s.step event = some t) : Effect s t ∧ t.Clean := by
  cases event with
  | tick now =>
    cases hs
    exact ⟨.same rfl rfl rfl, hc⟩
  | create folder =>
    cases hs
    have hex := s.store.extends_createFolder folder
    refine ⟨.same ?_ rfl rfl, ?_⟩
    · funext loc
      obtain hsa | ⟨hn, hem⟩ := hex loc
      · rw [list, list, hsa]
      · rw [list, list, hn, hem]
        rfl
    · intro loc d hd
      obtain hsa | ⟨-, hem⟩ := hex loc
      · exact hc loc d (hsa.symm.trans hd)
      · obtain rfl := Option.some.inj (hem.symm.trans hd)
        exact fun u hu => by cases hu
  | delete folder =>
    obtain ⟨e, hre⟩ | ⟨d, -, hre⟩ := s.store.deleteFolder_cases folder
    · simp [step, hre] at hs
    · simp only [step, hre, Option.some.injEq] at hs
      subst hs
      exact ⟨.cleared _ (list_update (x := none) rfl) rfl rfl, clean_update hc nofun⟩
  | rename oldName newName =>
    obtain ⟨e, hre⟩ | ⟨d, hold, hnew, hre⟩ := s.store.renameFolder_cases oldName newName
    · simp [step, hre] at hs
    simp only [step, hre, Option.some.injEq] at hs
    subst hs
    have hne : Loc.folder oldName ≠ .folder newName := by
      intro heq
      rw [heq, hnew] at hold
      cases hold
    refine ⟨.moved _ _ hne ?_ rfl rfl,
      clean_update (clean_update hc fun _ he => Option.some.inj he ▸ hc _ d hold) nofun⟩
    rw [list_of_disk hold]
    refine (bind_update _ _ _ _).trans ?_
    rw [bind_update]
    rfl
  | touch loc e =>
    rcases hd : s.store.disk loc with _ | d <;> simp [step, hd] at hs
    obtain ⟨hf, rfl⟩ := hs
    refine ⟨.same ?_ rfl rfl, hc.setFolder ?_⟩
    · rw [list_setFolder rfl, hf, ← list_of_disk hd, update_eq_self]
    · unfold Folder.Clean
      rw [hf]
      exact hc loc d hd
  | damage loc file =>
    rcases hd : s.store.disk loc with _ | d <;> simp [step, hd, readable_iff] at hs
    obtain ⟨hb, rfl⟩ := hs
    have hn := eq_none_iff_forall_ne_some.mpr hb
    refine ⟨.cleared loc ?_ rfl rfl, hc.setFolder fun u hu => absurd hu (hb u)⟩
    rw [list_setFolder rfl, hn]
  | load loc keys =>
    rcases hd : s.store.disk loc with _ | d <;> simp [step, hd] at hs
    subst hs
    have hl := (hc loc d hd).loadable (hr d hd)
    exact loaded_effect hc hd (hl.load s.store.now).1 ((hc loc d hd).load_successor (hr d hd) _)
  | expunge loc gone =>
    rcases hd : s.store.disk loc with _ | d <;> simp [step, hd] at hs
    subst hs
    obtain ⟨hse, hk⟩ := ((hc loc d hd).loadable (hr d hd)).load s.store.now
    have hno := (d.removeMessages gone).curDirKeys_nodup
    have hsub : ∀ key ∈ (d.removeMessages gone).curDirKeys, key ∈ (d.loadUidList s.store.now d.curDirKeys).1.keys :=
      fun key hkey => (hk key).mpr ((filter_sublist.map _).subset hkey)
    exact loaded_effect hc hd (hse.reconcile_fewer hno hsub)
      (((hc loc d hd).load_successor (hr d hd) _).shrink hse hno hsub)

lemma clean_start (now : Nat) : (start now).Clean := fun _ _ h => nomatch h

lemma tracked_start (now : Nat) : (start now).Tracked := ⟨nofun, nofun, nofun⟩

lemma run_tracked (hc : s.Clean) (hs : s.Tracked) (hrun : Reaches step Ready s t) :
    t.Clean ∧ t.Tracked ∧ Since s t := by
  induction hrun with
  | refl => exact ⟨hc, hs, .refl hs⟩
  | tail event _ hr hst ih =>
    obtain ⟨hc, ht, hsi⟩ := ih
    obtain ⟨he, hn⟩ := step_effect hc hr hst
    obtain ⟨hl, hla⟩ := he.keeps ht
    exact ⟨hn, hl, hsi.trans hla⟩

lemma maps_iff {uid : Nat} {key : Bytes} :
    s.Maps loc uid key ↔ ∃ u, s.list loc = some u ∧ u.keyToUid key = some uid := by
  simp only [Maps, list, uidIn_eq, bind_eq_some_iff]
  constructor
  · rintro ⟨d, hd, u, hu, hk⟩
    exact ⟨u, ⟨d, hd, hu⟩, hk⟩
  · rintro ⟨u, ⟨d, hd, hu⟩, hk⟩
    exact ⟨d, hd, u, hu, hk⟩

lemma Tracked.bornAt (hs : s.Tracked) (hu : s.list loc = some u) :
    ∃ born, s.bornAt loc = some born ∧ u.uidValidity = uint32 born := by
  obtain ⟨-, i, born, hi, hb, hv⟩ := hs.tracked hu
  exact ⟨born, by rw [History.bornAt, hi, bind_some, hb], hv⟩

lemma uidValidity_answer (hp : folderOrInboxPath folder = .ok loc) (hu : s.list loc = some u) :
    (s.store.uidValidity folder).2 = .ok u.uidValidity := by
  obtain ⟨d, hd, hl⟩ := bind_eq_some_iff.mp hu
  have hlo : ∀ now, (d.loadUidList now d.curDirKeys).1.uidValidity = u.uidValidity := by
    intro now
    simp only [Folder.loadUidList, loadOrBootstrapUidList, listIn_eq_some.mp hl]
    exact (reconcile_header u d.curDirKeys).2
  have hk : s.store.ensureMaildir.1.disk loc = some d := by
    obtain hs | ⟨hn, -⟩ := s.store.extends_ensureMaildir loc
    · exact hs.trans hd
    · rw [hn] at hd
      cases hd
  unfold folderOrInboxPath at hp
  unfold Store.uidValidity
  by_cases hi : equalFold folder (ascii "INBOX") = true
  · rw [if_pos hi] at hp
    cases hp
    have he : s.store.ensureMaildir = (s.store, d) := by
      unfold Store.ensureMaildir
      rw [hd]
    rw [he]
    dsimp only
    rw [if_pos hi]
    exact congrArg Except.ok (hlo _)
  · rw [if_neg hi] at hp
    rcases he : s.store.ensureMaildir with ⟨st, inbox⟩
    rw [he] at hk
    dsimp only at hk ⊢
    rw [if_neg hi, hp]
    dsimp only [Store.initDir]
    rw [hk]
    exact congrArg Except.ok (hlo _)

end History

-- Only a new bootstrap gives a UID to another key, and its second is all that tells the two apart.
theorem reused_uid_validity_iff (now : Nat) (s t : History)
    (hs : Reaches History.step History.Ready (.start now) s) (ht : Reaches History.step History.Ready s t)
    (folder : Bytes) (loc : Loc) (hpath : folderOrInboxPath folder = .ok loc) (uid : Nat) (key other : Bytes)
    (hkey : s.Maps loc uid key) (hother : t.Maps loc uid other) (hne : key ≠ other) :
    s.origin loc ≠ t.origin loc ∧
      ((s.store.uidValidity folder).2 ≠ (t.store.uidValidity folder).2 ↔
        (s.bornAt loc).map uint32 ≠ (t.bornAt loc).map uint32) := by
  obtain ⟨hc, hs, -⟩ := History.run_tracked (History.clean_start now) (History.tracked_start now) hs
  obtain ⟨-, ht, hsi⟩ := History.run_tracked hc hs ht
  obtain ⟨u, hu, huk⟩ := History.maps_iff.mp hkey
  obtain ⟨v, hv, hvk⟩ := History.maps_iff.mp hother
  constructor
  · -- A list that goes back to the same bootstrap has grown from the first one.
    intro hsa
    obtain ⟨i, hi⟩ := hs.origin hu
    obtain ⟨place, w, hp, hw, hco, hl, he⟩ := hsi.old (hsa ▸ hi) hv (hs.bound hi)
    obtain rfl := hs.distinct hp hi
    obtain rfl : w = u := Option.some.inj (hw.symm.trans hu)
    exact hne (he.never_reused huk hvk).symm
  · obtain ⟨born, hb, hva⟩ := hs.bornAt hu
    obtain ⟨born', hbo, hvl⟩ := ht.bornAt hv
    rw [History.uidValidity_answer hpath hu, History.uidValidity_answer hpath hv, hb, hbo, hva, hvl]
    simp

def sampleFolder (key : String) : Folder := ⟨[], [⟨ascii key, [], ascii "hello"⟩], none, by simp⟩

def work : Bytes := ascii "Work"

def filled (key : String) : List Event :=
  [.create work, .touch (.folder work) (sampleFolder key), .load (.folder work) [ascii key]]

lemma reaches_filled (h : runSteps History.step s (filled key) = some t)
    (hk : ValidKey (ascii key)) : Reaches History.step History.Ready s t := by
  obtain ⟨u, hc, h⟩ := bind_eq_some_iff.mp h
  obtain ⟨v, ht, h⟩ := bind_eq_some_iff.mp h
  rw [runSteps_singleton] at h
  have hdi : v.store.disk (.folder work) = some (sampleFolder key) := by
    simp only [History.step] at ht
    split at ht
    · cases ht
    split at ht
    · cases ht
      exact Store.setFolder_disk_self _ _ _
    · cases ht
  refine ((Reaches.refl.tail _ trivial hc).tail _ trivial ht).tail _ ?_ h
  intro d hd
  obtain rfl := Option.some.inj (hdi.symm.trans hd)
  exact ⟨nodup_singleton _, by simpa using hk, nofun, by simp⟩

def shown (s : History) (key : String) : Option Nat × Option Nat :=
  ((s.store.disk (.folder work)).bind fun d => uidIn d.uidlist (ascii key), (s.store.uidValidity work).2.toOption)

lemma maps_of_shown {uid validity : Nat} (h : shown s key = (some uid, some validity)) :
    s.Maps (.folder work) uid (ascii key) ∧ (s.store.uidValidity work).2 = .ok validity := by
  obtain ⟨hu, hv⟩ := Prod.mk.inj h
  obtain ⟨d, hd, hk⟩ := bind_eq_some_iff.mp hu
  refine ⟨⟨d, hd, hk⟩, ?_⟩
  rcases ha : (s.store.uidValidity work).2 with e | v
  · simp [ha, Except.toOption] at hv
  · simpa [ha, Except.toOption] using hv

lemma sampleKeys : ValidKey (ascii "a") ∧ ValidKey (ascii "b") :=
  ⟨⟨by decide, by decide, by decide, by decide⟩, ⟨by decide, by decide, by decide, by decide⟩⟩

def remade (between : List Event) : Option (History × History) :=
  (runSteps History.step (.start 7) (filled "a")).bind fun s =>
    (runSteps History.step s between).bind fun u => (runSteps History.step u (filled "b")).map fun t => (s, t)

def remadeShown (p : History × History) :
    (Option Nat × Option Nat) × (Option Nat × Option Nat) × Option Nat × Option Nat :=
  (shown p.1 "a", shown p.2 "b", p.1.bornAt (.folder work), p.2.bornAt (.folder work))

lemma reaches_remade {between : List Event} (h : remade between = some (s, t))
    (hre : ∀ s, ∀ e ∈ between, History.Ready s e) :
    Reaches History.step History.Ready (.start 7) s ∧ Reaches History.step History.Ready s t := by
  obtain ⟨r, hr, h⟩ := bind_eq_some_iff.mp h
  obtain ⟨u, hu, h⟩ := bind_eq_some_iff.mp h
  obtain ⟨v, hv, h⟩ := map_eq_some_iff.mp h
  cases h
  exact ⟨reaches_filled hr sampleKeys.1, (Reaches.of_runSteps hre hu).trans (reaches_filled hv sampleKeys.2)⟩

theorem reused_uid_validity_iff_later :
    ∃ s t : History, s.Maps (.folder work) 1 (ascii "a") ∧ t.Maps (.folder work) 1 (ascii "b") ∧
      (s.store.uidValidity work).2 ≠ (t.store.uidValidity work).2 := by
  obtain ⟨⟨s, t⟩, hr, hsh⟩ := map_eq_some_iff.mp (show (remade [.tick 8, .delete work]).map remadeShown =
    some ((some 1, some 7), (some 1, some 8), some 7, some 8) by decide +kernel)
  simp only [remadeShown, Prod.mk.injEq] at hsh
  obtain ⟨hs, ht⟩ := reaches_remade hr (by simp [History.Ready])
  have hf := (maps_of_shown hsh.1).1
  have hse := (maps_of_shown hsh.2.1).1
  refine ⟨s, t, hf, hse, ?_⟩
  refine (reused_uid_validity_iff 7 s t hs ht work _ rfl 1 _ _ hf hse
    (by decide)).2.mpr ?_
  rw [hsh.2.2.1, hsh.2.2.2]
  decide

-- Within one second.
theorem remade_folder_same_validity :
    ∃ s t : History, Reaches History.step History.Ready (.start 7) s ∧ Reaches History.step History.Ready s t ∧
      s.Maps (.folder work) 1 (ascii "a") ∧ t.Maps (.folder work) 1 (ascii "b") ∧
      (s.store.uidValidity work).2 = .ok 7 ∧ (t.store.uidValidity work).2 = .ok 7 := by
  obtain ⟨⟨s, t⟩, hr, hsh⟩ := map_eq_some_iff.mp (show (remade [.delete work]).map remadeShown =
    some ((some 1, some 7), (some 1, some 7), some 7, some 7) by decide +kernel)
  simp only [remadeShown, Prod.mk.injEq] at hsh
  obtain ⟨hs, ht⟩ := reaches_remade hr (by simp [History.Ready])
  obtain ⟨hf, hv⟩ := maps_of_shown hsh.1
  obtain ⟨hse, hva⟩ := maps_of_shown hsh.2.1
  exact ⟨s, t, hs, ht, hf, hse, hv, hva⟩

end Maildancer.Maildir

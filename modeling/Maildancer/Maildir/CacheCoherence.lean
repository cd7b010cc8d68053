import Maildancer.Maildir.Calls

namespace Maildancer.Maildir

open Text UidList

structure Slot.Coherent (s : Slot) : Prop where
  kept : ∀ d, s.disk = some d → d.Kept
  cached : ∀ ul, s.cache = some ul →
    ∃ d, s.disk = some d ∧ Settled d.uidlist ul ∧ ∀ key, key ∈ ul.keys ↔ key ∈ d.curDirKeys

section Coherent

variable {names : Bytes → Prop} {s t : Slot}

lemma Slot.Coherent.not_cached (h : s.Coherent) (hn : s.disk = none) : s.cache = none := by
  rcases hc : s.cache with _ | ul
  · rfl
  · obtain ⟨d, hd, -⟩ := h.cached ul hc
    rw [hn] at hd
    cases hd

lemma Folder.loadUidList_same {d : Folder} {ul : UidList} (h : Settled d.uidlist ul)
    (hk : ∀ key, key ∈ ul.keys ↔ key ∈ d.curDirKeys) (now : Nat) :
    (d.loadUidList now d.curDirKeys).1 = ul ∧ (d.loadUidList now d.curDirKeys).2 = d := by
  rw [loadUidList, h.load_same_keys now hk]
  exact ⟨rfl, rfl⟩

lemma Change.coherent (h : Change names s t) (hn : ∀ key, names key → ValidKey key) (hs : s.Coherent) :
    t.Coherent := by
  refine ⟨h.kept hn hs.kept, fun ul hul => ?_⟩
  cases h with
  | arrive hd =>
    cases (hs.not_cached rfl).symm.trans hul
  | touch hm hcur =>
    obtain ⟨d, hd, hse, hk⟩ := hs.cached ul hul
    cases hd
    exact ⟨_, rfl, hm.uidlist ▸ hse, hcur ▸ hk⟩
  | load now hm hl hc =>
    obtain hc | hc := hc
    · obtain rfl := Option.some.inj (hc.symm.trans hul)
      exact ⟨_, rfl, (hl.load now).1, (hl.load now).2⟩
    · cases hc.symm.trans hul
  | reread now hl =>
    obtain ⟨d, hd, hse, hk⟩ := hs.cached ul hul
    cases hd
    exact ⟨_, congrArg some (Folder.loadUidList_same hse hk now).2, hse, hk⟩
  | settle hkey hmi hmo =>
    obtain ⟨d, hd, hse, hk⟩ := hs.cached _ rfl
    cases hd
    refine absurd ((hk _).mp ?_) hmi
    exact mem_keys.mpr ⟨_, (hse.consistent.uidToKey_iff _ _).mp hkey⟩
  | expunge now gone hl => cases hul
  | forget => exact hs.cached ul hul

lemma Steps.coherent (h : Steps names s t) (hn : ∀ key, names key → ValidKey key) (hs : s.Coherent) :
    t.Coherent := by
  induction h with
  | refl => exact hs
  | tail _ hc ih => exact hc.coherent hn ih

end Coherent

namespace Store

variable {st : Store} {c : StoreCall} {loc : Loc}

def Coherent (st : Store) : Prop := ∀ loc, (st.slot loc).Coherent

lemma Coherent.roomy (h : st.Coherent) (hr : st.Ready c) : st.Roomy 2 :=
  fun loc d hd => ⟨(h loc).kept d hd, hr.2 loc d hd⟩

-- No folder goes while a list of it is in the cache.
def Harmless (st : Store) (c : StoreCall) : Prop := ∀ loc, st.takes c = some loc → st.cache loc = none

lemma coherent_call_iff (h : st.Coherent) (hr : st.Ready c) : (st.call c).Coherent ↔ st.Harmless c := by
  constructor
  · intro ha loc ht
    obtain ⟨-, hs⟩ := call_takes ht
    have hn := (ha loc).not_cached (by rw [hs])
    rw [hs] at hn
    exact hn
  · intro hh loc
    by_cases ht : st.takes c = some loc
    · rw [(call_takes ht).2, hh loc ht]
      exact ⟨fun _ hd => (by cases hd), fun _ hul => (by cases hul)⟩
    rcases hm : c.marked with _ | mark
    · exact (call_steps (h.roomy hr) hr.1 hm ht).coherent hr.1 (h loc)
    · rw [call_marked hm]
      exact ⟨(h loc).kept, (h loc).cached⟩

def uncached (st : Store) : Store := { st with cache := fun _ => none }

def Transparent (st : Store) : Prop := ∀ loc uid, (st.lookupKey loc uid).2 = (st.uncached.lookupKey loc uid).2

lemma Coherent.transparent (h : st.Coherent) : st.Transparent := by
  intro loc uid
  unfold uncached lookupKey
  rcases hc : st.cache loc with _ | ul
  · cases hdi : st.disk loc with
    | none | some d => rfl
  · obtain ⟨d, hd, hs, hk⟩ := (h loc).cached ul hc
    have hdi : st.disk loc = some d := hd
    simp only [hdi, (Folder.loadUidList_same hs hk st.now).1]

lemma Transparent.not_cached (h : st.Transparent) (hd : st.disk loc = none) : st.cache loc = none := by
  rcases hc : st.cache loc with _ | ul
  · rfl
  have hl := h loc 0
  simp only [lookupKey, uncached, hc, hd, findKey] at hl
  cases hk : ul.uidToKey 0 with
  | none | some key =>
    rw [hk] at hl
    cases hl

def act (st : Store) (c : StoreCall) : Option Store := some (st.call c)

-- The cache is not seen as long as every folder that is deleted or renamed has no
-- list in it, and is seen after the first that has.
theorem cache_invisible_iff {st : Store} (hkept : ∀ loc d, st.disk loc = some d → d.Kept)
    (hempty : ∀ loc, st.cache loc = none) {later : Store}
    (hrun : Reaches act (fun st c => st.Ready c ∧ st.Harmless c) st later) :
    later.Transparent ∧ ∀ c, later.Ready c → ((later.call c).Transparent ↔ later.Harmless c) := by
  have hc : later.Coherent := by
    refine hrun.invariant (fun loc => ⟨hkept loc, fun ul hul => ?_⟩) ?_
    · cases (hempty loc).symm.trans hul
    · rintro st c _ hst ⟨hr, hh⟩ hs
      cases hs
      exact (coherent_call_iff hst hr).mpr hh
  refine ⟨hc.transparent, fun c hr => ⟨fun ht loc hta => ?_, fun hh => ?_⟩⟩
  · obtain ⟨-, hsl⟩ := call_takes hta
    have hd := congrArg Slot.disk hsl
    have hca : (later.call c).cache loc = later.cache loc := congrArg Slot.cache hsl
    rw [← hca]
    exact ht.not_cached hd
  · exact ((coherent_call_iff hc hr).mpr hh).transparent

def vacant : Store := ⟨fun _ => none, fun _ => [], fun _ => none, 5⟩

def mailed : Store := vacant.setFolder (.folder work) ⟨[], [⟨ascii "a", [], ascii "old"⟩], none, by decide⟩

lemma mailed_roomy : mailed.Roomy 3 := by
  intro loc d hd
  rcases eq_or_ne loc (.folder work) with rfl | hne
  · obtain rfl := Option.some.inj ((setFolder_disk_self vacant _ _).symm.trans hd)
    refine ⟨⟨fun key hk => ?_, fun _ hr => by cases hr⟩, by decide, fun _ hr => by cases hr⟩
    obtain rfl := List.mem_singleton.mp hk
    exact sampleKeys.1
  · cases (setFolder_disk_of_ne hne).symm.trans hd

-- The list that RetrieveFromFolder caches is not seen until its folder goes.
theorem cache_invisible_iff_retrieved :
    ((mailed.call (.retrieveFromFolder work 1)).cache (.folder work)).isSome = true ∧
      (mailed.call (.retrieveFromFolder work 1)).Transparent ∧
      ((mailed.call (.retrieveFromFolder work 1)).call (.retrieveFromFolder work 1)).Transparent ∧
      ¬ ((mailed.call (.retrieveFromFolder work 1)).call (.deleteFolder work)).Transparent := by
  have hlo : mailed.call (.retrieveFromFolder work 1) = (mailed.lookupKey (.folder work) 1).1 := rfl
  have hro : (mailed.call (.retrieveFromFolder work 1)).Roomy 2 := hlo ▸ mailed_roomy.lookupKey (.folder work) 1
  have hca : ((mailed.call (.retrieveFromFolder work 1)).cache (.folder work)).isSome = true := by decide +kernel
  have hru : Reaches act (fun st c => st.Ready c ∧ st.Harmless c) mailed (mailed.call (.retrieveFromFolder work 1)) :=
    Reaches.refl.tail (.retrieveFromFolder work 1)
      ⟨⟨fun _ h => False.elim h, fun loc d hd => ((mailed_roomy.mono (by omega)) loc d hd).2⟩, nofun⟩ rfl
  obtain ⟨hb, ha⟩ := cache_invisible_iff (fun loc d hd => (mailed_roomy loc d hd).1) (fun _ => rfl) hru
  have hre : ∀ c : StoreCall, (∀ key, ¬ c.Names key) → (mailed.call (.retrieveFromFolder work 1)).Ready c :=
    fun c hn => ⟨fun key hk => absurd hk (hn key), fun loc d hd => (hro loc d hd).2⟩
  refine ⟨hca, hb, (ha (.retrieveFromFolder work 1) (hre _ fun _ => id)).mpr nofun, fun ht => ?_⟩
  have hn := (ha (.deleteFolder work) (hre _ fun _ => id)).mp ht (.folder work) (by decide +kernel)
  simp [hn] at hca

def replaced : Option Store :=
  runSteps act vacant [.appendToFolder work (ascii "a") (ascii "old") [], .retrieveFromFolder work 1,
    .deleteFolder work, .appendToFolder (ascii "Next") (ascii "b") (ascii "new") [],
    .renameFolder (ascii "Next") work]

theorem stale_key_served : ∃ st, replaced = some st ∧ (st.lookupKey (.folder work) 1).2 = .ok (ascii "a") ∧
    (st.uncached.lookupKey (.folder work) 1).2 = .ok (ascii "b") ∧
    (st.retrieveFromFolder work 1).2 = .error (.noSuchKey (ascii "a")) := by
  refine ⟨_, rfl, ?_, ?_, ?_⟩
  · decide +kernel
  · decide +kernel
  · decide +kernel

end Store

end Maildancer.Maildir

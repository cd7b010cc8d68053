import Maildancer.Maildir.StableUids

namespace Maildancer.Maildir

open Option List Text UidList

-- What .uidlist on disk says of a UID.
def Folder.keyOf (d : Folder) (uid : Nat) : Option Bytes :=
  match readUidList d.uidlist with
  | .ok (some u) => u.uidToKey uid
  | _ => none

-- The 32-bit counter does not run out during one call.
def Folder.HasRoom (d : Folder) : Prop :=
  d.cur.length + 2 < 2 ^ 32 ∧
    ∀ u, readUidList d.uidlist = .ok (some u) → u.uidNext + d.cur.length + 1 < 2 ^ 32

variable {d : Folder} {keys : List Bytes}

lemma Folder.Kept.loadable (h : d.Kept) (hr : d.HasRoom)
    (hl : keys.length ≤ d.cur.length + 1) (hn : keys.Nodup)
    (hv : ∀ key ∈ keys, ValidKey key) : Loadable d.uidlist keys := by
  obtain ⟨hc, hne⟩ := hr
  refine ⟨fun u hre => ⟨h.settled u hre, ?_⟩, by omega, hn, hv⟩
  have ha : u.assigns keys ≤ keys.length := length_filter_le _ _
  have := hne u hre
  omega

namespace Shared

-- Where the call of process p stands, with the folder spelled out.
structure Stage (s : Shared) (p : Nat) (call : Call) (new : List NewFile) (cur : List MsgFile)
    (uidlist : Option Bytes) : Prop where
  call : s.calls p = call
  new : s.folder.new = new
  cur : s.folder.cur = cur
  uidlist : s.folder.uidlist = uidlist

variable {flags : List ImapFlag} {f : NewFile} {late : List NewFile}

namespace Stage

variable {s t : Shared} {p now : Nat} {call : Call} {new : List NewFile} {cur : List MsgFile}
  {uidlist : Option Bytes}

lemma set (hn : d.new = new) (hc : d.cur = cur) (hl : d.uidlist = uidlist) :
    Stage (s.set p call d) p call new cur uidlist :=
  ⟨Function.update_self _ _ _, hn, hc, hl⟩

lemma deliveries (h : Stage s p call new cur uidlist) {files : List NewFile}
    (hrun : runSteps step s (files.map .deliver) = some t) : Stage t p call (new ++ files) cur uidlist := by
  induction files generalizing s new with
  | nil =>
    cases hrun
    rwa [append_nil]
  | cons f files ih =>
    obtain ⟨r, hs, hr⟩ := bind_eq_some_iff.mp hrun
    simp only [step] at hs
    split_ifs at hs with hf
    cases hs
    have hn : Stage { s with folder := s.folder.deliver f hf } p call _ cur uidlist :=
      ⟨h.call, congrArg (· ++ [f]) h.new, h.cur, h.uidlist⟩
    rw [← singleton_append, ← append_assoc]
    exact ih hn hr

lemma readNew {result : Option Nat}
    (h : Stage s p (.idle result) new cur uidlist) (hs : s.step (.readNew p flags) = some t) :
    Stage t p (.appending (new.map NewFile.key) (convertFlagsFromImap flags)) new cur uidlist := by
  simp only [step, h.call] at hs
  cases hs
  rw [← h.new]
  exact set rfl h.cur h.uidlist

lemma place {next : Call} (h : Stage s p call new cur uidlist)
    (hs : s.place p next f = some t) : Stage t p next (new ++ [f]) cur uidlist := by
  unfold Shared.place at hs
  split_ifs at hs
  cases hs
  exact set (congrArg (· ++ [f]) h.new) h.cur h.uidlist

variable {beforeKeys : List Bytes}

lemma appendFile {flags : List Flag}
    (h : Stage s p (.appending beforeKeys flags) new cur uidlist) (hs : s.step (.appendFile p f) = some t) :
    Stage t p (.delivered beforeKeys flags) (new ++ [f]) cur uidlist := by
  simp only [step, h.call] at hs
  exact h.place hs

lemma findKey {flags : List Flag} {key : Bytes}
    (h : Stage s p (.delivered beforeKeys flags) new cur uidlist)
    (hf : (sortStrings (new.map NewFile.key)).find? (· ∉ beforeKeys) = some key)
    (hs : s.step (.findKey p) = some t) : Stage t p (.found key flags) new cur uidlist := by
  have hk : s.folder.maildirNewKey beforeKeys = some key := by
    rw [Folder.maildirNewKey, Folder.maildirNewKeys, h.new]
    exact hf
  simp only [step, h.call, hk] at hs
  cases hs
  exact set h.new h.cur h.uidlist

lemma moveToCur {flags : List Flag} (h : Stage s p (.found f.key flags) new cur uidlist)
    (hf : f ∈ new) (hs : s.step (.moveToCur p) = some t) :
    Stage t p (.appended f.key) (new.filter (·.key ≠ f.key)) (cur ++ [f.toCur (infoFromFlags flags)])
      uidlist := by
  obtain ⟨d, hm, hnew, hc, hl⟩ : ∃ d, s.folder.moveNewToCurWithFlags f.key flags = some d ∧
      d.new = new.filter (·.key ≠ f.key) ∧ d.cur = cur ++ [f.toCur (infoFromFlags flags)] ∧
      d.uidlist = uidlist := by
    unfold Folder.moveNewToCurWithFlags
    split
    case h_1 hn =>
      rw [h.new] at hn
      exact absurd (decide_eq_true rfl) (List.find?_eq_none.mp hn f hf)
    case h_2 g hfo =>
      have hg := mem_of_find?_eq_some hfo
      have hk : g.key = f.key := by simpa using List.find?_some hfo
      have hno := (nodup_append.mp s.folder.distinct).1
      obtain rfl := List.inj_on_of_nodup_map hno hg (h.new ▸ hf) hk
      exact ⟨_, rfl, congrArg (List.filter _) h.new, congrArg (· ++ _) h.cur, h.uidlist⟩
  simp only [step, h.call, hm] at hs
  cases hs
  exact set hnew hc hl

lemma copyCur {result : Option Nat} {f : MsgFile} (h : Stage s p (.idle result) new cur uidlist)
    (hs : s.step (.copyCur p f) = some t) : Stage t p .copied new (cur ++ [f]) uidlist := by
  simp only [step, h.call] at hs
  split_ifs at hs
  cases hs
  exact set h.new (congrArg (· ++ [f]) h.cur) h.uidlist

lemma copyNew {result : Option Nat} (h : Stage s p (.idle result) new cur uidlist)
    (hs : s.step (.copyNew p f) = some t) : Stage t p .copied (new ++ [f]) cur uidlist := by
  simp only [step, h.call] at hs
  exact h.place hs

lemma locked {result : UidList → Option Nat}
    (h : Stage s p call new cur uidlist) (hk : keys = cur.map MsgFile.key)
    (hn : s.locked p now s.folder.curDirKeys result = t) :
    Stage t p (.idle (result (loadOrBootstrapUidList now uidlist keys).1)) new cur
      (loadOrBootstrapUidList now uidlist keys).2 := by
  have hc : s.folder.curDirKeys = keys := by rw [Folder.curDirKeys, h.cur, hk]
  rw [← hn, ← hc, ← h.uidlist]
  exact set h.new h.cur rfl

end Stage

lemma exists_found {before placed : List NewFile}
    (hn : ((before ++ placed).map NewFile.key).Nodup) (hf : f ∈ placed) :
    ∃ g ∈ placed, (sortStrings ((before ++ placed).map NewFile.key)).find?
        (· ∉ before.map NewFile.key) = some g.key ∧ ∀ h ∈ placed, g.key ≤ h.key := by
  have ha : ∀ h ∈ placed, h.key ∉ before.map NewFile.key := by
    intro h hh hold
    rw [map_append] at hn
    exact (nodup_append.mp hn).2.2 _ hold _ (mem_map_of_mem hh) rfl
  have hm : ∀ h ∈ placed, h.key ∈ (before ++ placed).map NewFile.key := fun h hh =>
    mem_map_of_mem (mem_append_right _ hh)
  cases hfi : (sortStrings ((before ++ placed).map NewFile.key)).find?
      (· ∉ before.map NewFile.key) with
  | none =>
    have hno := List.find?_eq_none.mp hfi f.key ((mem_sortStrings _ _).mpr (hm f hf))
    exact absurd (decide_eq_true (ha f hf)) hno
  | some key =>
    obtain ⟨hk, ho, hl⟩ := find?_sortStrings_eq_some.mp hfi
    obtain ⟨g, hg, rfl⟩ := mem_map.mp hk
    have hp := (mem_append.mp hg).resolve_left fun hold =>
      of_decide_eq_true ho (mem_map_of_mem hold)
    exact ⟨g, hp, rfl, fun h hh => hl h.key (hm h hh) (decide_eq_true (ha h hh))⟩

-- AppendToFolder with the deliveries of other processes between its accesses.
def appendRun (p now : Nat) (flags : List ImapFlag) (f : NewFile)
    (early late afterFind afterMove : List NewFile) : List Access :=
  [.readNew p flags] ++ early.map .deliver ++ [.appendFile p f] ++ late.map .deliver ++
    [.findKey p] ++ afterFind.map .deliver ++ [.moveToCur p] ++ afterMove.map .deliver ++
    [.assign p now]

-- CopyMessage writes the file, others may deliver, and then the UIDs are assigned.
def copyRun (now p : Nat) (copy : Access) (late : List NewFile) : List Access :=
  [copy] ++ late.map .deliver ++ [.assign p now]

variable {s t : Shared} {p now : Nat} {result : Option Nat}

lemma keyOf_eq {ul : UidList} (h : Settled d.uidlist ul) (uid : Nat) :
    d.keyOf uid = ul.uidToKey uid := by
  simp only [Folder.keyOf, h.read]

variable {early afterFind afterMove : List NewFile}

lemma appendRun_stage (hi : s.calls p = .idle result)
    (hrun : runSteps step s (appendRun p now flags f early late afterFind afterMove) = some t) :
    ∃ g r new, g ∈ early ++ [f] ++ late ∧ (∀ h ∈ early ++ [f] ++ late, g.key ≤ h.key) ∧
      ((early ++ [f] ++ late).map NewFile.key).Nodup ∧
      Stage r p (.appended g.key) new
        (s.folder.cur ++ [g.toCur (infoFromFlags (convertFlagsFromImap flags))]) s.folder.uidlist ∧
      r.step (.assign p now) = some t := by
  simp only [appendRun, runSteps_append, runSteps_singleton, bind_eq_some_iff] at hrun
  obtain ⟨s₈, ⟨s₇, ⟨s₆, ⟨s₅, ⟨s₄, ⟨s₃, ⟨s₂, ⟨s₁, hr, he⟩, hfi⟩, hl⟩, hfn⟩, ha⟩, hm⟩, haf⟩, hai⟩ := hrun
  have hs : Stage s p (.idle result) s.folder.new s.folder.cur s.folder.uidlist :=
    ⟨hi, rfl, rfl, rfl⟩
  have hd := (((hs.readNew hr).deliveries he).appendFile hfi).deliveries hl
  have hnew : s.folder.new ++ early ++ [f] ++ late = s.folder.new ++ (early ++ [f] ++ late) := by
    simp only [append_assoc]
  rw [hnew] at hd
  have hn := (nodup_append.mp s₄.folder.distinct).1
  rw [hd.new] at hn
  have hf : f ∈ early ++ [f] ++ late := by simp
  obtain ⟨g, hg, hfo, hle⟩ := exists_found hn hf
  have hmo := ((hd.findKey hfo hfn).deliveries ha).moveToCur
    (mem_append_left _ (mem_append_right _ hg)) hm
  rw [map_append] at hn
  exact ⟨g, s₈, _, hg, hle, (nodup_append.mp hn).2.1, hmo.deliveries haf, hai⟩

lemma append_uid_iff (hk : s.folder.Kept) (hr : s.folder.HasRoom)
    (hi : s.calls p = .idle result) (hv : ∀ g ∈ early ++ [f] ++ late, ValidKey g.key)
    (hrun : runSteps step s (appendRun p now flags f early late afterFind afterMove) = some t) :
    ∃ uid, t.calls p = .idle (some uid) ∧ ((t.folder.keyOf uid = some f.key ∧
        f.toCur (infoFromFlags (convertFlagsFromImap flags)) ∈ t.folder.cur) ↔
      ∀ g ∈ early ++ late, f.key ≤ g.key) := by
  obtain ⟨g, r, new, hg, hl, hn, hs, ha⟩ := appendRun_stage hi hrun
  simp only [step, hs.call] at ha
  have hd := hs.locked rfl (Option.some.inj ha)
  have hke : (s.folder.cur ++ [g.toCur (infoFromFlags (convertFlagsFromImap flags))]).map
      MsgFile.key = s.folder.curDirKeys ++ [g.key] := map_append
  have hlo : Loadable s.folder.uidlist (s.folder.curDirKeys ++ [g.key]) := by
    refine hk.loadable hr (by simp [Folder.curDirKeys]) ?_ fun key hkey => ?_
    · rw [← hke, ← hs.cur]
      exact r.folder.curDirKeys_nodup
    · rcases mem_append.mp hkey with hc | hla
      · exact hk.cur key hc
      · exact List.mem_singleton.mp hla ▸ hv g hg
  obtain ⟨hse, hli⟩ := hlo.load now
  rw [hke] at hd
  obtain ⟨uid, hu⟩ := mem_keys.mp ((hli g.key).mpr (mem_append_right _
    (mem_singleton_self _)))
  have hre := (hse.consistent.keyToUid_iff g.key uid).mpr hu
  have hna : t.folder.keyOf uid = some g.key := by
    rw [keyOf_eq (hd.uidlist ▸ hse)]
    exact (hse.consistent.uidToKey_iff uid g.key).mpr hu
  refine ⟨uid, hd.call.trans (congrArg Call.idle hre), ?_⟩
  rw [hna, hd.cur]
  constructor
  · rintro ⟨hkey, -⟩ h hh
    rw [← Option.some.inj hkey]
    exact hl h (by simpa [or_left_comm] using Or.inr (mem_append.mp hh))
  intro hfi
  have hf : f ∈ early ++ [f] ++ late := by simp
  have hle : f.key ≤ g.key := by
    rcases mem_append.mp hg with hg | hg
    · rcases mem_append.mp hg with hg | hg
      · exact hfi g (mem_append_left _ hg)
      · exact List.mem_singleton.mp hg ▸ List.le_refl _
    · exact hfi g (mem_append_right _ hg)
  obtain rfl := List.inj_on_of_nodup_map hn hg hf (List.le_antisymm (hl f hf) hle)
  exact ⟨rfl, mem_append_right _ (mem_singleton_self _)⟩

lemma uint32_pred {n : Nat} (hp : 1 ≤ n) (hlt : n < 2 ^ 32) : uint32 (n + (2 ^ 32 - 1)) = n - 1 := by
  unfold uint32
  omega

lemma copied_uid {r : Shared} {new : List NewFile} {cur : List MsgFile} {file : Option Bytes}
    (hs : Stage r p .copied new cur file) (hl : Loadable file (cur.map MsgFile.key))
    (ha : r.step (.assign p now) = some t) :
    ∃ uid, t.calls p = .idle (some uid) ∧ ∀ key, t.folder.keyOf uid = some key ↔
      (loadOrBootstrapUidList now file (cur.map MsgFile.key)).1.uidToKey
        ((loadOrBootstrapUidList now file (cur.map MsgFile.key)).1.uidNext - 1) = some key := by
  simp only [step, hs.call] at ha
  have hd := hs.locked rfl (Option.some.inj ha)
  obtain ⟨hse, _⟩ := hl.load now
  refine ⟨_, hd.call, fun key => ?_⟩
  rw [keyOf_eq (hd.uidlist ▸ hse), uint32_pred hse.consistent.next_pos hse.storable.next_lt]

lemma copy_uid_iff {src : Folder} {srcKey fresh : Bytes} {copy : Access}
    (hk : s.folder.Kept) (hr : s.folder.HasRoom) (hi : s.calls p = .idle result)
    (hv : ValidKey fresh) (hfr : s.folder.uidOf fresh = none)
    (hc : copyAccess p src srcKey fresh = some copy)
    (hrun : runSteps step s (copyRun now p copy late) = some t) : ∃ uid, t.calls p = .idle (some uid) ∧
      (t.folder.keyOf uid = some fresh ↔ (src.messageByKey srcKey).isSome ∧
        ∀ key ∈ s.folder.curDirKeys, s.folder.uidOf key = none → key ≤ fresh) := by
  simp only [copyRun, runSteps_append, runSteps_singleton, bind_eq_some_iff] at hrun
  obtain ⟨s₂, ⟨s₁, hp, hl⟩, ha⟩ := hrun
  have hs : Stage s p (.idle result) s.folder.new s.folder.cur s.folder.uidlist :=
    ⟨hi, rfl, rfl, rfl⟩
  unfold copyAccess at hc
  rcases hsrc : src.messageByKey srcKey with _ | f
  · rw [hsrc] at hc
    obtain ⟨f, hf, rfl⟩ := map_eq_some_iff.mp hc
    have hst := (hs.copyNew hp).deliveries hl
    have hlo : Loadable s.folder.uidlist (s.folder.cur.map MsgFile.key) :=
      hk.loadable hr (by simp) s.folder.curDirKeys_nodup hk.cur
    obtain ⟨uid, hre, hn⟩ := copied_uid hst hlo ha
    refine ⟨uid, hre, ?_⟩
    rw [hn]
    refine iff_of_false (fun hkey => ?_) (fun h => nomatch h.1)
    obtain ⟨hse, hli⟩ := hlo.load now
    have hls := mem_keys.mpr ⟨_, (hse.consistent.uidToKey_iff _ _).mp hkey⟩
    have hcur := (hli fresh).mp hls
    have hd := s₂.folder.distinct
    rw [hst.new, hst.cur] at hd
    exact (nodup_append.mp hd).2.2 fresh (by simp) fresh hcur rfl
  · rw [hsrc] at hc
    cases hc
    have hst := (hs.copyCur hp).deliveries hl
    have hke : (s.folder.cur ++ [{ f with key := fresh }]).map MsgFile.key =
        s.folder.curDirKeys ++ [fresh] := map_append
    have hlo : Loadable s.folder.uidlist
        ((s.folder.cur ++ [{ f with key := fresh }]).map MsgFile.key) := by
      refine hk.loadable hr (by simp) ?_ fun key hkey => ?_
      · rw [← hst.cur]
        exact s₂.folder.curDirKeys_nodup
      rw [hke] at hkey
      rcases mem_append.mp hkey with hcur | hla
      · exact hk.cur key hcur
      · exact List.mem_singleton.mp hla ▸ hv
    obtain ⟨uid, hre, hn⟩ := copied_uid hst hlo ha
    refine ⟨uid, hre, ?_⟩
    rw [hn, hlo.newest_iff now (by simp) hfr, hke]
    simp only [isSome_some, true_and]
    refine ⟨fun h key hkey => h key (mem_append_left _ hkey), fun h key hkey hno => ?_⟩
    rcases mem_append.mp hkey with hcur | hla
    · exact h key hcur hno
    · exact List.mem_singleton.mp hla ▸ List.le_refl _

theorem returned_uid_iff (now : Nat) (hkept : s.folder.Kept) (hroom : s.folder.HasRoom)
    (hidle : s.calls p = .idle result) :
    (∀ flags f early late afterFind afterMove t, (∀ g ∈ early ++ [f] ++ late, ValidKey g.key) →
      runSteps step s (appendRun p now flags f early late afterFind afterMove) = some t →
      ∃ uid, t.calls p = .idle (some uid) ∧
        ((t.folder.keyOf uid = some f.key ∧
          f.toCur (infoFromFlags (convertFlagsFromImap flags)) ∈ t.folder.cur) ↔
        ∀ g ∈ early ++ late, f.key ≤ g.key)) ∧
    ∀ src srcKey fresh copy late t, ValidKey fresh → s.folder.uidOf fresh = none →
      copyAccess p src srcKey fresh = some copy →
      runSteps step s (copyRun now p copy late) = some t →
      ∃ uid, t.calls p = .idle (some uid) ∧
        (t.folder.keyOf uid = some fresh ↔ (src.messageByKey srcKey).isSome ∧
          ∀ key ∈ s.folder.curDirKeys, s.folder.uidOf key = none → key ≤ fresh) :=
  ⟨fun _ _ _ _ _ _ _ hvalid hrun => append_uid_iff hkept hroom hidle hvalid hrun,
    fun _ _ _ _ _ _ hvalid hfresh hcopy hrun =>
      copy_uid_iff hkept hroom hidle hvalid hfresh hcopy hrun⟩

def memo : NewFile := ⟨ascii "1700000001.M2P2Q2.mx", ascii "memo"⟩

def copyKey : Bytes := ascii "1700000000.M3P3Q3.mx"

def unlistedFolder : Folder where
  new := []
  cur := [memo.toCur []]
  uidlist := none
  distinct := List.nodup_singleton _

-- A delivery that sorts before the own file, and a file not listed yet, are taken for the own one.
theorem returned_uid_of_other :
    (∃ t, runSteps step (start Folder.empty) (appendRun 0 5 [] memo [] [letter] [] []) = some t ∧
      t.calls 0 = .idle (some 1) ∧ t.folder.keyOf 1 = some letter.key) ∧
    ∃ copy t, copyAccess 0 letterFolder letter.key copyKey = some copy ∧
      runSteps step (start unlistedFolder) (copyRun 5 0 copy []) = some t ∧
      t.calls 0 = .idle (some 2) ∧ t.folder.keyOf 2 = some memo.key := by
  have ha : (runSteps step (start Folder.empty) (appendRun 0 5 [] memo [] [letter] [] [])).any
      (fun t => t.calls 0 = .idle (some 1) ∧ t.folder.keyOf 1 = some letter.key) = true := by
    decide +kernel
  have hc : (runSteps step (start unlistedFolder)
      (copyRun 5 0 (.copyCur 0 { letter.toCur [] with key := copyKey }) [])).any
      (fun t => t.calls 0 = .idle (some 2) ∧ t.folder.keyOf 2 = some memo.key) = true := by
    decide +kernel
  simp only [Option.any_eq_true, decide_eq_true_eq] at ha hc
  obtain ⟨t, ht, hl⟩ := hc
  exact ⟨ha, _, t, rfl, ht, hl⟩

lemma letterFolder_hasRoom : letterFolder.HasRoom := by
  refine ⟨by decide, fun u hr => ?_⟩
  obtain rfl := letterFolder_settled.unique hr
  decide +kernel

theorem returned_uid_iff_letter :
    (∃ t uid, runSteps step (start letterFolder) (appendRun 0 5 [.seen] memo [] [] [] []) = some t ∧
      t.calls 0 = .idle (some uid) ∧ t.folder.keyOf uid = some memo.key) ∧
    ∃ copy t uid, copyAccess 0 letterFolder letter.key copyKey = some copy ∧
      runSteps step (start letterFolder) (copyRun 5 0 copy [memo]) = some t ∧
      t.calls 0 = .idle (some uid) ∧ t.folder.keyOf uid = some copyKey := by
  obtain ⟨ha, hc⟩ := returned_uid_iff (s := start letterFolder) (p := 0) 5 letterFolder_kept
    letterFolder_hasRoom rfl
  constructor
  · obtain ⟨t, ht⟩ : ∃ t, runSteps step (start letterFolder)
        (appendRun 0 5 [.seen] memo [] [] [] []) = some t :=
      isSome_iff_exists.mp (by decide +kernel)
    have hv : ∀ g ∈ [] ++ [memo] ++ [], ValidKey g.key := fun g hg => by
      obtain rfl := mem_singleton.mp hg
      constructor <;> decide
    obtain ⟨uid, hr, hi⟩ := ha [.seen] memo [] [] [] [] t hv ht
    exact ⟨t, uid, ht, hr, (hi.mpr fun _ hg => nomatch hg).1⟩
  · obtain ⟨t, ht⟩ : ∃ t, runSteps step (start letterFolder)
        (copyRun 5 0 (.copyCur 0 { letter.toCur [] with key := copyKey }) [memo]) = some t :=
      isSome_iff_exists.mp (by decide +kernel)
    have hv : ValidKey copyKey := by constructor <;> decide
    obtain ⟨uid, hr, hi⟩ := hc letterFolder letter.key copyKey _ [memo] t hv
      (by decide +kernel) rfl ht
    refine ⟨_, t, uid, rfl, ht, hr, hi.mpr ⟨rfl, fun key hk hn => ?_⟩⟩
    obtain rfl := mem_singleton.mp hk
    exact absurd hn (by decide +kernel)

end Shared

end Maildancer.Maildir

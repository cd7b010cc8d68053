import Maildancer.Maildir.Processes
import Maildancer.UidList.Load

namespace Maildancer.Maildir

open List Text UidList

variable {f : NewFile}

namespace Folder

def uidOf (d : Folder) (key : Bytes) : Option Nat := uidIn d.uidlist key

-- Every key can be stored in .uidlist, and a readable .uidlist is one that the code has left.
structure Kept (d : Folder) : Prop where
  validKeys : ∀ key ∈ d.keys, ValidKey key
  settled : ∀ u, readUidList d.uidlist = .ok (some u) → Settled d.uidlist u

variable {d e : Folder}

lemma Kept.cur (h : d.Kept) : ∀ key ∈ d.curDirKeys, ValidKey key :=
  fun key hk => h.validKeys key (mem_append_right _ hk)

-- Files may be renamed, but .uidlist stays.
structure Moves (d e : Folder) : Prop where
  uidlist : e.uidlist = d.uidlist
  keys : ∀ key ∈ e.keys, key ∈ d.keys ∨ ValidKey key

lemma Moves.refl (d : Folder) : Moves d d := ⟨rfl, fun _ hk => .inl hk⟩

structure Rearranges (names : Bytes → Prop) (d e : Folder) : Prop where
  uidlist : e.uidlist = d.uidlist
  new : ∀ key ∈ e.maildirNewKeys, key ∈ d.maildirNewKeys ∨ names key
  cur : ∀ key ∈ e.curDirKeys, key ∈ d.keys ∨ names key
  stays : ∀ key ∈ d.curDirKeys, key ∈ e.curDirKeys

variable {names : Bytes → Prop}

lemma Rearranges.refl (names : Bytes → Prop) (d : Folder) : Rearranges names d d :=
  ⟨rfl, fun _ h => .inl h, fun _ h => .inl (mem_append_right _ h), fun _ h => h⟩

lemma Rearranges.trans {f : Folder} (hde : Rearranges names d e)
    (hef : Rearranges names e f) : Rearranges names d f := by
  refine ⟨hef.uidlist.trans hde.uidlist, fun key hk => ?_, fun key hk => ?_,
    fun key hk => hef.stays key (hde.stays key hk)⟩
  · exact (hef.new key hk).elim (hde.new key) .inr
  obtain hold | hn := hef.cur key hk
  · obtain hnew | hc := mem_append.mp hold
    · exact (hde.new key hnew).imp_left (mem_append_left _)
    · exact hde.cur key hc
  · exact .inr hn

variable {key : Bytes}

lemma Rearranges.keys (h : Rearranges names d e) (hk : key ∈ e.keys) : key ∈ d.keys ∨ names key := by
  obtain hn | hc := mem_append.mp hk
  · exact (h.new key hn).imp_left (mem_append_left _)
  · exact h.cur key hc

lemma Rearranges.kept (h : Rearranges names d e) (hd : d.Kept) (hn : ∀ key, names key → ValidKey key) : e.Kept :=
  ⟨fun key hk => (h.keys hk).elim (hd.validKeys key) (hn key), h.uidlist ▸ hd.settled⟩

lemma rearranges_unseen (names : Bytes → Prop) (d : Folder) : Rearranges names d d.unseen := by
  have hc : d.unseen.curDirKeys = d.curDirKeys ++ d.maildirNewKeys := by
    simp only [curDirKeys, unseen, maildirNewKeys, map_append, map_map]
    rfl
  refine ⟨rfl, fun key hk => absurd hk not_mem_nil, fun key hk => .inl ?_, fun key hk => ?_⟩
  · rw [hc] at hk
    exact mem_append.mpr (mem_append.mp hk).symm
  · rw [hc]
    exact mem_append_left _ hk

lemma rearranges_deliver (hf : f.key ∉ d.keys) (hn : names f.key) :
    Rearranges names d (d.deliver f hf) ∧ (d.deliver f hf).curDirKeys = d.curDirKeys := by
  refine ⟨⟨rfl, fun key hk => ?_, fun key hk => .inl (mem_append_right _ hk), fun _ hk => hk⟩, rfl⟩
  simp only [maildirNewKeys, deliver, map_append, map_cons, map_nil, mem_append, mem_singleton] at hk
  obtain hold | rfl := hk
  · exact .inl hold
  · exact .inr hn

lemma rearranges_addCopy {f : MsgFile} (hf : f.key ∉ d.keys) (hn : names f.key) :
    Rearranges names d (d.addCopy f hf) := by
  refine ⟨rfl, fun _ hk => .inl hk, fun key hk => ?_, fun key hk => ?_⟩
  · simp only [curDirKeys, addCopy, map_append, map_cons, map_nil, mem_append, mem_singleton] at hk
    obtain hold | rfl := hk
    · exact .inl (mem_append_right _ hold)
    · exact .inr hn
  · simp only [curDirKeys, addCopy, map_append]
    exact mem_append_left _ hk

lemma rearranges_moveNewToCur {flags : List Flag}
    (h : d.moveNewToCurWithFlags key flags = some e) : Rearranges names d e := by
  unfold moveNewToCurWithFlags at h
  split at h
  · cases h
  case h_2 f hfi =>
    cases h
    have hf := mem_of_find?_eq_some hfi
    refine ⟨rfl, fun key hk => .inl ((filter_sublist.map _).subset hk), fun key hk => .inl ?_,
      fun key hk => ?_⟩
    · simp only [curDirKeys, moveToCur, map_append, map_cons, map_nil, mem_append, mem_singleton] at hk
      obtain hc | rfl := hk
      · exact mem_append_right _ hc
      · exact mem_append_left _ (mem_map_of_mem hf)
    · simp only [curDirKeys, moveToCur, map_append]
      exact mem_append_left _ hk

lemma Rearranges.moves (h : Rearranges ValidKey d e) : Moves d e := ⟨h.uidlist, fun _ hk => h.keys hk⟩

lemma curDirKeys_removeMessages {gone : List Bytes}
    (hk : key ∈ (d.removeMessages gone).curDirKeys) : key ∈ d.curDirKeys :=
  (filter_sublist.map _).subset hk

lemma Kept.moves (h : d.Kept) (hm : Moves d e) : e.Kept where
  validKeys key hkey := (hm.keys key hkey).elim (h.validKeys key) id
  settled := hm.uidlist ▸ h.settled

end Folder

namespace Shared

variable {s t : Shared}

def ValidName : Access → Prop
  | .deliver f | .appendFile _ f | .copyNew _ f => ValidKey f.key
  | .copyCur _ f => ValidKey f.key
  | _ => True

def HasRoom (s : Shared) (a : Access) : Prop :=
  ∀ keys, s.lockedKeys a = some keys → keys.length + 1 < 2 ^ 32 ∧
    ∀ u, readUidList s.folder.uidlist = .ok (some u) → u.uidNext + u.assigns keys < 2 ^ 32

def Allowed (s : Shared) (a : Access) : Prop := ValidName a ∧ s.HasRoom a

-- The section under the lock is handed every key of cur/ that has a UID.
def Timely (s : Shared) (a : Access) : Prop :=
  ∀ keys, s.lockedKeys a = some keys →
    ∀ key ∈ s.folder.curDirKeys, s.folder.uidOf key ≠ none → key ∈ keys

def Keeps (s t : Shared) : Prop :=
  ∀ key uid, key ∈ s.folder.curDirKeys → key ∈ t.folder.curDirKeys →
    s.folder.uidOf key = some uid → t.folder.uidOf key = some uid

structure Inv (s : Shared) : Prop where
  kept : s.folder.Kept
  nodup : ∀ p keys, s.calls p = .listed keys → keys.Nodup
  valid : ∀ p keys, s.calls p = .listed keys → ∀ key ∈ keys, ValidKey key

lemma inv_start {d : Folder} (h : d.Kept) : Inv (start d) := by
  refine ⟨h, fun p keys hc => ?_, fun p keys hc => ?_⟩
  · cases hc
  · cases hc

inductive Effect (s : Shared) (a : Access) (t : Shared) : Prop
  | quiet (hmoves : s.folder.Moves t.folder) (hkeys : s.lockedKeys a = none)
      (hcalls : ∀ p keys, t.calls p = .listed keys →
        s.calls p = .listed keys ∨ keys = s.folder.curDirKeys)
  | locked (p now : Nat) (keys : List Bytes) (result : UidList → Option Nat)
      (hkeys : s.lockedKeys a = some keys) (hnext : t = s.locked p now keys result)
  | expunge (p now : Nat) (gone : List Bytes) (hkeys : s.lockedKeys a = some s.folder.curDirKeys)
      (hnext : t = s.set p (.idle none) ((s.folder.loadUidList now s.folder.curDirKeys).2.expungeKeys
        (s.folder.loadUidList now s.folder.curDirKeys).1 gone))

variable {call : Call} {keys : List Bytes} {a : Access}

variable {p : Nat}

lemma calls_set {q : Nat} {d : Folder}
    (hc : (s.set p call d).calls q = .listed keys) : s.calls q = .listed keys ∨ call = .listed keys := by
  by_cases hqp : q = p
  · subst hqp
    exact .inr (by simpa [Shared.set] using hc)
  · exact .inl (by simpa [Shared.set, hqp] using hc)

lemma Effect.of_set {d : Folder} (hm : s.folder.Moves d) (hk : s.lockedKeys a = none)
    (hc : ∀ keys, call = .listed keys → keys = s.folder.curDirKeys) : Effect s a (s.set p call d) :=
  .quiet hm hk fun _ keys hq => (calls_set hq).imp_right (hc keys)

lemma Effect.of_place (hv : ValidKey f.key)
    (hk : s.lockedKeys a = none) (hc : ∀ keys, call ≠ .listed keys)
    (hs : s.place p call f = some t) : Effect s a t := by
  unfold place at hs
  split_ifs at hs with hf
  exact Option.some.inj hs ▸
    of_set (Folder.rearranges_deliver hf hv).1.moves hk fun keys h => absurd h (hc keys)

lemma effect_of_step (hv : ValidName a) (hs : s.step a = some t) : Effect s a t := by
  cases a with
  | deliver f =>
    simp only [step] at hs
    split_ifs at hs with hf
    exact Option.some.inj hs ▸
      .quiet (Folder.rearranges_deliver hf hv).1.moves rfl fun _ _ hq => .inl hq
  | unseen p =>
    simp only [step] at hs
    split at hs
    · exact Option.some.inj hs ▸ .of_set (Folder.rearranges_unseen _ _).moves rfl fun _ h => nomatch h
    · cases hs
  | readCur p =>
    simp only [step] at hs
    split at hs
    · exact Option.some.inj hs ▸
        .of_set (Folder.Moves.refl _) rfl fun _ h => (Call.listed.inj h).symm
    · cases hs
  | readNew p flags =>
    simp only [step] at hs
    split at hs
    · exact Option.some.inj hs ▸ .of_set (Folder.Moves.refl _) rfl fun _ h => nomatch h
    · cases hs
  | appendFile p f | copyNew p f =>
    simp only [step] at hs
    split at hs
    · exact .of_place hv rfl (by rintro _ ⟨⟩) hs
    · cases hs
  | findKey p =>
    simp only [step] at hs
    split at hs
    · split at hs
      all_goals
        exact Option.some.inj hs ▸ .of_set (Folder.Moves.refl _) rfl fun _ h => nomatch h
    · cases hs
  | moveToCur p =>
    simp only [step] at hs
    split at hs
    · split at hs
      case h_1 d hm =>
        exact Option.some.inj hs ▸
          .of_set (Folder.rearranges_moveNewToCur hm).moves rfl fun _ h => nomatch h
      case h_2 =>
        exact Option.some.inj hs ▸ .of_set (Folder.Moves.refl _) rfl fun _ h => nomatch h
    · cases hs
  | copyCur p f =>
    simp only [step] at hs
    split at hs
    · split_ifs at hs with hf
      exact Option.some.inj hs ▸
        .of_set (Folder.rearranges_addCopy hf hv).moves rfl fun _ h => nomatch h
    · cases hs
  | list p now =>
    simp only [step] at hs
    split at hs
    case h_1 keys hc =>
      exact .locked p now keys _ (by simp [lockedKeys, hc]) (Option.some.inj hs).symm
    case h_2 => cases hs
  | assign p now =>
    simp only [step] at hs
    split at hs
    case h_3 => cases hs
    all_goals exact .locked p now _ _ rfl (Option.some.inj hs).symm
  | lookup p now =>
    simp only [step] at hs
    split at hs
    · exact .locked p now _ _ rfl (Option.some.inj hs).symm
    · cases hs
  | expunge p now deletedUids =>
    simp only [step] at hs
    split at hs
    · exact .expunge p now _ rfl (Option.some.inj hs).symm
    · cases hs

namespace Inv

lemma set {d : Folder} (h : Inv s) (hk : d.Kept)
    (hc : ∀ keys, call ≠ .listed keys) : Inv (s.set p call d) := by
  have hold : ∀ q keys, (s.set p call d).calls q = .listed keys → s.calls q = .listed keys :=
    fun q keys hq => (calls_set hq).resolve_right (hc keys)
  exact ⟨hk, fun q keys hq => h.nodup q keys (hold q keys hq),
    fun q keys hq => h.valid q keys (hold q keys hq)⟩

lemma lockedKeys (h : Inv s) (hk : s.lockedKeys a = some keys) :
    keys.Nodup ∧ ∀ key ∈ keys, ValidKey key := by
  unfold Shared.lockedKeys at hk
  split at hk
  case h_1 p now =>
    split at hk
    case h_1 hc =>
      cases hk
      exact ⟨h.nodup p _ hc, h.valid p _ hc⟩
    case h_2 => cases hk
  case h_5 => cases hk
  all_goals
    cases hk
    exact ⟨s.folder.curDirKeys_nodup, h.kept.cur⟩

lemma loadable (h : Inv s) (hr : s.HasRoom a)
    (hk : s.lockedKeys a = some keys) : Loadable s.folder.uidlist keys := by
  obtain ⟨hl, hn⟩ := hr keys hk
  obtain ⟨hno, hv⟩ := h.lockedKeys hk
  exact ⟨fun u hre => ⟨h.kept.settled u hre, hn u hre⟩, hl, hno, hv⟩

lemma step (h : Inv s) (ha : s.Allowed a) (hs : s.step a = some t) : Inv t := by
  cases effect_of_step ha.1 hs with
  | quiet hm hk hc =>
    have hl : ∀ p keys, t.calls p = .listed keys → keys.Nodup ∧ ∀ key ∈ keys, ValidKey key := by
      intro p keys hp
      rcases hc p keys hp with hold | rfl
      · exact ⟨h.nodup p keys hold, h.valid p keys hold⟩
      · exact ⟨s.folder.curDirKeys_nodup, h.kept.cur⟩
    exact ⟨h.kept.moves hm, fun p keys hp => (hl p keys hp).1, fun p keys hp => (hl p keys hp).2⟩
  | locked p now keys result hk hn =>
    obtain ⟨hse, _⟩ := (h.loadable ha.2 hk).load now
    subst hn
    refine h.set ⟨h.kept.validKeys, fun u hr => ?_⟩ (by rintro _ ⟨⟩)
    exact hse.unique hr ▸ hse
  | expunge p now gone hk hn =>
    obtain ⟨hse, hl⟩ := (h.loadable ha.2 hk).load now
    have hre := hse.reconcile_fewer (s.folder.removeMessages gone).curDirKeys_nodup
      fun key hkey => (hl key).mpr (Folder.curDirKeys_removeMessages hkey)
    subst hn
    refine h.set ⟨fun key hkey => h.kept.validKeys key ?_, fun u hr => ?_⟩ (by rintro _ ⟨⟩)
    · exact mem_append.mpr ((mem_append.mp hkey).imp_right
        Folder.curDirKeys_removeMessages)
    · exact hre.unique hr ▸ hre

end Inv

lemma keeps_iff_timely (h : Inv s) (ha : s.Allowed a)
    (hs : s.step a = some t) : s.Keeps t ↔ s.Timely a := by
  cases effect_of_step ha.1 hs with
  | quiet hm hk _ =>
    have hke : s.Keeps t := fun key uid _ _ hu => by
      rwa [Folder.uidOf, hm.uidlist]
    have ht : s.Timely a := fun keys hl => by
      rw [hk] at hl
      cases hl
    exact iff_of_true hke ht
  | locked p now keys result hk hn =>
    have hlo := h.loadable ha.2 hk
    obtain ⟨hse, hli⟩ := hlo.load now
    have haf : ∀ key, t.folder.uidOf key =
        (loadOrBootstrapUidList now s.folder.uidlist keys).1.keyToUid key := fun key => by
      rw [hn]
      exact hse.uidIn_eq key
    constructor
    · intro hke keys' hky key hkey hkn
      obtain rfl := Option.some.inj (hk.symm.trans hky)
      obtain ⟨uid, hu⟩ := Option.ne_none_iff_exists'.mp hkn
      by_contra hst
      have hls : t.folder.uidOf key = none := by
        rw [haf, hse.consistent.keyToUid_eq_none, hli]
        exact hst
      have hkp := hke key uid hkey (by rwa [hn]) hu
      exact Option.some_ne_none uid (hkp.symm.trans hls)
    · intro ht key uid hkey _ hu
      have hin := ht keys hk key hkey (hu ▸ Option.some_ne_none uid)
      rw [haf]
      exact hlo.keyToUid_load now hin hu
  | expunge p now gone hk hn =>
    have hlo := h.loadable ha.2 hk
    obtain ⟨hse, hli⟩ := hlo.load now
    have hno := (s.folder.removeMessages gone).curDirKeys_nodup
    have hf : ∀ key ∈ (s.folder.removeMessages gone).curDirKeys,
        key ∈ (loadOrBootstrapUidList now s.folder.uidlist s.folder.curDirKeys).1.keys :=
      fun key hkey => (hli key).mpr (Folder.curDirKeys_removeMessages hkey)
    refine ⟨fun _ keys' hky key hkey _ => ?_, fun _ key uid hkey hkp hu => ?_⟩
    · exact Option.some.inj (hk.symm.trans hky) ▸ hkey
    subst hn
    have hold := hlo.keyToUid_load now hkey hu
    exact ((hse.reconcile_fewer hno hf).uidIn_eq key).trans
      (hse.keyToUid_fewer hno hf hkp hold)

theorem uid_stable {d : Folder} (hd : d.Kept) (hreach : Reaches step Allowed (start d) s) :
    (∀ a t, s.step a = some t → s.Allowed a → (s.Keeps t ↔ s.Timely a)) ∧
      ∀ key uid t, s.folder.uidOf key = some uid →
        Reaches step (fun s a => s.Allowed a ∧ s.Timely a ∧ key ∈ s.folder.curDirKeys) s t →
        key ∈ t.folder.curDirKeys → t.folder.uidOf key = some uid := by
  have hi := hreach.invariant (inv_start hd) fun _ _ _ hs ha hst =>
    hs.step ha hst
  refine ⟨fun a t hst ha => keeps_iff_timely hi ha hst, ?_⟩
  intro key uid t hu hr
  -- the UID is carried from a state with the file in cur/ to the next such state
  refine (hr.invariant (P := fun t => Inv t ∧
    (key ∈ t.folder.curDirKeys → t.folder.uidOf key = some uid)) ⟨hi, fun _ => hu⟩ ?_).2
  rintro s a t ⟨hs, hold⟩ ⟨ha, ht, hc⟩ hst
  refine ⟨hs.step ha hst, fun haf => ?_⟩
  exact (keeps_iff_timely hs ha hst).mpr ht key uid hc haf (hold hc)

def letter : NewFile := ⟨ascii "1700000000.M1P1Q1.mx", ascii "hi"⟩

-- Process 0 reads cur/, process 1 lists a message that has arrived since.
def listLate : List Access :=
  [.lookup 0 5, .unseen 0, .readCur 0, .deliver letter, .unseen 1, .readCur 1, .list 1 6]

theorem stale_keys_change_uid : ∃ s t, Reaches step (fun _ _ => True) (start Folder.empty) s ∧
      s.folder.uidOf letter.key = some 1 ∧
      Reaches step (fun s _ => letter.key ∈ s.folder.curDirKeys) s t ∧
      letter.key ∈ t.folder.curDirKeys ∧ t.folder.uidOf letter.key = some 2 := by
  -- process 0 takes the lock with the keys it has read before
  have hru : (runSteps step (start Folder.empty) listLate).any (fun s =>
      letter.key ∈ s.folder.curDirKeys ∧ s.folder.uidOf letter.key = some 1 ∧
      (s.step (.list 0 7)).any fun r => letter.key ∈ r.folder.curDirKeys ∧
      (r.step (.lookup 1 8)).any fun t => letter.key ∈ t.folder.curDirKeys ∧
        t.folder.uidOf letter.key = some 2) = true := by
    decide +kernel
  simp only [Option.any_eq_true, decide_eq_true_eq] at hru
  obtain ⟨s, hs, hc, hu, r, hr, hcu, t, ht, hl⟩ := hru
  have hst : Reaches step (fun s _ => letter.key ∈ s.folder.curDirKeys) s t :=
    .tail (.lookup 1 8) (.tail (.list 0 7) .refl hc hr) hcu ht
  exact ⟨s, t, Reaches.of_runSteps (fun _ _ _ => trivial) hs, hu, hst, hl⟩

def letterList : UidList := bootstrapUidList 5 [letter.key]

def letterFolder : Folder where
  new := []
  cur := [letter.toCur []]
  uidlist := some letterList.write
  distinct := List.nodup_singleton _

lemma letter_validKey : ValidKey letter.key := by
  constructor <;> decide

lemma letterFolder_settled : Settled letterFolder.uidlist letterList :=
  settled_write (consistent_bootstrap 5 (nodup_singleton _) (by decide))
    (storable_bootstrap 5 (nodup_singleton _)
      (fun _ hk => mem_singleton.mp hk ▸ letter_validKey) (by decide))

lemma letterFolder_kept : letterFolder.Kept where
  validKeys _ hk := mem_singleton.mp hk ▸ letter_validKey
  settled _ hr := letterFolder_settled.unique hr ▸ letterFolder_settled

theorem uid_stable_lookup :
    ∃ t, (start letterFolder).step (.lookup 0 8) = some t ∧ letter.key ∈ t.folder.curDirKeys ∧
      (start letterFolder).folder.uidOf letter.key = some 1 ∧
      t.folder.uidOf letter.key = some 1 := by
  have hc : letter.key ∈ (start letterFolder).folder.curDirKeys := by decide
  have hu : (start letterFolder).folder.uidOf letter.key = some 1 := by decide +kernel
  have ha : (start letterFolder).Allowed (.lookup 0 8) := by
    refine ⟨trivial, fun keys hk => ?_⟩
    cases hk
    refine ⟨by decide, fun u hr => ?_⟩
    obtain rfl := letterFolder_settled.unique hr
    decide +kernel
  have ht : (start letterFolder).Timely (.lookup 0 8) :=
    fun keys hk key hke _ => Option.some.inj hk ▸ hke
  refine ⟨_, rfl, hc, hu, ?_⟩
  exact (uid_stable letterFolder_kept .refl).2 letter.key 1 _ hu
    (.tail _ .refl ⟨ha, ht, hc⟩ rfl) hc

end Shared

end Maildancer.Maildir

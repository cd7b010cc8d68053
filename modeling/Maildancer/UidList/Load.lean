import Maildancer.UidList.File

namespace Maildancer.UidList

open List Text

section Unchanged

variable {u : UidList} {curKeys : List Bytes}

lemma sweep_eq_self (h : ∀ e ∈ u.entries, e.key ∈ curKeys) : u.sweep curKeys = u := by
  have hg : u.entries.filter (·.key ∉ curKeys) = [] := by
    rw [filter_eq_nil_iff]
    intro e he
    simpa using h e he
  have hk : u.entries.filter (·.key ∈ curKeys) = u.entries := by
    rw [filter_eq_self]
    intro e he
    simpa using h e he
  simp only [sweep, hg, hk, List.foldl_nil]

lemma reconcile_unchanged (h : (u.reconcile curKeys).2 = false) : (u.reconcile curKeys).1 = u := by
  simp only [reconcile, Bool.or_eq_false_iff, decide_eq_false_iff_not, Bool.not_eq_false',
    List.isEmpty_iff] at h ⊢
  obtain ⟨hg, ha⟩ := h
  rw [ha, List.foldl_nil]
  refine sweep_eq_self fun e he => ?_
  by_contra hk
  exact hg ⟨e, he, hk⟩

lemma Consistent.reconcile_same_keys (h : u.Consistent) (hkeys : ∀ key, key ∈ u.keys ↔ key ∈ curKeys) :
    u.reconcile curKeys = (u, false) := by
  have hl : ∀ e ∈ u.entries, e.key ∈ curKeys :=
    fun e he => (hkeys e.key).mp (mem_keys.mpr ⟨e.uid, he⟩)
  have hn : u.newKeys curKeys = [] := by
    rw [newKeys, filter_eq_nil_iff]
    intro key hk
    rw [decide_eq_true_eq, h.keyToUid_eq_none]
    exact not_not.mpr ((hkeys key).mpr hk)
  have hg : ¬ ∃ e ∈ u.entries, e.key ∉ curKeys := by
    rintro ⟨e, he, hk⟩
    exact hk (hl e he)
  simp only [UidList.reconcile, sweep_eq_self hl, hn, hg]
  rfl

lemma Consistent.assigns_eq_zero (h : u.Consistent) (hl : ∀ key ∈ curKeys, key ∈ u.keys) :
    u.assigns curKeys = 0 := by
  rw [assigns, length_eq_zero_iff, eq_nil_iff_forall_not_mem]
  intro key hk
  obtain ⟨hc, hn⟩ := h.mem_newKeys.mp hk
  exact hn (hl key hc)

end Unchanged

lemma Consistent.storable {u : UidList} (h : u.Consistent) (hlo : -2 ^ 63 ≤ u.version)
    (hhi : u.version < 2 ^ 63) (hv : u.uidValidity < 2 ^ 32) (hn : u.uidNext < 2 ^ 32)
    (hkeys : ∀ key ∈ u.keys, ValidKey key) : u.Storable :=
  ⟨hlo, hhi, hv, hn, fun e he => (h.uid_lt e he).trans hn,
    fun e he => hkeys e.key (mem_keys.mpr ⟨e.uid, he⟩)⟩

-- The file holds the list as it would be written again.
structure Settled (file : Option Bytes) (u : UidList) : Prop where
  read : readUidList file = .ok (some u)
  consistent : u.Consistent
  storable : u.Storable

lemma settled_write {u : UidList} (h : u.Consistent) (hs : u.Storable) : Settled (some u.write) u :=
  ⟨readUidList_write h hs, h, hs⟩

lemma Settled.unique {file : Option Bytes} {u v : UidList} (hu : Settled file u)
    (hv : readUidList file = .ok (some v)) : u = v :=
  Option.some.inj (Except.ok.inj (hu.read.symm.trans hv))

-- A .uidlist that is absent, unreadable or left by the code, with enough numbers for the keys to come.
structure Loadable (file : Option Bytes) (curKeys : List Bytes) : Prop where
  settled : ∀ u, readUidList file = .ok (some u) →
    Settled file u ∧ u.uidNext + u.assigns curKeys < 2 ^ 32
  room : curKeys.length + 1 < 2 ^ 32
  nodup : curKeys.Nodup
  validKeys : ∀ key ∈ curKeys, ValidKey key

section Load

variable {file : Option Bytes} {u : UidList} {curKeys : List Bytes}

lemma Settled.storable_reconcile (h : Settled file u) (hnodup : curKeys.Nodup)
    (hkeys : ∀ key ∈ curKeys, ValidKey key) (hr : u.uidNext + u.assigns curKeys < 2 ^ 32) :
    (u.reconcile curKeys).1.Storable := by
  obtain ⟨hv, hva⟩ := reconcile_header u curKeys
  refine (h.consistent.reconcile hnodup hr).storable ?_ ?_ ?_ ?_ ?_
  · rw [hv]
    exact h.storable.version_ge
  · rw [hv]
    exact h.storable.version_lt
  · rw [hva]
    exact h.storable.validity_lt
  · rw [reconcile_uidNext hr]
    exact hr
  · exact fun key hk => hkeys key ((h.consistent.mem_keys_reconcile hr).mp hk)

lemma load_settled (now : Nat) (h : Settled file u) :
    (loadOrBootstrapUidList now file curKeys).1 = (u.reconcile curKeys).1 := by
  simp [loadOrBootstrapUidList, h.read]

lemma Settled.load_file (now : Nat) (h : Settled file u) (hnodup : curKeys.Nodup)
    (hkeys : ∀ key ∈ curKeys, ValidKey key) (hr : u.uidNext + u.assigns curKeys < 2 ^ 32) :
    Settled (loadOrBootstrapUidList now file curKeys).2 (u.reconcile curKeys).1 := by
  simp only [loadOrBootstrapUidList, h.read]
  split_ifs with hc
  · exact settled_write (h.consistent.reconcile hnodup hr) (h.storable_reconcile hnodup hkeys hr)
  · rwa [reconcile_unchanged (Bool.eq_false_iff.mpr hc)]

lemma storable_bootstrap (now : Nat) (hnodup : curKeys.Nodup)
    (hkeys : ∀ key ∈ curKeys, ValidKey key) (hr : curKeys.length + 1 < 2 ^ 32) :
    (bootstrapUidList now curKeys).Storable := by
  obtain ⟨hv, hva⟩ := foldl_addKey_header (empty now) _
  refine (consistent_bootstrap now hnodup hr).storable ?_ ?_ ?_ ?_ ?_
  · exact hv ▸ (by decide : -2 ^ 63 ≤ uidlistVersion)
  · exact hv ▸ (by decide : uidlistVersion < 2 ^ 63)
  · exact hva ▸ Nat.mod_lt _ (by decide)
  · rw [bootstrap_uidNext now hr]
    exact hr
  · exact fun key hk => hkeys key ((mem_keys_bootstrap now hr).mp hk)

lemma load_unread (now : Nat) (hr : ¬ ∃ u, readUidList file = .ok (some u)) :
    loadOrBootstrapUidList now file curKeys =
      (bootstrapUidList now curKeys, some (bootstrapUidList now curKeys).write) := by
  unfold loadOrBootstrapUidList
  split
  · exact absurd ⟨_, ‹_›⟩ hr
  · rfl

lemma Loadable.load (now : Nat) (h : Loadable file curKeys) :
    Settled (loadOrBootstrapUidList now file curKeys).2 (loadOrBootstrapUidList now file curKeys).1 ∧
      ∀ key, key ∈ (loadOrBootstrapUidList now file curKeys).1.keys ↔ key ∈ curKeys := by
  by_cases hr : ∃ u, readUidList file = .ok (some u)
  · obtain ⟨u, hr⟩ := hr
    obtain ⟨hs, hro⟩ := h.settled u hr
    rw [load_settled now hs]
    exact ⟨hs.load_file now h.nodup h.validKeys hro, fun _ => hs.consistent.mem_keys_reconcile hro⟩
  · rw [load_unread now hr]
    exact ⟨settled_write (consistent_bootstrap now h.nodup h.room)
      (storable_bootstrap now h.nodup h.validKeys h.room), fun _ => mem_keys_bootstrap now h.room⟩

lemma Settled.load_same_keys (now : Nat) (h : Settled file u) (hkeys : ∀ key, key ∈ u.keys ↔ key ∈ curKeys) :
    loadOrBootstrapUidList now file curKeys = (u, file) := by
  simp only [loadOrBootstrapUidList, h.read, h.consistent.reconcile_same_keys hkeys]
  rfl

-- What a reader of the file takes for the UID of a key.
def uidIn (file : Option Bytes) (key : Bytes) : Option Nat :=
  match readUidList file with
  | .ok (some u) => u.keyToUid key
  | _ => none

lemma Settled.uidIn_eq (h : Settled file u) (key : Bytes) : uidIn file key = u.keyToUid key := by
  simp [uidIn, h.read]

variable {key : Bytes} {uid : Nat}

lemma exists_settled_of_uidIn
    (hs : ∀ u, readUidList file = .ok (some u) → Settled file u) (huid : uidIn file key = some uid) :
    ∃ u, Settled file u ∧ ⟨uid, key⟩ ∈ u.entries := by
  unfold uidIn at huid
  split at huid
  case h_1 u hr =>
    have hu := hs u hr
    exact ⟨u, hu, (hu.consistent.keyToUid_iff key uid).mp huid⟩
  case h_2 => cases huid

lemma Loadable.keyToUid_load (now : Nat) (h : Loadable file curKeys)
    (hk : key ∈ curKeys) (huid : uidIn file key = some uid) :
    (loadOrBootstrapUidList now file curKeys).1.keyToUid key = some uid := by
  obtain ⟨u, hu, he⟩ := exists_settled_of_uidIn (fun u hr => (h.settled u hr).1) huid
  obtain ⟨_, hro⟩ := h.settled u hu.read
  rw [load_settled now hu]
  exact ((hu.consistent.reconcile h.nodup hro).keyToUid_iff key uid).mpr
    (reconcile_keeps hro he hk)

lemma Loadable.newest_iff (now : Nat) (h : Loadable file curKeys) (hc : key ∈ curKeys)
    (hnew : uidIn file key = none) : (loadOrBootstrapUidList now file curKeys).1.uidToKey
        ((loadOrBootstrapUidList now file curKeys).1.uidNext - 1) = some key ↔
      ∀ other ∈ curKeys, uidIn file other = none → other ≤ key := by
  by_cases hr : ∃ u, readUidList file = .ok (some u)
  · obtain ⟨u, hr⟩ := hr
    obtain ⟨hu, hro⟩ := h.settled u hr
    have hf : ∀ other, other ∈ (u.sweep curKeys).newKeys curKeys ↔
        other ∈ curKeys ∧ uidIn file other = none := fun other => by
      rw [hu.consistent.mem_newKeys, hu.uidIn_eq, hu.consistent.keyToUid_eq_none]
    have hold : ∀ e ∈ (u.sweep curKeys).entries, e.uid < u.uidNext := fun e he =>
      hu.consistent.uid_lt e ((mem_sweep u curKeys).mp he).1
    rw [load_settled now hu, (hu.consistent.reconcile h.nodup hro).newest_iff
      (reconcile_entries hro) (reconcile_uidNext hro) hold ((hf key).mpr ⟨hc, hnew⟩)]
    simp [hf, and_imp]
  · have hn : ∀ other, uidIn file other = none := fun other => by
      unfold uidIn
      split
      · exact absurd ⟨_, ‹_›⟩ hr
      · rfl
    rw [load_unread now hr, (consistent_bootstrap now h.nodup h.room).newest_iff
      (bootstrap_entries now h.room) ((bootstrap_uidNext now h.room).trans (Nat.add_comm _ _))
      (fun _ he => absurd he not_mem_nil) hc]
    simp [hn]

section Fewer

variable (h : Settled file u) (hnodup : curKeys.Nodup) (hkeys : ∀ key ∈ curKeys, key ∈ u.keys)

include h hkeys

lemma Settled.room_fewer : u.uidNext + u.assigns curKeys < 2 ^ 32 := by
  rw [h.consistent.assigns_eq_zero hkeys]
  exact h.storable.next_lt

include hnodup

lemma Settled.reconcile_fewer : Settled (some (u.reconcile curKeys).1.write) (u.reconcile curKeys).1 := by
  have hr := h.room_fewer hkeys
  have hv : ∀ key ∈ curKeys, ValidKey key := fun key hk => by
    obtain ⟨uid, he⟩ := mem_keys.mp (hkeys key hk)
    exact h.storable.validKey _ he
  exact settled_write (h.consistent.reconcile hnodup hr) (h.storable_reconcile hnodup hv hr)

lemma Settled.keyToUid_fewer (hk : key ∈ curKeys)
    (hu : u.keyToUid key = some uid) : (u.reconcile curKeys).1.keyToUid key = some uid := by
  have hr := h.room_fewer hkeys
  have he := (h.consistent.keyToUid_iff key uid).mp hu
  exact ((h.consistent.reconcile hnodup hr).keyToUid_iff key uid).mpr
    (reconcile_keeps hr he hk)

end Fewer

end Load

end Maildancer.UidList

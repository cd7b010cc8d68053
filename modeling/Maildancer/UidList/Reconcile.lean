import Maildancer.Ledger
import Maildancer.UidList

namespace Maildancer.UidList

open List Text

-- The slice and the two maps describe one increasing assignment below uidNext.
structure Consistent (u : UidList) : Prop where
  increasing : u.entries.Pairwise fun e f => e.uid < f.uid
  keys_nodup : u.keys.Nodup
  keyToUid_iff : ∀ key uid, u.keyToUid key = some uid ↔ ⟨uid, key⟩ ∈ u.entries
  uidToKey_iff : ∀ uid key, u.uidToKey uid = some key ↔ ⟨uid, key⟩ ∈ u.entries
  uid_pos : ∀ e ∈ u.entries, 1 ≤ e.uid
  uid_lt : ∀ e ∈ u.entries, e.uid < u.uidNext
  next_pos : 1 ≤ u.uidNext

lemma mem_keys {u : UidList} {key : Bytes} : key ∈ u.keys ↔ ∃ uid, ⟨uid, key⟩ ∈ u.entries := by
  constructor
  · intro h
    obtain ⟨e, he, rfl⟩ := mem_map.mp h
    exact ⟨e.uid, he⟩
  · rintro ⟨uid, h⟩
    exact mem_map.mpr ⟨_, h, rfl⟩

variable {uid : Nat} {e : UidEntry}

namespace Consistent

variable {u : UidList} (h : u.Consistent)

include h

lemma keyToUid_eq_none {key : Bytes} : u.keyToUid key = none ↔ key ∉ u.keys := by
  rw [mem_keys, Option.eq_none_iff_forall_ne_some]
  simp [h.keyToUid_iff, not_exists]

lemma uid_unique {key : Bytes} {uid' : Nat} (hf : ⟨uid, key⟩ ∈ u.entries)
    (hs : ⟨uid', key⟩ ∈ u.entries) : uid = uid' := by
  rw [← h.keyToUid_iff] at hf hs
  exact Option.some.inj (hf.symm.trans hs)

lemma key_unique {key key' : Bytes} (hf : ⟨uid, key⟩ ∈ u.entries)
    (hs : ⟨uid, key'⟩ ∈ u.entries) : key = key' := by
  rw [← h.uidToKey_iff] at hf hs
  exact Option.some.inj (hf.symm.trans hs)

-- A consistent list as a ledger of ids: keys get their number once and for all.
def ledger : Ledger Bytes where
  next := u.uidNext
  idOf := u.keyToUid
  below_next hkey := h.uid_lt _ ((h.keyToUid_iff _ _).mp hkey)
  injective hkey hother := h.key_unique ((h.keyToUid_iff _ _).mp hkey) ((h.keyToUid_iff _ _).mp hother)

end Consistent

section Sweep

variable (gone : List UidEntry) (u : UidList) (curKeys : List Bytes)

lemma foldl_dropEntry_keyToUid (key : Bytes) : (gone.foldl dropEntry u).keyToUid key =
      if ∃ e ∈ gone, e.key = key then none else u.keyToUid key := by
  induction gone generalizing u with
  | nil => simp
  | cons e gone ih =>
    rw [foldl_cons, ih]
    rcases eq_or_ne key e.key with rfl | hne
    · simp [dropEntry]
    · simp [dropEntry, Function.update_of_ne hne, hne.symm]

lemma foldl_dropEntry_uidToKey (uid : Nat) : (gone.foldl dropEntry u).uidToKey uid =
      if ∃ e ∈ gone, e.uid = uid then none else u.uidToKey uid := by
  induction gone generalizing u with
  | nil => simp
  | cons e gone ih =>
    rw [foldl_cons, ih]
    rcases eq_or_ne uid e.uid with rfl | hne
    · simp [dropEntry]
    · simp [dropEntry, Function.update_of_ne hne, hne.symm]

lemma foldl_dropEntry_header : (gone.foldl dropEntry u).version = u.version ∧
      (gone.foldl dropEntry u).uidValidity = u.uidValidity ∧
      (gone.foldl dropEntry u).uidNext = u.uidNext := by
  induction gone generalizing u with
  | nil => exact ⟨rfl, rfl, rfl⟩
  | cons e gone ih => exact ih _

@[simp] lemma sweep_version : (u.sweep curKeys).version = u.version :=
  (foldl_dropEntry_header _ u).1

@[simp] lemma sweep_uidValidity : (u.sweep curKeys).uidValidity = u.uidValidity :=
  (foldl_dropEntry_header _ u).2.1

@[simp] lemma sweep_uidNext : (u.sweep curKeys).uidNext = u.uidNext :=
  (foldl_dropEntry_header _ u).2.2

lemma mem_sweep : e ∈ (u.sweep curKeys).entries ↔ e ∈ u.entries ∧ e.key ∈ curKeys := by
  simp [sweep]

lemma mem_keys_sweep {key : Bytes} : key ∈ (u.sweep curKeys).keys ↔ key ∈ u.keys ∧ key ∈ curKeys := by
  simp [mem_keys, mem_sweep, exists_and_right]

variable {u}

lemma sweep_keyToUid (h : u.Consistent) (key : Bytes) :
    (u.sweep curKeys).keyToUid key = if key ∈ curKeys then u.keyToUid key else none := by
  simp only [sweep, foldl_dropEntry_keyToUid]
  by_cases hc : key ∈ curKeys
  · rw [if_pos hc, if_neg]
    rintro ⟨e, hg, rfl⟩
    exact of_decide_eq_true (mem_filter.mp hg).2 hc
  rw [if_neg hc, ite_eq_left_iff]
  intro hk
  rw [h.keyToUid_eq_none, mem_keys]
  rintro ⟨uid, he⟩
  exact hk ⟨_, mem_filter.mpr ⟨he, decide_eq_true hc⟩, rfl⟩

lemma sweep_uidToKey (h : u.Consistent) (uid : Nat) :
    (u.sweep curKeys).uidToKey uid = (u.uidToKey uid).filter (· ∈ curKeys) := by
  simp only [sweep, foldl_dropEntry_uidToKey]
  rcases hk : u.uidToKey uid with _ | key
  · simp
  have he := (h.uidToKey_iff uid key).mp hk
  by_cases hc : key ∈ curKeys
  · rw [if_neg, Option.filter_some_pos (by simpa using hc)]
    rintro ⟨⟨uid', key'⟩, hg, rfl⟩
    have he' := mem_filter.mp hg
    exact of_decide_eq_true he'.2 (h.key_unique he he'.1 ▸ hc)
  · rw [if_pos ⟨_, mem_filter.mpr ⟨he, decide_eq_true hc⟩, rfl⟩,
      Option.filter_some_neg (by simpa using hc)]

lemma Consistent.sweep (h : u.Consistent) : (u.sweep curKeys).Consistent where
  increasing := h.increasing.filter _
  keys_nodup := h.keys_nodup.sublist (filter_sublist.map _)
  keyToUid_iff key uid := by
    rw [sweep_keyToUid curKeys h, mem_sweep, ← h.keyToUid_iff]
    split_ifs with hc <;> simp [hc]
  uidToKey_iff uid key := by
    rw [sweep_uidToKey curKeys h, mem_sweep, ← h.uidToKey_iff, Option.filter_eq_some_iff, decide_eq_true_eq]
  uid_pos e he := h.uid_pos e ((mem_sweep u curKeys).mp he).1
  uid_lt e he := by
    rw [sweep_uidNext]
    exact h.uid_lt e ((mem_sweep u curKeys).mp he).1
  next_pos := by
    rw [sweep_uidNext]
    exact h.next_pos

-- Numbers of files that are gone are not given again: the next number stays.
lemma Consistent.ledger_sweep (h : u.Consistent) :
    (h.sweep curKeys).ledger = h.ledger.retain (· ∈ curKeys) := by
  ext1
  · exact sweep_uidNext u curKeys
  · exact funext (sweep_keyToUid curKeys h)

end Sweep

section Assign

variable {u : UidList} {key : Bytes} {keys : List Bytes}

-- The entries appended for new keys, in the order of the keys.
def numberFrom : Nat → List Bytes → List UidEntry
  | _, [] => []
  | n, key :: keys => ⟨n, key⟩ :: numberFrom (n + 1) keys

lemma numberFrom_keys (n : Nat) (keys : List Bytes) : (numberFrom n keys).map UidEntry.key = keys := by
  induction keys generalizing n with
  | nil => rfl
  | cons key keys ih => simp [numberFrom, ih]

-- The highest number of a batch goes to its last key.
lemma last_mem_numberFrom {n : Nat} {keys : List Bytes} {key : Bytes}
    (hu : uid + 1 = n + keys.length) (hne : keys ≠ []) :
    ⟨uid, key⟩ ∈ numberFrom n keys ↔ keys.getLast? = some key := by
  induction keys generalizing n with
  | nil => exact absurd rfl hne
  | cons first rest ih =>
    rw [length_cons] at hu
    rcases rest with _ | ⟨second, rest⟩
    · obtain rfl : uid = n := by simpa using hu
      simp [numberFrom, eq_comm]
    have hl : (⟨uid, key⟩ : UidEntry) ≠ ⟨n, first⟩ := by
      intro heq
      have := congrArg UidEntry.uid heq
      simp only [length_cons] at hu this
      omega
    rw [numberFrom, mem_cons, or_iff_right hl, ih (by omega) (cons_ne_nil _ _), List.getLast?_cons_cons]

-- UIDNEXT is a uint32 and would wrap.
lemma addKey_uidNext (hr : u.uidNext + 1 < 2 ^ 32) : (u.addKey key).uidNext = u.uidNext + 1 :=
  Nat.mod_eq_of_lt hr

lemma mem_addKey : e ∈ (u.addKey key).entries ↔ e ∈ u.entries ∨ e = ⟨u.uidNext, key⟩ := by
  simp [addKey]

lemma addKey_keys : (u.addKey key).keys = u.keys ++ [key] := by
  simp [UidList.keys, addKey]

lemma Consistent.addKey (h : u.Consistent) (hn : key ∉ u.keys)
    (hr : u.uidNext + 1 < 2 ^ 32) : (u.addKey key).Consistent where
  increasing := by
    refine pairwise_append.mpr ⟨h.increasing, pairwise_singleton _ _, ?_⟩
    intro e he f hf
    rw [mem_singleton.mp hf]
    exact h.uid_lt e he
  keys_nodup := by
    rw [addKey_keys]
    refine nodup_append.mpr ⟨h.keys_nodup, nodup_singleton key, ?_⟩
    rintro old hold other ho rfl
    exact hn (mem_singleton.mp ho ▸ hold)
  keyToUid_iff other uid := by
    rw [mem_addKey]
    rcases eq_or_ne other key with rfl | hne
    · have ha : ⟨uid, other⟩ ∉ u.entries := fun he => hn (mem_keys.mpr ⟨uid, he⟩)
      simp [UidList.addKey, ha, eq_comm]
    · simp [UidList.addKey, h.keyToUid_iff, hne]
  uidToKey_iff uid other := by
    rw [mem_addKey]
    rcases eq_or_ne uid u.uidNext with rfl | hne
    · have ha : ⟨u.uidNext, other⟩ ∉ u.entries := fun he => lt_irrefl _ (h.uid_lt _ he)
      simp [UidList.addKey, ha, eq_comm]
    · simp [UidList.addKey, h.uidToKey_iff, hne]
  uid_pos e he := by
    rcases mem_addKey.mp he with he | rfl
    · exact h.uid_pos e he
    · exact h.next_pos
  uid_lt e he := by
    rw [addKey_uidNext hr]
    rcases mem_addKey.mp he with he | rfl
    · exact Nat.lt_succ_of_lt (h.uid_lt e he)
    · exact Nat.lt_succ_self _
  next_pos := by
    rw [addKey_uidNext hr]
    exact Nat.succ_pos _

lemma foldl_addKey_header (u : UidList) (keys : List Bytes) :
    (keys.foldl UidList.addKey u).version = u.version ∧
      (keys.foldl UidList.addKey u).uidValidity = u.uidValidity := by
  induction keys generalizing u with
  | nil => exact ⟨rfl, rfl⟩
  | cons key keys ih => exact ih _

lemma foldl_addKey_uidNext (hr : u.uidNext + keys.length < 2 ^ 32) :
    (keys.foldl UidList.addKey u).uidNext = u.uidNext + keys.length := by
  induction keys generalizing u with
  | nil => rfl
  | cons key keys ih =>
    rw [length_cons] at hr ⊢
    have hn : (u.addKey key).uidNext = u.uidNext + 1 := addKey_uidNext (by omega)
    rw [foldl_cons, ih (by omega), hn]
    omega

lemma foldl_addKey_entries (hr : u.uidNext + keys.length < 2 ^ 32) :
    (keys.foldl UidList.addKey u).entries = u.entries ++ numberFrom u.uidNext keys := by
  induction keys generalizing u with
  | nil => exact (append_nil _).symm
  | cons key keys ih =>
    rw [length_cons] at hr
    have hn : (u.addKey key).uidNext = u.uidNext + 1 := addKey_uidNext (by omega)
    rw [foldl_cons, ih (by omega), hn]
    exact append_assoc _ _ _

lemma Consistent.ledger_addKey (h : u.Consistent) (hn : key ∉ u.keys)
    (hr : u.uidNext + 1 < 2 ^ 32) : (h.addKey hn hr).ledger = h.ledger.issue key := by
  ext1
  · exact Nat.mod_eq_of_lt hr
  · rfl

lemma Consistent.foldl_addKey (h : u.Consistent) (hn : keys.Nodup)
    (hnew : ∀ key ∈ keys, key ∉ u.keys) (hr : u.uidNext + keys.length < 2 ^ 32) :
    ∃ hf : (keys.foldl UidList.addKey u).Consistent, h.ledger.Extends hf.ledger := by
  induction keys generalizing u with
  | nil => exact ⟨h, Ledger.Extends.refl _⟩
  | cons key keys ih =>
    rw [length_cons] at hr
    obtain ⟨hk, hn⟩ := nodup_cons.mp hn
    have hfi := hnew key mem_cons_self
    have hs := h.addKey hfi (by omega)
    have hre : ∀ other ∈ keys, other ∉ (u.addKey key).keys := by
      intro other ho
      rw [addKey_keys, mem_append, mem_singleton]
      rintro (hold | rfl)
      · exact hnew other (mem_cons_of_mem _ ho) hold
      · exact hk ho
    have hne : (u.addKey key).uidNext = u.uidNext + 1 := addKey_uidNext (by omega)
    obtain ⟨hf, he⟩ := ih hs hn hre (by omega)
    have hi : h.ledger.Extends hs.ledger := by
      rw [h.ledger_addKey hfi (by omega)]
      exact Ledger.extends_issue _ key
    exact ⟨hf, hi.trans he⟩

end Assign

section Reconcile

variable {u : UidList} {key : Bytes} {curKeys : List Bytes}

def assigns (u : UidList) (curKeys : List Bytes) : Nat := ((u.sweep curKeys).newKeys curKeys).length

lemma Consistent.mem_newKeys (h : u.Consistent) :
    key ∈ (u.sweep curKeys).newKeys curKeys ↔ key ∈ curKeys ∧ key ∉ u.keys := by
  simp only [newKeys, mem_filter, decide_eq_true_eq, sweep_keyToUid curKeys h]
  refine and_congr_right fun hc => ?_
  rw [if_pos hc, h.keyToUid_eq_none]

lemma sortStrings_length (keys : List Bytes) : (sortStrings keys).length = keys.length :=
  (sortStrings_perm keys).length_eq

lemma reconcile_header (u : UidList) (curKeys : List Bytes) : (u.reconcile curKeys).1.version = u.version ∧
      (u.reconcile curKeys).1.uidValidity = u.uidValidity := by
  simpa only [reconcile, sweep_version, sweep_uidValidity] using
    foldl_addKey_header (u.sweep curKeys) _

lemma reconcile_uidNext (hr : u.uidNext + u.assigns curKeys < 2 ^ 32) :
    (u.reconcile curKeys).1.uidNext = u.uidNext + u.assigns curKeys := by
  simp only [reconcile]
  rw [foldl_addKey_uidNext] <;> rw [sortStrings_length, sweep_uidNext]
  · rfl
  · exact hr

lemma reconcile_entries (hr : u.uidNext + u.assigns curKeys < 2 ^ 32) : (u.reconcile curKeys).1.entries =
      (u.sweep curKeys).entries ++
        numberFrom u.uidNext (sortStrings ((u.sweep curKeys).newKeys curKeys)) := by
  simp only [reconcile]
  rw [foldl_addKey_entries, sweep_uidNext]
  rw [sortStrings_length, sweep_uidNext]
  exact hr

lemma Consistent.reconcile_assigned (h : u.Consistent) (hn : curKeys.Nodup)
    (hr : u.uidNext + u.assigns curKeys < 2 ^ 32) : ∃ hf : (u.reconcile curKeys).1.Consistent,
      (h.sweep curKeys).ledger.Extends hf.ledger := by
  refine (h.sweep curKeys).foldl_addKey ?_ ?_ ?_
  · exact (sortStrings_perm _).nodup_iff.mpr (hn.filter _)
  · intro key hk
    rw [mem_sortStrings, h.mem_newKeys] at hk
    rw [mem_keys_sweep]
    exact fun hold => hk.2 hold.1
  · rw [sortStrings_length, sweep_uidNext]
    exact hr

lemma Consistent.reconcile (h : u.Consistent) (hn : curKeys.Nodup)
    (hr : u.uidNext + u.assigns curKeys < 2 ^ 32) : (u.reconcile curKeys).1.Consistent :=
  (h.reconcile_assigned hn hr).1

-- What a key was given before, it keeps or loses with its file.
lemma Consistent.extends_reconcile (h : u.Consistent) (hn : curKeys.Nodup)
    (hr : u.uidNext + u.assigns curKeys < 2 ^ 32) : h.ledger.Extends (h.reconcile hn hr).ledger := by
  obtain ⟨_, ha⟩ := h.reconcile_assigned hn hr
  have hs : h.ledger.Extends (h.sweep curKeys).ledger := by
    rw [h.ledger_sweep]
    exact Ledger.extends_retain _ _
  exact hs.trans ha

lemma Consistent.mem_keys_reconcile (h : u.Consistent) (hr : u.uidNext + u.assigns curKeys < 2 ^ 32) :
    key ∈ (u.reconcile curKeys).1.keys ↔ key ∈ curKeys := by
  simp only [UidList.keys, reconcile_entries hr, map_append, numberFrom_keys,
    mem_append, mem_sortStrings, h.mem_newKeys]
  have hs : key ∈ (u.sweep curKeys).entries.map UidEntry.key ↔ key ∈ u.keys ∧ key ∈ curKeys :=
    mem_keys_sweep u curKeys
  rw [hs]
  tauto

lemma reconcile_keeps (hr : u.uidNext + u.assigns curKeys < 2 ^ 32)
    (he : e ∈ u.entries) (hc : e.key ∈ curKeys) : e ∈ (u.reconcile curKeys).1.entries := by
  rw [reconcile_entries hr]
  exact mem_append_left _ ((mem_sweep u curKeys).mpr ⟨he, hc⟩)

lemma consistent_empty (now : Nat) : (empty now).Consistent where
  increasing := List.Pairwise.nil
  keys_nodup := nodup_nil
  keyToUid_iff := by simp [empty]
  uidToKey_iff := by simp [empty]
  uid_pos := by simp [empty]
  uid_lt := by simp [empty]
  next_pos := le_rfl

lemma consistent_bootstrap (now : Nat) (hn : curKeys.Nodup) (hr : curKeys.length + 1 < 2 ^ 32) :
    (bootstrapUidList now curKeys).Consistent := by
  refine ((consistent_empty now).foldl_addKey ?_ ?_ ?_).1
  · exact (sortStrings_perm _).nodup_iff.mpr hn
  · intro key _
    exact not_mem_nil
  · rw [sortStrings_length, Nat.add_comm]
    exact hr

lemma bootstrap_uidNext (now : Nat) (hr : curKeys.length + 1 < 2 ^ 32) :
    (bootstrapUidList now curKeys).uidNext = curKeys.length + 1 := by
  have he : (empty now).uidNext + (sortStrings curKeys).length = curKeys.length + 1 := by
    rw [sortStrings_length, Nat.add_comm]
    rfl
  rw [← he]
  exact foldl_addKey_uidNext (he ▸ hr)

lemma bootstrap_entries (now : Nat) (hr : curKeys.length + 1 < 2 ^ 32) :
    (bootstrapUidList now curKeys).entries = numberFrom 1 (sortStrings curKeys) := by
  refine foldl_addKey_entries (u := empty now) ?_
  rw [sortStrings_length, Nat.add_comm]
  exact hr

lemma mem_keys_bootstrap (now : Nat) (hr : curKeys.length + 1 < 2 ^ 32) :
    key ∈ (bootstrapUidList now curKeys).keys ↔ key ∈ curKeys := by
  rw [UidList.keys, bootstrap_entries now hr, numberFrom_keys, mem_sortStrings]

-- Who asks for UIDNEXT - 1 gets the greatest of the new keys, whichever was delivered last.
lemma Consistent.newest_iff (h : u.Consistent) {old : List UidEntry} {n : Nat} {keys : List Bytes}
    (he : u.entries = old ++ numberFrom n (sortStrings keys))
    (hn : u.uidNext = n + keys.length) (hold : ∀ e ∈ old, e.uid < n) (hk : key ∈ keys) :
    u.uidToKey (u.uidNext - 1) = some key ↔ ∀ other ∈ keys, other ≤ key := by
  have hp := length_pos_of_mem hk
  have hne := ne_nil_of_mem ((mem_sortStrings keys key).mpr hk)
  have hl : u.uidNext - 1 + 1 = n + (sortStrings keys).length := by
    rw [sortStrings_length]
    omega
  have hnot : (⟨u.uidNext - 1, key⟩ : UidEntry) ∉ old := fun hm => by
    have := hold _ hm
    simp only at this
    omega
  rw [h.uidToKey_iff, he, mem_append, or_iff_right hnot, last_mem_numberFrom hl hne,
    getLast?_sortStrings_eq_some]
  exact and_iff_right hk

end Reconcile

end Maildancer.UidList

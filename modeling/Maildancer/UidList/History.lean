import Maildancer.Transition
import Maildancer.UidList.File

namespace Maildancer.UidList

open Text

inductive Op
  | reconcile (curKeys : List Bytes)
  | reload

-- A list in use, with the keys it was last reconciled against and the number
-- of UIDs handed out so far. Nothing in the code keeps the last two.
structure Stage where
  list : UidList
  lastKeys : List Bytes
  assigned : Nat

namespace Stage

def start (now : Nat) (curKeys : List Bytes) : Stage :=
  ⟨bootstrapUidList now curKeys, curKeys, curKeys.length⟩

def step (s : Stage) : Op → Option Stage
  | .reconcile curKeys =>
    some ⟨(s.list.reconcile curKeys).1, curKeys, s.assigned + s.list.assigns curKeys⟩
  | .reload =>
    match readUidList (some s.list.write) with
    | .ok (some u) => some { s with list := u }
    | _ => none

structure ValidKeys (curKeys : List Bytes) : Prop where
  nodup : curKeys.Nodup
  valid : ∀ key ∈ curKeys, ValidKey key

def ValidOp (_ : Stage) : Op → Prop
  | .reconcile curKeys => ValidKeys curKeys
  | .reload => True

def HasRoom (s : Stage) : Prop := s.assigned < 2 ^ 32 - 1

structure Good (s : Stage) : Prop where
  consistent : s.list.Consistent
  version : s.list.version = uidlistVersion
  validity_lt : s.list.uidValidity < 2 ^ 32
  counted : s.list.uidNext = s.assigned + 1
  keys : ∀ key, key ∈ s.list.keys ↔ key ∈ s.lastKeys
  validKeys : ValidKeys s.lastKeys

variable {s t : Stage} {curKeys : List Bytes}

lemma Good.storable (h : s.Good) (hr : s.HasRoom) : s.list.Storable := by
  have hn : s.list.uidNext < 2 ^ 32 := by
    rw [h.counted]
    unfold HasRoom at hr
    omega
  refine ⟨?_, ?_, h.validity_lt, hn, ?_, ?_⟩
  · rw [h.version]
    decide
  · rw [h.version]
    decide
  · exact fun e he => (h.consistent.uid_lt e he).trans hn
  · exact fun e he => h.validKeys.valid _ ((h.keys _).mp (List.mem_map.mpr ⟨e, he, rfl⟩))

lemma Good.step_reload (h : s.Good) (hr : s.HasRoom) : s.step .reload = some s := by
  simp [step, readUidList_write h.consistent (h.storable hr)]

lemma good_start (now : Nat) (hk : ValidKeys curKeys) (hr : (start now curKeys).HasRoom) :
    (start now curKeys).Good := by
  have hl : curKeys.length + 1 < 2 ^ 32 := by
    simp only [HasRoom, start] at hr
    omega
  obtain ⟨hv, hva⟩ := foldl_addKey_header _ _
  exact ⟨consistent_bootstrap now hk.nodup hl, hv, hva ▸ Nat.mod_lt _ (by decide), bootstrap_uidNext now hl,
    fun _ => mem_keys_bootstrap now hl, hk⟩

lemma assigned_le_of_step {op : Op} (h : s.step op = some t) : s.assigned ≤ t.assigned := by
  cases op with
  | reconcile curKeys =>
    cases h
    exact Nat.le_add_right _ _
  | reload =>
    simp only [step] at h
    split at h
    · cases h
      exact le_rfl
    · cases h

lemma Good.room_reconcile (h : s.Good) (hr : s.assigned + s.list.assigns curKeys < 2 ^ 32 - 1) :
    s.list.uidNext + s.list.assigns curKeys < 2 ^ 32 := by
  rw [h.counted]
  omega

lemma Good.step_reconcile (h : s.Good) (hk : ValidKeys curKeys)
    (hs : s.step (.reconcile curKeys) = some t) (hr : t.HasRoom) :
    ∃ ht : t.Good, h.consistent.ledger.Extends ht.consistent.ledger := by
  cases hs
  have hf := h.room_reconcile hr
  obtain ⟨hv, hva⟩ := reconcile_header s.list curKeys
  refine ⟨⟨h.consistent.reconcile hk.nodup hf, hv.trans h.version,
    hva ▸ h.validity_lt, ?_, fun _ => h.consistent.mem_keys_reconcile hf, hk⟩,
    h.consistent.extends_reconcile hk.nodup hf⟩
  rw [reconcile_uidNext hf, h.counted]
  exact Nat.add_right_comm _ _ _

lemma Good.step {op : Op} (h : s.Good) (hop : ValidOp s op) (hs : s.step op = some t)
    (hr : t.HasRoom) : ∃ ht : t.Good, h.consistent.ledger.Extends ht.consistent.ledger := by
  cases op with
  | reconcile curKeys => exact h.step_reconcile hop hs hr
  | reload =>
    have hb := (assigned_le_of_step hs).trans_lt hr
    obtain rfl : s = t := Option.some.inj ((h.step_reload hb).symm.trans hs)
    exact ⟨h, Ledger.Extends.refl _⟩

lemma Good.run (h : s.Good) (hrun : Reaches Stage.step ValidOp s t) (hr : t.HasRoom) :
    ∃ ht : t.Good, h.consistent.ledger.Extends ht.consistent.ledger := by
  induction hrun with
  | refl => exact ⟨h, Ledger.Extends.refl _⟩
  | tail op _ hop hs ih =>
    obtain ⟨hm, he⟩ := ih ((assigned_le_of_step hs).trans_lt hr)
    obtain ⟨hl, hla⟩ := hm.step hop hs hr
    exact ⟨hl, he.trans hla⟩

lemma assigned_le_of_run (hr : Reaches Stage.step ValidOp s t) : s.assigned ≤ t.assigned :=
  hr.invariant (P := fun t => s.assigned ≤ t.assigned) le_rfl
    fun _ _ _ hle _ hs => hle.trans (assigned_le_of_step hs)

theorem uidList_run_invariant {now : Nat} (hkeys : ValidKeys curKeys)
    (hearlier : Reaches step ValidOp (start now curKeys) s) (hlater : Reaches step ValidOp s t)
    (hroom : t.HasRoom) : t.list.Consistent ∧ (∀ key, key ∈ t.list.keys ↔ key ∈ t.lastKeys) ∧
      t.step .reload = some t ∧
      s.list.uidNext ≤ t.list.uidNext ∧
      (∀ nextKeys u, ValidKeys nextKeys → t.step (.reconcile nextKeys) = some u → u.HasRoom →
        ∀ key ∈ t.lastKeys, key ∈ nextKeys → u.list.keyToUid key = t.list.keyToUid key) ∧
      ∀ key other uid, s.list.keyToUid key = some uid → t.list.keyToUid other = some uid →
        other = key := by
  have hst := (assigned_le_of_run (hearlier.trans hlater)).trans_lt hroom
  obtain ⟨hs, -⟩ := (good_start now hkeys hst).run hearlier
    ((assigned_le_of_run hlater).trans_lt hroom)
  obtain ⟨ht, hex⟩ := hs.run hlater hroom
  refine ⟨ht.consistent, ht.keys, ht.step_reload hroom, hex.next_le, ?_,
    fun _ _ _ => hex.never_reused⟩
  intro nextKeys u hn hse hu key hk hke
  obtain ⟨uid, he⟩ := mem_keys.mp ((ht.keys key).mpr hk)
  obtain ⟨hl, -⟩ := ht.step_reconcile hn hse hu
  cases hse
  have hm := reconcile_keeps (ht.room_reconcile hu) he hke
  rw [(ht.consistent.keyToUid_iff key uid).mpr he]
  exact (hl.consistent.keyToUid_iff key uid).mpr hm

theorem uidList_run_invariant_replaced_key :
    ∃ t, (start 7 [ascii "a", ascii "b"]).step (.reconcile [ascii "b", ascii "c"]) = some t ∧
      t.HasRoom ∧ t.list.entries = [⟨2, ascii "b"⟩, ⟨3, ascii "c"⟩] ∧ t.list.Consistent ∧
      t.step .reload = some t := by
  have hv : ∀ key ∈ [ascii "a", ascii "b", ascii "c"], ValidKey key := by
    simp only [List.forall_mem_cons, List.not_mem_nil, false_implies, implies_true, and_true]
    refine ⟨?_, ?_, ?_⟩ <;> exact ⟨by decide, by decide, by decide, by decide⟩
  have hs : ValidKeys [ascii "a", ascii "b"] := ⟨by decide, fun key hk => hv key (by grind)⟩
  have hn : ValidKeys [ascii "b", ascii "c"] := ⟨by decide, fun key hk => hv key (by grind)⟩
  have hr : 2 + (bootstrapUidList 7 [ascii "a", ascii "b"]).assigns [ascii "b", ascii "c"] <
      2 ^ 32 - 1 := by decide
  have hru := uidList_run_invariant hs .refl
    (.tail (.reconcile [ascii "b", ascii "c"]) .refl hn rfl) hr
  exact ⟨_, rfl, hr, by decide, hru.1, hru.2.2.1⟩

end Stage

end Maildancer.UidList

import Mathlib.Algebra.Order.Field.Basic
import Mathlib.Algebra.Order.BigOperators.Group.List
import Mathlib.Data.Finset.Max
import Mathlib.Tactic.Linarith
import Mathlib.Tactic.Ring

namespace Maildancer

open List

variable {K : Type} [Field K] [LinearOrder K]

structure Bucket (K : Type) where
  rate : K
  burst : K
  tokens : K
  lastTime : K
deriving DecidableEq

namespace Bucket

def refill (b : Bucket K) (now : K) : Bucket K :=
  { b with tokens := min (b.tokens + (now - b.lastTime) * b.rate) b.burst, lastTime := now }

def withdraw (b : Bucket K) (amount : K) : Bucket K := { b with tokens := b.tokens - amount }

-- The whole amount is taken or nothing is.
def take (b : Bucket K) (now amount : K) : Bucket K × Bool :=
  if (b.refill now).tokens < amount then (b.refill now, false) else ((b.refill now).withdraw amount, true)

-- What was taken, with the times of all requests, the latest first.
abbrev Spending (K : Type) := List (K × K)

def spent (past : Spending K) (t : K) : K := ((past.filter (t ≤ ·.1)).map Prod.snd).sum

-- The bucket after its past: what it still has is what the burst and the rate leave over
-- every time back to a request.
structure Records (b : Bucket K) (past : Spending K) : Prop where
  nonneg : ∀ entry ∈ past, 0 ≤ entry.2
  earlier : ∀ entry ∈ past, entry.1 ≤ b.lastTime
  tokens : ∀ x, x ≤ b.tokens ↔ ∀ entry ∈ past, x + spent past entry.1 ≤ b.burst + (b.lastTime - entry.1) * b.rate

section Spent

variable {past : Spending K} {t : K}

lemma spent_cons_of_le {entry : K × K} (h : t ≤ entry.1) : spent (entry :: past) t = entry.2 + spent past t := by
  simp [spent, h]

lemma spent_nonneg [IsStrictOrderedRing K] (h : ∀ entry ∈ past, 0 ≤ entry.2) (t : K) : 0 ≤ spent past t := by
  refine sum_nonneg fun x hx => ?_
  obtain ⟨entry, he, rfl⟩ := mem_map.mp hx
  exact h entry (mem_of_mem_filter he)

lemma spent_append_zero (past : Spending K) (s t : K) : spent (past ++ [(s, 0)]) t = spent past t := by
  by_cases hle : t ≤ s
  · simp [spent, hle]
  · simp [spent, hle]

lemma spent_eq_zero (h : ∀ entry ∈ past, ¬ t ≤ entry.1) : spent past t = 0 := by
  rw [spent, filter_eq_nil_iff.mpr (by simpa using h)]
  rfl

lemma exists_first (h : ∃ entry ∈ past, t ≤ entry.1) :
    ∃ entry ∈ past, t ≤ entry.1 ∧ spent past entry.1 = spent past t := by
  obtain ⟨some, hs, hle⟩ := h
  obtain ⟨entry, he, hm⟩ := (past.filter (t ≤ ·.1)).toFinset.exists_min_image Prod.fst ⟨some, by simp [hs, hle]⟩
  simp only [mem_toFinset, mem_filter, decide_eq_true_eq] at he hm
  refine ⟨entry, he.1, he.2, ?_⟩
  rw [spent, spent]
  congr 2
  refine filter_congr fun other ho => ?_
  exact decide_eq_decide.mpr ⟨he.2.trans, fun hl => hm other ⟨ho, hl⟩⟩

end Spent

def within (past : Spending K) (t u : K) : K := ((past.filter fun entry => t ≤ entry.1 ∧ entry.1 ≤ u).map Prod.snd).sum

section Within

variable {past : Spending K} {t u : K} {entry : K × K}

lemma within_cons_of_mem (ht : t ≤ entry.1) (hu : entry.1 ≤ u) :
    within (entry :: past) t u = entry.2 + within past t u := by
  simp [within, ht, hu]

lemma within_cons_of_notMem (h : ¬ (t ≤ entry.1 ∧ entry.1 ≤ u)) : within (entry :: past) t u = within past t u := by
  rw [within, within, filter_cons_of_neg (by simpa using h)]

lemma within_eq_spent (h : ∀ entry ∈ past, entry.1 ≤ u) : within past t u = spent past t := by
  rw [within, spent, filter_congr fun entry he => ?_]
  simp [h entry he]

lemma within_append_zero (past : Spending K) (s t u : K) : within (past ++ [(s, 0)]) t u = within past t u := by
  by_cases hm : t ≤ s ∧ s ≤ u
  · simp [within, hm.1, hm.2]
  · simp [within, filter_cons_of_neg, hm]

end Within

variable {b : Bucket K} {past : Spending K} {now amount : K}

@[simp] lemma take_rate : (b.take now amount).1.rate = b.rate := by
  rw [take]
  split_ifs <;> rfl

@[simp] lemma take_burst : (b.take now amount).1.burst = b.burst := by
  rw [take]
  split_ifs <;> rfl

@[simp] lemma take_lastTime : (b.take now amount).1.lastTime = now := by
  rw [take]
  split_ifs <;> rfl

lemma take_of_lt (h : (b.refill now).tokens < amount) : b.take now amount = (b.refill now, false) := if_pos h

lemma take_of_le (h : amount ≤ (b.refill now).tokens) :
    b.take now amount = ((b.refill now).withdraw amount, true) := if_neg (not_lt.mpr h)

lemma records_full (rate burst t : K) : Records ⟨rate, burst, burst, t⟩ [(t, 0)] where
  nonneg := by simp
  earlier := by simp
  tokens x := by simp [spent]

variable [IsStrictOrderedRing K]

lemma Records.le_refill (h : b.Records past) (x : K) : x ≤ (b.refill now).tokens ↔
    x ≤ b.burst ∧ ∀ entry ∈ past, x + spent past entry.1 ≤ b.burst + (now - entry.1) * b.rate := by
  have hs : x ≤ b.tokens + (now - b.lastTime) * b.rate ↔ x - (now - b.lastTime) * b.rate ≤ b.tokens := by
    constructor <;> intro hx <;> linarith
  rw [refill, le_min_iff, and_comm, hs, h.tokens]
  refine and_congr_right fun _ => forall₂_congr fun entry _ => ?_
  constructor <;> intro hx <;> linarith

lemma Records.next (h : b.Records past) (hnow : b.lastTime ≤ now) {taken : K} (ht : 0 ≤ taken) :
    Records ((b.refill now).withdraw taken) ((now, taken) :: past) where
  nonneg := by
    intro entry he
    cases he with
    | head => exact ht
    | tail _ he => exact h.nonneg entry he
  earlier := by
    intro entry he
    cases he with
    | head => exact le_rfl
    | tail _ he => exact (h.earlier entry he).trans hnow
  tokens := by
    intro x
    have hp : ∀ entry ∈ past, spent ((now, taken) :: past) entry.1 = taken + spent past entry.1 :=
      fun entry he => spent_cons_of_le ((h.earlier entry he).trans hnow)
    have hc : spent ((now, taken) :: past) now = taken + spent past now := spent_cons_of_le le_rfl
    have hs : x ≤ (b.refill now).tokens - taken ↔ x + taken ≤ (b.refill now).tokens := by
      constructor <;> intro hx <;> linarith
    show x ≤ (b.refill now).tokens - taken ↔ ∀ entry ∈ (now, taken) :: past,
      x + spent ((now, taken) :: past) entry.1 ≤ b.burst + (now - entry.1) * b.rate
    rw [hs, h.le_refill, forall_mem_cons, hc]
    constructor
    · rintro ⟨hb, hen⟩
      refine ⟨?_, fun entry he => ?_⟩
      · -- A request at the same time has the same window, and without one nothing was taken.
        by_cases hsa : ∃ entry ∈ past, now ≤ entry.1
        · obtain ⟨entry, he, hle⟩ := hsa
          have heq : entry.1 = now := le_antisymm ((h.earlier entry he).trans hnow) hle
          have hr := hen entry he
          rw [heq] at hr
          linarith
        · have hn : spent past now = 0 := spent_eq_zero fun entry he hle => hsa ⟨entry, he, hle⟩
          simp only [hn, sub_self, zero_mul]
          linarith
      · rw [hp entry he]
        linarith [hen entry he]
    · rintro ⟨hnow', hen⟩
      refine ⟨?_, fun entry he => ?_⟩
      · have hsp := spent_nonneg h.nonneg now
        simp only [sub_self, zero_mul, add_zero] at hnow'
        linarith
      · have hr := hen entry he
        rw [hp entry he] at hr
        linarith

lemma Records.take (h : b.Records past) (hnow : b.lastTime ≤ now) (ha : 0 ≤ amount) :
    Records (b.take now amount).1 ((now, if (b.take now amount).2 then amount else 0) :: past) := by
  by_cases hs : (b.refill now).tokens < amount
  · rw [take_of_lt hs]
    have hn := h.next hnow le_rfl
    rwa [withdraw, sub_zero] at hn
  · rw [take_of_le (not_lt.mp hs)]
    exact h.next hnow ha

lemma Records.admits_iff (h : b.Records past) : (b.take now amount).2 = true ↔
    amount ≤ b.burst ∧ ∀ entry ∈ past, amount + spent past entry.1 ≤ b.burst + (now - entry.1) * b.rate := by
  rw [← h.le_refill]
  by_cases hs : (b.refill now).tokens < amount
  · rw [take_of_lt hs]
    simpa using hs
  · rw [take_of_le (not_lt.mp hs)]
    simpa using hs

lemma Records.admits_iff_windows (h : b.Records past) (hnow : b.lastTime ≤ now) (hr : 0 ≤ b.rate) :
    (b.take now amount).2 = true ↔ ∀ t ≤ now, amount + spent past t ≤ b.burst + (now - t) * b.rate := by
  rw [h.admits_iff]
  constructor
  · rintro ⟨hb, he⟩ t ht
    by_cases hl : ∃ entry ∈ past, t ≤ entry.1
    · obtain ⟨entry, hen, hle, hs⟩ := exists_first hl
      have hro := he entry hen
      have hw : (now - entry.1) * b.rate ≤ (now - t) * b.rate := by gcongr
      rw [hs] at hro
      linarith
    · have hn := spent_eq_zero fun entry hen hle => hl ⟨entry, hen, hle⟩
      have hw := mul_nonneg (sub_nonneg.mpr ht) hr
      rw [hn]
      linarith
  · intro hro
    refine ⟨?_, fun entry hen => hro entry.1 ((h.earlier entry hen).trans hnow)⟩
    have hend := hro now le_rfl
    have hs := spent_nonneg h.nonneg now
    simp only [sub_self, zero_mul, add_zero] at hend
    linarith

def Bounded (b : Bucket K) (past : Spending K) : Prop :=
  ∀ t u, t ≤ u → within past t u ≤ max b.burst 0 + (u - t) * max b.rate 0

lemma bounded_full (rate burst t : K) : Bounded ⟨rate, burst, burst, t⟩ [(t, 0)] := by
  intro s u hsu
  have hz : within [(t, 0)] s u = 0 := by
    by_cases hm : s ≤ t ∧ t ≤ u
    · simp [within, hm.1, hm.2]
    · rw [within_cons_of_notMem hm]
      rfl
  have hb : 0 ≤ max burst 0 := le_max_right _ _
  have hr : 0 ≤ (u - s) * max rate 0 := mul_nonneg (sub_nonneg.mpr hsu) (le_max_right _ _)
  rw [hz]
  linarith

lemma Records.spent_le (h : b.Records past) (hnow : b.lastTime ≤ now) (ha : (b.take now amount).2 = true)
    {t u : K} (ht : t ≤ now) (hu : now ≤ u) : amount + spent past t ≤ max b.burst 0 + (u - t) * max b.rate 0 := by
  obtain ⟨hb, he⟩ := h.admits_iff.mp ha
  have hc : b.burst ≤ max b.burst 0 := le_max_left _ _
  by_cases hl : ∃ entry ∈ past, t ≤ entry.1
  · obtain ⟨entry, hen, hle, hs⟩ := exists_first hl
    have hr := he entry hen
    rw [hs] at hr
    have hba : 0 ≤ now - entry.1 := sub_nonneg.mpr ((h.earlier entry hen).trans hnow)
    have hw : (now - entry.1) * b.rate ≤ (u - t) * max b.rate 0 :=
      calc (now - entry.1) * b.rate ≤ (now - entry.1) * max b.rate 0 :=
            mul_le_mul_of_nonneg_left (le_max_left _ _) hba
        _ ≤ (u - t) * max b.rate 0 := mul_le_mul_of_nonneg_right (by linarith) (le_max_right _ _)
    linarith
  · have hn : spent past t = 0 := spent_eq_zero fun entry hen hle => hl ⟨entry, hen, hle⟩
    have hw : 0 ≤ (u - t) * max b.rate 0 := mul_nonneg (by linarith) (le_max_right _ _)
    rw [hn]
    linarith

lemma Bounded.take (hb : b.Bounded past) (h : b.Records past) (hn : b.lastTime ≤ now) :
    Bounded (b.take now amount).1 ((now, if (b.take now amount).2 then amount else 0) :: past) := by
  intro t u htu
  rw [take_rate, take_burst]
  by_cases hm : t ≤ now ∧ now ≤ u
  · rw [within_cons_of_mem hm.1 hm.2]
    split_ifs with ha
    · rw [within_eq_spent fun entry he => ((h.earlier entry he).trans hn).trans hm.2]
      exact h.spent_le hn ha hm.1 hm.2
    · rw [zero_add]
      exact hb t u htu
  · rw [within_cons_of_notMem hm]
    exact hb t u htu

end Bucket

end Maildancer

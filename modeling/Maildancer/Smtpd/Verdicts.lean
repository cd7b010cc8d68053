import Maildancer.Smtpd
import Mathlib.Algebra.BigOperators.Group.List.Basic

namespace Maildancer.Smtpd

open List Text

structure CheckerResult extends CheckResult where
  checkerName : Bytes
  isSpam : Bool
  rejectMessage : Bytes

inductive AggregateMode
  | firstReject | allReject | highestScore
deriving DecidableEq

structure MultiConfig where
  mode : AggregateMode
  rejectThreshold : ℚ
  tempFailThreshold : ℚ

def reaches (threshold score : ℚ) : Bool := 0 < threshold && threshold ≤ score

lemma CheckResult.shouldReject_eq (r : CheckResult) (threshold : ℚ) :
    r.shouldReject threshold = (decide (r.action = .reject) || reaches threshold r.score) := rfl

lemma CheckResult.shouldTempFail_eq (r : CheckResult) (threshold : ℚ) :
    r.shouldTempFail threshold = (decide (r.action = .tempFail) || reaches threshold r.score) := rfl

namespace MultiConfig

variable (cfg : MultiConfig)

def accepted : CheckerResult := ⟨⟨.accept, 0⟩, ascii "multi", false, []⟩

-- Only scores above the one kept so far, which starts at 0, are taken.
def aggregateFirstReject (results : List CheckerResult) : CheckerResult :=
  match results.find? (·.shouldReject cfg.rejectThreshold) with
  | some r => ⟨⟨.reject, r.score⟩, ascii "multi", true, r.rejectMessage⟩
  | none =>
    match results.find? (·.shouldTempFail cfg.tempFailThreshold) with
    | some r => ⟨⟨.tempFail, r.score⟩, ascii "multi", false, r.rejectMessage⟩
    | none =>
      match results.foldl (fun kept r => if (kept.elim 0 (·.score)) < r.score then some r else kept) none with
      | some r => ⟨⟨.accept, r.score⟩, ascii "multi", r.isSpam, []⟩
      | none => accepted

def average (results : List CheckerResult) : ℚ := (results.map (·.score)).sum / results.length

def aggregateAllReject (results : List CheckerResult) : CheckerResult :=
  if results.all (·.shouldReject cfg.rejectThreshold) then
    ⟨⟨.reject, average results⟩, ascii "multi", true, ((results.map (·.rejectMessage)).filter (· ≠ [])).getLastD []⟩
  else ⟨⟨.accept, average results⟩, ascii "multi", false, []⟩

-- The first result of the highest score.
def highest : CheckerResult → List CheckerResult → CheckerResult
  | kept, [] => kept
  | kept, r :: rest => highest (if kept.score < r.score then r else kept) rest

def aggregateHighestScore : List CheckerResult → CheckerResult
  | [] => accepted
  | r :: rest =>
    let top := highest r rest
    let action := if top.shouldReject cfg.rejectThreshold then .reject
      else if top.shouldTempFail cfg.tempFailThreshold then .tempFail else .accept
    ⟨⟨action, top.score⟩, ascii "multi", top.isSpam, top.rejectMessage⟩

def aggregateResults : List CheckerResult → CheckerResult
  | [] => accepted
  | [r] => r
  | first :: second :: rest =>
    match cfg.mode with
    | .allReject => cfg.aggregateAllReject (first :: second :: rest)
    | .highestScore => cfg.aggregateHighestScore (first :: second :: rest)
    | .firstReject => cfg.aggregateFirstReject (first :: second :: rest)

end MultiConfig

inductive Verdict
  | refused | deferred | accepted
deriving DecidableEq

-- What Data makes of a check that was answered.
def MultiConfig.verdict (cfg : MultiConfig) (r : CheckResult) : Verdict :=
  if r.shouldReject cfg.rejectThreshold then .refused
  else if 0 < cfg.tempFailThreshold && r.shouldTempFail cfg.tempFailThreshold then .deferred
  else .accepted

def MultiConfig.data (cfg : MultiConfig) (results : List CheckerResult) : Verdict :=
  cfg.verdict (cfg.aggregateResults results).toCheckResult

section Modes

variable {cfg : MultiConfig}

lemma reaches_zero (threshold : ℚ) : reaches threshold 0 = false := by
  rw [reaches, Bool.and_eq_false_iff, decide_eq_false_iff_not, decide_eq_false_iff_not, not_lt, not_le]
  exact le_or_gt threshold 0

variable {r : CheckerResult} {results others : List CheckerResult}

lemma kept_mem (results : List CheckerResult) (kept : Option CheckerResult)
    (h : results.foldl (fun kept r => if (kept.elim 0 (·.score)) < r.score then some r else kept) kept = some r) :
    r ∈ kept ∨ r ∈ results := by
  induction results generalizing kept with
  | nil => exact .inl h
  | cons first rest ih =>
    rw [foldl_cons] at h
    rcases ih _ h with hk | hr
    · split_ifs at hk
      · exact .inr (Option.some.inj hk ▸ mem_cons_self)
      · exact .inl hk
    · exact .inr (mem_cons_of_mem _ hr)

-- What was asked for is what is done: no score that is passed on reaches a threshold
-- that the result itself did not reach.
lemma verdict_firstReject (results : List CheckerResult) :
    cfg.verdict (cfg.aggregateFirstReject results).toCheckResult =
    if results.any (·.shouldReject cfg.rejectThreshold) then .refused
    else if 0 < cfg.tempFailThreshold && results.any (·.shouldTempFail cfg.tempFailThreshold) then .deferred
    else .accepted := by
  rw [MultiConfig.aggregateFirstReject]
  cases hre : results.find? (·.shouldReject cfg.rejectThreshold) with
  | some r =>
    have hr := List.find?_some hre
    rw [if_pos (any_eq_true.mpr ⟨r, mem_of_find?_eq_some hre, hr⟩)]
    simp [MultiConfig.verdict, CheckResult.shouldReject_eq]
  | none =>
    have hnot := List.find?_eq_none.mp hre
    have hl : ∀ r ∈ results, reaches cfg.rejectThreshold r.score = false := fun r hr => by
      have hr := hnot r hr
      rw [CheckResult.shouldReject_eq, Bool.or_eq_true, not_or, Bool.not_eq_true, Bool.not_eq_true] at hr
      exact hr.2
    rw [any_eq_false.mpr hnot, if_neg Bool.false_ne_true]
    cases ht : results.find? (·.shouldTempFail cfg.tempFailThreshold) with
    | some r =>
      have hr := List.find?_some ht
      rw [any_eq_true.mpr ⟨r, mem_of_find?_eq_some ht, hr⟩]
      simp [MultiConfig.verdict, CheckResult.shouldReject_eq, CheckResult.shouldTempFail_eq,
        hl r (mem_of_find?_eq_some ht)]
    | none =>
      have hn := List.find?_eq_none.mp ht
      rw [any_eq_false.mpr hn]
      cases hk : results.foldl (fun kept r => if (kept.elim 0 (·.score)) < r.score then some r else kept) none with
      | none => simp [MultiConfig.verdict, MultiConfig.accepted,
          CheckResult.shouldReject_eq, CheckResult.shouldTempFail_eq, reaches_zero]
      | some r =>
        have hr := (kept_mem results none hk).resolve_left (Option.not_mem_none r)
        have htop := hn r hr
        rw [CheckResult.shouldTempFail_eq, Bool.or_eq_true, not_or, Bool.not_eq_true] at htop
        simp [MultiConfig.verdict, CheckResult.shouldReject_eq, CheckResult.shouldTempFail_eq, hl r hr, htop.2]

lemma data_firstReject (h : cfg.mode = .firstReject) (results : List CheckerResult) : cfg.data results =
    if results.any (·.shouldReject cfg.rejectThreshold) then .refused
    else if 0 < cfg.tempFailThreshold && results.any (·.shouldTempFail cfg.tempFailThreshold) then .deferred
    else .accepted := by
  rw [MultiConfig.data]
  match results with
  | [] => exact verdict_firstReject []
  | [r] => simp [MultiConfig.aggregateResults, MultiConfig.verdict]
  | first :: second :: rest =>
    rw [MultiConfig.aggregateResults, h]
    exact verdict_firstReject _

lemma average_perm (h : others.Perm results) :
    MultiConfig.average others = MultiConfig.average results := by
  rw [MultiConfig.average, MultiConfig.average, (h.map _).sum_eq, h.length_eq]

lemma any_perm {p : CheckerResult → Bool} (h : others.Perm results) :
    others.any p = results.any p := by
  rw [Bool.eq_iff_iff, any_eq_true, any_eq_true]
  exact exists_congr fun r => and_congr_left' h.mem_iff

lemma highest_spec (r : CheckerResult) (rest : List CheckerResult) :
    MultiConfig.highest r rest ∈ r :: rest ∧ ∀ q ∈ r :: rest, q.score ≤ (MultiConfig.highest r rest).score := by
  induction rest generalizing r with
  | nil => simp [MultiConfig.highest]
  | cons second rest ih =>
    rw [MultiConfig.highest]
    obtain ⟨hm, hmax⟩ := ih (if r.score < second.score then second else r)
    split_ifs at hm hmax ⊢ with hlt
    · have hr := hlt.le.trans (hmax second mem_cons_self)
      exact ⟨mem_cons_of_mem _ hm, forall_mem_cons.mpr ⟨hr, hmax⟩⟩
    rw [forall_mem_cons] at hmax
    refine ⟨?_, ?_⟩
    · rcases mem_cons.mp hm with heq | hre
      · rw [heq]
        exact mem_cons_self
      · exact mem_cons_of_mem _ (mem_cons_of_mem _ hre)
    · exact forall_mem_cons.mpr ⟨hmax.1, forall_mem_cons.mpr ⟨(not_lt.mp hlt).trans hmax.1, hmax.2⟩⟩

lemma highest_of_max {rest : List CheckerResult} (h : ∀ q ∈ rest, q.score ≤ r.score) :
    MultiConfig.highest r rest = r := by
  induction rest with
  | nil => rfl
  | cons second rest ih =>
    rw [forall_mem_cons] at h
    rw [MultiConfig.highest, if_neg (not_lt.mpr h.1), ih h.2]

lemma verdict_top (top : CheckResult) : cfg.verdict ⟨if top.shouldReject cfg.rejectThreshold then .reject
      else if top.shouldTempFail cfg.tempFailThreshold then .tempFail else .accept, top.score⟩ =
    cfg.verdict top := by
  rw [MultiConfig.verdict, MultiConfig.verdict]
  rcases hr : top.shouldReject cfg.rejectThreshold with _ | _
  · rw [CheckResult.shouldReject_eq, Bool.or_eq_false_iff] at hr
    rcases ht : top.shouldTempFail cfg.tempFailThreshold with _ | _
    · rw [CheckResult.shouldTempFail_eq, Bool.or_eq_false_iff] at ht
      simp [CheckResult.shouldReject_eq, CheckResult.shouldTempFail_eq, hr.2, ht.2]
    · simp [CheckResult.shouldReject_eq, CheckResult.shouldTempFail_eq, hr.2]
  · simp [CheckResult.shouldReject_eq]

lemma data_highest (h : cfg.mode = .highestScore) (r : CheckerResult) (rest : List CheckerResult) :
    cfg.data (r :: rest) = cfg.verdict (MultiConfig.highest r rest).toCheckResult := by
  cases rest with
  | nil => rfl
  | cons second rest =>
    rw [MultiConfig.data, MultiConfig.aggregateResults, h]
    exact verdict_top _

lemma refused_iff (r : CheckResult) : cfg.verdict r = .refused ↔ r.shouldReject cfg.rejectThreshold = true := by
  rw [MultiConfig.verdict]
  split_ifs <;> simp_all

-- The average of the scores is held against the threshold once more.
lemma data_allReject (h : cfg.mode = .allReject) (hne : results ≠ []) :
    cfg.data results = .refused ↔ results.all (·.shouldReject cfg.rejectThreshold) = true ∨
      reaches cfg.rejectThreshold (MultiConfig.average results) = true := by
  rw [MultiConfig.data, refused_iff]
  match results with
  | [r] =>
    rw [MultiConfig.aggregateResults, show MultiConfig.average [r] = r.score by simp [MultiConfig.average], all_cons,
      all_nil, Bool.and_true, CheckResult.shouldReject_eq, Bool.or_eq_true]
    tauto
  | first :: second :: rest =>
    rw [MultiConfig.aggregateResults, h]
    simp only [MultiConfig.aggregateAllReject]
    cases (first :: second :: rest).all (·.shouldReject cfg.rejectThreshold) <;> simp [CheckResult.shouldReject_eq]

lemma data_perm (h : cfg.mode ≠ .highestScore) (hp : others.Perm results) :
    cfg.data others = cfg.data results := by
  cases hm : cfg.mode with
  | highestScore => exact absurd hm h
  | firstReject => rw [data_firstReject hm, data_firstReject hm, any_perm hp, any_perm hp]
  | allReject =>
    have ha : others.all (·.shouldReject cfg.rejectThreshold) = results.all (·.shouldReject cfg.rejectThreshold) := by
      rw [all_eq_not_any_not, all_eq_not_any_not, any_perm hp]
    match results, others, hp.length_eq with
    | [], [], _ => rfl
    | [r], [q], _ => rw [singleton_perm_singleton.mp hp]
    | _ :: _ :: _, _ :: _ :: _, _ =>
      simp only [MultiConfig.data, MultiConfig.aggregateResults, hm, MultiConfig.aggregateAllReject, ha,
        average_perm hp]
      split_ifs
      · simp [MultiConfig.verdict, CheckResult.shouldReject_eq]
      · rfl

def Top (results : List CheckerResult) (r : CheckerResult) : Prop := r ∈ results ∧ ∀ q ∈ results, q.score ≤ r.score

lemma data_highest_perm_iff (h : cfg.mode = .highestScore) (results : List CheckerResult) :
    (∀ others : List CheckerResult, others.Perm results → cfg.data others = cfg.data results) ↔
      ∀ r q, Top results r → Top results q → cfg.verdict r.toCheckResult = cfg.verdict q.toCheckResult := by
  have ht {r : CheckerResult} (hr : Top results r) : ∃ others : List CheckerResult, others.Perm results ∧
      cfg.data others = cfg.verdict r.toCheckResult := by
    obtain ⟨before, after, hs⟩ := append_of_mem hr.1
    have hpe : (r :: (before ++ after)).Perm results := hs ▸ perm_middle.symm
    refine ⟨_, hpe, ?_⟩
    rw [data_highest h, highest_of_max fun q hq => hr.2 q (hpe.mem_iff.mp (mem_cons_of_mem _ hq))]
  constructor
  · intro hsa r q hr hq
    obtain ⟨others, hpe, hd⟩ := ht hr
    obtain ⟨others', hpr, hda⟩ := ht hq
    rw [← hd, ← hda, hsa others hpe, hsa others' hpr]
  · intro hsa others hpe
    rcases others with _ | ⟨q, others⟩
    · rw [nil_perm.mp hpe]
    rcases results with _ | ⟨r, results⟩
    · exact absurd hpe.symm (nil_perm.not.mpr (cons_ne_nil _ _))
    rw [data_highest h, data_highest h]
    refine hsa _ _ ?_ (highest_spec r results)
    obtain ⟨hm, hmax⟩ := highest_spec q others
    exact ⟨hpe.mem_iff.mp hm, fun p hp => hmax p (hpe.mem_iff.mpr hp)⟩

end Modes

-- An average that reaches the threshold refuses a message some checker let pass, and
-- of two results of the highest score the first one is heard.
theorem aggregate_promises_iff (cfg : MultiConfig) (results : List CheckerResult) :
    (cfg.mode = .allReject →
      ((cfg.data results = .refused → ∀ r ∈ results, r.shouldReject cfg.rejectThreshold = true) ↔
        (reaches cfg.rejectThreshold (MultiConfig.average results) = true →
          ∀ r ∈ results, r.shouldReject cfg.rejectThreshold = true))) ∧
    (cfg.mode = .firstReject →
      (cfg.data results = .refused ↔ ∃ r ∈ results, r.shouldReject cfg.rejectThreshold = true)) ∧
    ((∀ others : List CheckerResult, others.Perm results → cfg.data others = cfg.data results) ↔
      (cfg.mode = .highestScore → ∀ r q, Top results r → Top results q →
        cfg.verdict r.toCheckResult = cfg.verdict q.toCheckResult)) := by
  refine ⟨fun h => ?_, fun h => ?_, ?_⟩
  · by_cases hne : results = []
    · simp [hne]
    · rw [data_allReject h hne, ← all_eq_true]
      tauto
  · rw [data_firstReject h, ← any_eq_true]
    split_ifs <;> simp_all
  · by_cases h : cfg.mode = .highestScore
    · rw [data_highest_perm_iff h]
      exact ⟨fun hs _ => hs, fun hs => hs h⟩
    · exact ⟨fun _ hm => absurd hm h, fun _ others hp => data_perm h hp⟩

def scored (score : ℚ) (action : SpamAction) : CheckerResult := ⟨⟨action, score⟩, ascii "c", false, []⟩

theorem verdicts_break_promises :
    MultiConfig.data ⟨.allReject, 10, 0⟩ [scored 30 .accept, scored 0 .accept] = .refused ∧
      (scored 0 .accept).shouldReject 10 = false ∧
      MultiConfig.data ⟨.highestScore, 10, 0⟩ [scored 5 .reject, scored 5 .accept] = .refused ∧
      MultiConfig.data ⟨.highestScore, 10, 0⟩ [scored 5 .accept, scored 5 .reject] = .accepted := by
  decide +kernel

end Maildancer.Smtpd

import Mathlib.Data.List.Nodup

namespace Maildancer

open Function List

-- How a step that may fail ends. Where a step leaves something, a late failure comes after that.
inductive Attempt
  | done
  | failed
  | late
deriving DecidableEq

def passed : Bool → Option Unit
  | true => some ()
  | false => none

@[simp] lemma passed_true : passed true = some () := rfl

@[simp] lemma passed_false : passed false = none := rfl

structure Step (κ : Type*) where
  leaves : Option κ
  mayFailLate : Bool

def Step.run {κ : Type*} (step : Step κ) : Attempt → List κ × Bool
  | .done => (step.leaves.toList, true)
  | .failed => ([], false)
  | .late => (if step.mayFailLate then step.leaves.toList else [], false)

-- Named steps that are tried in a row up to the first that fails, and what they come to if none does.
structure Chain (ι κ ρ : Type*) where
  steps : List (ι × Step κ)
  result : Option ρ

namespace Chain

variable {ι κ ρ τ : Type*}

def stop : Chain ι κ ρ := ⟨[], none⟩

def finish (result : ρ) : Chain ι κ ρ := ⟨[], some result⟩

def single (name : ι) (step : Step κ) (result : ρ) : Chain ι κ ρ := ⟨[(name, step)], some result⟩

def bind (c : Chain ι κ ρ) (next : ρ → Chain ι κ τ) : Chain ι κ τ :=
  match c.result with
  | none => ⟨c.steps, none⟩
  | some r => ⟨c.steps ++ (next r).steps, (next r).result⟩

def runSteps (outcome : ι → Attempt) : List (ι × Step κ) → List κ × Bool
  | [] => ([], true)
  | (name, step) :: rest =>
    match step.run (outcome name) with
    | (left, false) => (left, false)
    | (left, true) =>
      let (more, ok) := runSteps outcome rest
      (left ++ more, ok)

def relabel {ι' κ' : Type*} (rename : ι → ι') (convert : κ → κ') (c : Chain ι κ ρ) : Chain ι' κ' ρ where
  steps := c.steps.map fun (name, step) => (rename name, ⟨step.leaves.map convert, step.mayFailLate⟩)
  result := c.result

def run (c : Chain ι κ ρ) (outcome : ι → Attempt) : List κ × Option ρ :=
  match runSteps outcome c.steps with
  | (left, true) => (left, c.result)
  | (left, false) => (left, none)

@[simp] lemma run_stop (outcome : ι → Attempt) : (stop : Chain ι κ ρ).run outcome = ([], none) := rfl

@[simp] lemma run_finish (outcome : ι → Attempt) (result : ρ) :
    (finish result : Chain ι κ ρ).run outcome = ([], some result) := rfl

lemma run_single (outcome : ι → Attempt) (name : ι) (step : Step κ) (result : ρ) :
    (single name step result).run outcome =
      ((step.run (outcome name)).1, if (step.run (outcome name)).2 then some result else none) := by
  cases hs : step.run (outcome name) with
  | mk left ok => cases ok <;> simp [run, single, runSteps, hs]

lemma run_single_unit (outcome : ι → Attempt) (name : ι) (step : Step κ) :
    (single name step ()).run outcome = ((step.run (outcome name)).1, passed (step.run (outcome name)).2) := by
  rw [run_single]
  cases (step.run (outcome name)).2 <;> rfl

lemma runSteps_append (outcome : ι → Attempt) (first second : List (ι × Step κ)) :
    runSteps outcome (first ++ second) = match runSteps outcome first with
      | (left, false) => (left, false)
      | (left, true) => (left ++ (runSteps outcome second).1, (runSteps outcome second).2) := by
  induction first with
  | nil => rfl
  | cons entry rest ih =>
    obtain ⟨name, step⟩ := entry
    rw [cons_append, runSteps, runSteps, ih]
    rcases hs : step.run (outcome name) with ⟨left, ok⟩
    rcases ok with _ | _
    · rfl
    · cases hr : runSteps outcome rest with
      | mk more ok => cases ok <;> simp

lemma run_bind (outcome : ι → Attempt) (c : Chain ι κ ρ) (next : ρ → Chain ι κ τ) :
    (c.bind next).run outcome = match c.run outcome with
      | (left, none) => (left, none)
      | (left, some r) => (left ++ ((next r).run outcome).1, ((next r).run outcome).2) := by
  obtain ⟨steps, result⟩ := c
  rcases result with _ | r
  · simp only [bind, run]
    cases hs : runSteps outcome steps with
    | mk left ok => cases ok <;> rfl
  simp only [bind, run, runSteps_append]
  rcases hs : runSteps outcome steps with ⟨left, ok⟩
  cases ok with
  | false => rfl
  | true =>
    cases hn : runSteps outcome (next r).steps with
    | mk more ok => cases ok <;> simp [hn]

variable {ι' κ' : Type*} {succeeds : Bool}

lemma run_relabel (rename : ι → ι') (convert : κ → κ') (c : Chain ι κ ρ) (outcome : ι' → Attempt) :
    (c.relabel rename convert).run outcome =
      ((c.run (outcome ∘ rename)).1.map convert, (c.run (outcome ∘ rename)).2) := by
  have hs : runSteps outcome (c.relabel rename convert).steps =
      ((runSteps (outcome ∘ rename) c.steps).1.map convert, (runSteps (outcome ∘ rename) c.steps).2) := by
    obtain ⟨steps, result⟩ := c
    induction steps with
    | nil => rfl
    | cons entry rest ih =>
      obtain ⟨name, leaves, mayFailLate⟩ := entry
      simp only [relabel, map_cons, runSteps, comp_apply] at ih ⊢
      cases outcome (rename name) <;> cases leaves <;> cases mayFailLate <;> simp [Step.run, ih]
  simp only [run, hs]
  cases runSteps (outcome ∘ rename) c.steps with
  | mk left ok => cases ok <;> rfl

structure Named (P : ι → Prop) (c : Chain ι κ ρ) : Prop where
  distinct : (c.steps.map Prod.fst).Nodup
  kind : ∀ name ∈ c.steps.map Prod.fst, P name

namespace Named

variable {P Q : ι → Prop}

lemma stop : (Chain.stop : Chain ι κ ρ).Named P := ⟨nodup_nil, nofun⟩

lemma finish {result : ρ} : (Chain.finish result : Chain ι κ ρ).Named P := ⟨nodup_nil, nofun⟩

lemma single {name : ι} {step : Step κ} {result : ρ} (h : P name) : (Chain.single name step result).Named P :=
  ⟨nodup_singleton _, by simpa [Chain.single] using h⟩

lemma mono {c : Chain ι κ ρ} (h : c.Named P) (hPQ : ∀ name, P name → Q name) : c.Named Q :=
  ⟨h.distinct, fun name hn => hPQ name (h.kind name hn)⟩

lemma bind {c : Chain ι κ ρ} {next : ρ → Chain ι κ τ} (hc : c.Named P)
    (hn : ∀ r, c.result = some r → (next r).Named Q) (ha : ∀ name, P name → ¬ Q name) :
    (c.bind next).Named fun name => P name ∨ Q name := by
  obtain ⟨steps, result⟩ := c
  rcases result with _ | r
  · exact ⟨hc.distinct, fun name hna => .inl (hc.kind name hna)⟩
  have hr := hn r rfl
  constructor
  · simp only [Chain.bind, map_append]
    refine nodup_append.mpr ⟨hc.distinct, hr.distinct, ?_⟩
    rintro name hna _ hnm rfl
    exact ha name (hc.kind name hna) (hr.kind name hnm)
  · intro name hna
    simp only [Chain.bind, map_append, mem_append] at hna
    exact hna.imp (hc.kind name) (hr.kind name)

lemma relabel {rename : ι → ι'} {convert : κ → κ'} {c : Chain ι κ ρ} {P' : ι' → Prop}
    (h : c.Named P) (hi : Function.Injective rename) (hk : ∀ name, P name → P' (rename name)) :
    (c.relabel rename convert).Named P' := by
  have hn : (c.relabel rename convert).steps.map Prod.fst = (c.steps.map Prod.fst).map rename := by
    simp [Chain.relabel, comp_def]
  constructor
  · rw [hn]
    exact h.distinct.map hi
  intro name hna
  rw [hn] at hna
  obtain ⟨old, hold, rfl⟩ := mem_map.mp hna
  exact hk old (h.kind old hold)

end Named

def Leaves (P : κ → Prop) (c : Chain ι κ ρ) : Prop := ∀ entry ∈ c.steps, ∀ left ∈ entry.2.leaves, P left

namespace Leaves

variable {P : κ → Prop}

lemma stop : (Chain.stop : Chain ι κ ρ).Leaves P := nofun

lemma finish {result : ρ} : (Chain.finish result : Chain ι κ ρ).Leaves P := nofun

lemma single {name : ι} {left : κ} {mayFailLate : Bool} {result : ρ} (h : P left) :
    (Chain.single name ⟨some left, mayFailLate⟩ result).Leaves P := by
  intro entry he other ho
  obtain rfl := mem_singleton.mp he
  cases ho
  exact h

lemma bind {c : Chain ι κ ρ} {next : ρ → Chain ι κ τ} (hc : c.Leaves P) (hn : ∀ r, (next r).Leaves P) :
    (c.bind next).Leaves P := by
  obtain ⟨steps, result⟩ := c
  rcases result with _ | r
  · exact hc
  · intro entry he
    exact (mem_append.mp he).elim (hc entry) (hn r entry)

lemma run {c : Chain ι κ ρ} (h : c.Leaves P) (outcome : ι → Attempt) : ∀ left ∈ (c.run outcome).1, P left := by
  have hs : ∀ steps : List (ι × Step κ), (∀ entry ∈ steps, ∀ left ∈ entry.2.leaves, P left) →
      ∀ left ∈ (runSteps outcome steps).1, P left := by
    intro steps
    induction steps with
    | nil => nofun
    | cons entry rest ih =>
      intro hl left hle
      obtain ⟨name, step⟩ := entry
      have hst : ∀ left ∈ (step.run (outcome name)).1, P left := by
        intro left hle
        refine hl (name, step) mem_cons_self left (Option.mem_toList.mp ?_)
        cases ho : outcome name with
        | done => rwa [ho] at hle
        | failed =>
          rw [ho] at hle
          cases hle
        | late =>
          rw [ho, Step.run] at hle
          rcases hla : step.mayFailLate with _ | _
          · rw [hla] at hle
            cases hle
          · rwa [hla] at hle
      rw [runSteps] at hle
      rcases hout : step.run (outcome name) with ⟨kept, ok⟩
      rw [hout] at hle hst
      rcases ok with _ | _
      · exact hst left hle
      · exact (mem_append.mp hle).elim (hst left)
          (ih (fun entry he => hl entry (mem_cons_of_mem _ he)) left)
  have hr : (c.run outcome).1 = (runSteps outcome c.steps).1 := by
    unfold Chain.run
    cases runSteps outcome c.steps with
    | mk left ok => cases ok <;> rfl
  rw [hr]
  exact hs c.steps h

end Leaves

lemma result_bind (c : Chain ι κ ρ) (next : ρ → Chain ι κ τ) :
    (c.bind next).result = c.result.bind fun r => (next r).result := by
  obtain ⟨steps, result⟩ := c
  cases result <;> rfl

lemma result_of_run {c : Chain ι κ ρ} {outcome : ι → Attempt} {r : ρ} (h : (c.run outcome).2 = some r) :
    c.result = some r := by
  unfold run at h
  rcases hs : runSteps outcome c.steps with ⟨left, ok⟩
  rw [hs] at h
  cases ok with
  | true => exact h
  | false => cases h

-- The steps that leave something: at most one, which is the last, cannot fail
-- late and is followed by success.
def CleanSteps (succeeds : Bool) : List (ι × Step κ) → Prop
  | [] => True
  | (_, step) :: rest =>
    match step.leaves with
    | none => CleanSteps succeeds rest
    | some _ => step.mayFailLate = false ∧ rest = [] ∧ succeeds = true

def Clean (c : Chain ι κ ρ) : Prop := CleanSteps c.result.isSome c.steps

def AllOrNothing (c : Chain ι κ ρ) : Prop := ∀ outcome, (c.run outcome).2 = none → (c.run outcome).1 = []

lemma CleanSteps.left_nil {steps : List (ι × Step κ)} (h : CleanSteps succeeds steps)
    (outcome : ι → Attempt) (hf : (runSteps outcome steps).2 = false ∨ succeeds = false) :
    (runSteps outcome steps).1 = [] := by
  induction steps with
  | nil => rfl
  | cons entry rest ih =>
    obtain ⟨name, step⟩ := entry
    obtain ⟨leaves, mayFailLate⟩ := step
    rcases leaves with _ | kept
    · cases ho : outcome name <;> simp_all [runSteps, Step.run, CleanSteps]
    · obtain ⟨hl, hr, hok⟩ := h
      cases ho : outcome name <;> simp_all [runSteps, Step.run]

lemma Clean.allOrNothing {c : Chain ι κ ρ} (h : c.Clean) : c.AllOrNothing := by
  intro outcome hn
  rcases hs : runSteps outcome c.steps with ⟨left, ok⟩
  have hl : (c.run outcome).1 = left := by cases ok <;> simp [run, hs]
  have hf : ok = false ∨ c.result.isSome = false := by
    cases ok with
    | false => exact .inl rfl
    | true => exact .inr (by simpa [run, hs] using hn)
  rw [hl]
  simpa [hs] using CleanSteps.left_nil h outcome (by rwa [hs])

section

variable [DecidableEq ι]

lemma runSteps_update {name : ι} {steps : List (ι × Step κ)} (h : name ∉ steps.map Prod.fst)
    (outcome : ι → Attempt) (a : Attempt) :
    runSteps (update outcome name a) steps = runSteps outcome steps := by
  induction steps with
  | nil => rfl
  | cons entry rest ih =>
    obtain ⟨other, step⟩ := entry
    rw [map_cons, mem_cons, not_or] at h
    rw [runSteps, runSteps, update_of_ne (Ne.symm h.1), ih h.2]

lemma cleanSteps_of_left_nil {steps : List (ι × Step κ)} (hn : (steps.map Prod.fst).Nodup)
    (h : ∀ outcome, ((runSteps outcome steps).2 = false ∨ succeeds = false) → (runSteps outcome steps).1 = []) :
    CleanSteps succeeds steps := by
  induction steps with
  | nil => trivial
  | cons entry rest ih =>
    obtain ⟨name, step⟩ := entry
    obtain ⟨leaves, mayFailLate⟩ := step
    obtain ⟨hna, hr⟩ := nodup_cons.mp hn
    have hd : ∀ outcome : ι → Attempt,
        runSteps (update outcome name .done) ((name, ⟨leaves, mayFailLate⟩) :: rest) =
        (leaves.toList ++ (runSteps outcome rest).1, (runSteps outcome rest).2) := by
      intro outcome
      simp [runSteps, Step.run, runSteps_update hna]
    rcases leaves with _ | kept
    · refine ih hr fun outcome hf => ?_
      have := h _ (by rwa [hd])
      simpa [hd] using this
    refine ⟨?_, ?_, ?_⟩
    · cases mayFailLate with
      | false => rfl
      | true => simpa [runSteps, Step.run] using h (fun _ => .late) (.inl (by simp [runSteps, Step.run]))
    · rcases rest with _ | ⟨next, more⟩
      · rfl
      have hfa : (runSteps (fun _ => Attempt.failed) (next :: more)).2 = false := by
        simp [runSteps, Step.run]
      have := h (update (fun _ => .failed) name .done) (.inl (by rw [hd, hfa]))
      simp [hd] at this
    · rcases succeeds with _ | _
      · have := h (update (fun _ => .failed) name .done) (.inr rfl)
        simp [hd] at this
      · rfl

lemma allOrNothing_iff_clean {c : Chain ι κ ρ} (hn : (c.steps.map Prod.fst).Nodup) :
    c.AllOrNothing ↔ c.Clean := by
  refine ⟨fun h => cleanSteps_of_left_nil hn fun outcome hf => ?_, Clean.allOrNothing⟩
  have hr := h outcome
  rcases hs : runSteps outcome c.steps with ⟨left, ok⟩
  rcases ok with _ | _
  · simpa [run, hs] using hr
  · have hno : c.result = none := by simpa [hs] using hf
    simpa [run, hs, hno] using hr

end

end Chain

end Maildancer

import Mathlib.Order.Basic

namespace Maildancer

-- A system given by a partial step function. The states of a run are those
-- reached by enabled steps that meet a condition in the state they start from.
inductive Reaches {σ α : Type*} (step : σ → α → Option σ) (ok : σ → α → Prop) (s : σ) : σ → Prop
  | refl : Reaches step ok s s
  | tail {t u : σ} (a : α) (before : Reaches step ok s t) (hok : ok t a)
      (hstep : step t a = some u) : Reaches step ok s u

namespace Reaches

variable {σ α : Type*} {step : σ → α → Option σ} {ok : σ → α → Prop} {s t u : σ}

lemma trans (hst : Reaches step ok s t) (htu : Reaches step ok t u) : Reaches step ok s u := by
  induction htu with
  | refl => exact hst
  | tail a _ hok hs ih => exact ih.tail a hok hs

-- What holds at the start and is kept by every step that meets the condition holds in every state reached.
lemma invariant {P : σ → Prop} (h : Reaches step ok s t) (hs : P s)
    (hk : ∀ s a t, P s → ok s a → step s a = some t → P t) : P t := by
  induction h with
  | refl => exact hs
  | tail a _ hok hst ih => exact hk _ a _ ih hok hst

end Reaches

def runSteps {σ α : Type*} (step : σ → α → Option σ) (s : σ) : List α → Option σ
  | [] => some s
  | a :: rest => (step s a).bind fun t => runSteps step t rest

lemma runSteps_singleton {σ α : Type*} (step : σ → α → Option σ) (s : σ) (a : α) :
    runSteps step s [a] = step s a := Option.bind_fun_some _

lemma runSteps_append {σ α : Type*} (step : σ → α → Option σ) (s : σ) (first second : List α) :
    runSteps step s (first ++ second) = (runSteps step s first).bind fun t => runSteps step t second := by
  induction first generalizing s with
  | nil => rfl
  | cons a rest ih => simp only [List.cons_append, runSteps, ih, Option.bind_assoc]

def Along {σ α : Type*} (step : σ → α → Option σ) (ok : σ → α → Prop) (s : σ) : List α → Prop
  | [] => True
  | a :: rest => ok s a ∧ ∀ t, step s a = some t → Along step ok t rest

instance decidableAlong {σ α : Type*} {step : σ → α → Option σ} {ok : σ → α → Prop}
    [∀ s a, Decidable (ok s a)] : (s : σ) → (actions : List α) → Decidable (Along step ok s actions)
  | _, [] => isTrue trivial
  | s, a :: rest =>
    match h : step s a with
    | none => decidable_of_iff (ok s a) ⟨fun hok => ⟨hok, fun _ ht => nomatch h.symm.trans ht⟩, And.left⟩
    | some u =>
      have : Decidable (Along step ok u rest) := decidableAlong u rest
      decidable_of_iff (ok s a ∧ Along step ok u rest)
        ⟨fun ⟨hok, hrest⟩ => ⟨hok, fun _ ht => Option.some.inj (h.symm.trans ht) ▸ hrest⟩,
          fun ⟨hok, hrest⟩ => ⟨hok, hrest u h⟩⟩

lemma along_append {σ α : Type*} {step : σ → α → Option σ} {ok : σ → α → Prop} {s : σ}
    {first second : List α} : Along step ok s (first ++ second) ↔
      Along step ok s first ∧ ∀ t, runSteps step s first = some t → Along step ok t second := by
  induction first generalizing s with
  | nil => simp [Along, runSteps]
  | cons a rest ih =>
    simp only [List.cons_append, Along, ih, runSteps, Option.bind_eq_some_iff]
    constructor
    · rintro ⟨hok, hr⟩
      exact ⟨⟨hok, fun t ht => (hr t ht).1⟩, fun u ⟨t, ht, hu⟩ => (hr t ht).2 u hu⟩
    · rintro ⟨⟨hok, hr⟩, hs⟩
      exact ⟨hok, fun t ht => ⟨hr t ht, fun u hu => hs u ⟨t, ht, hu⟩⟩⟩

lemma Reaches.of_along {σ α : Type*} {step : σ → α → Option σ} {ok : σ → α → Prop} {s t : σ}
    {actions : List α} (hok : Along step ok s actions) (h : runSteps step s actions = some t) :
    Reaches step ok s t := by
  induction actions generalizing s with
  | nil =>
    cases h
    exact refl
  | cons a rest ih =>
    obtain ⟨u, hs, hr⟩ := Option.bind_eq_some_iff.mp h
    have hf := refl.tail a hok.1 hs
    exact hf.trans (ih (hok.2 u hs) hr)

lemma along_of_forall {σ α : Type*} {step : σ → α → Option σ} {ok : σ → α → Prop} {actions : List α}
    (hok : ∀ s, ∀ a ∈ actions, ok s a) (s : σ) : Along step ok s actions := by
  induction actions generalizing s with
  | nil => trivial
  | cons a rest ih =>
    exact ⟨hok s a List.mem_cons_self, fun t _ => ih (fun s b hb => hok s b (List.mem_cons_of_mem _ hb)) t⟩

lemma Reaches.of_runSteps {σ α : Type*} {step : σ → α → Option σ} {ok : σ → α → Prop} {s t : σ}
    {actions : List α} (hok : ∀ s, ∀ a ∈ actions, ok s a) (h : runSteps step s actions = some t) :
    Reaches step ok s t :=
  of_along (along_of_forall hok s) h

end Maildancer

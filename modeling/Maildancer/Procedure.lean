import Mathlib.Logic.Function.Basic

namespace Maildancer

-- A procedure that calls on what surrounds it and goes on with each reply.
inductive Procedure {ω : Type} (reply : ω → Type) (ρ : Type)
  | finish (result : ρ)
  | call (o : ω) (next : reply o → Procedure reply ρ)

-- What a call does to the state if it goes through, and what it does if there is
-- trouble: it may be refused, or everything may stop there.
structure Surroundings {ω : Type} (reply : ω → Type) (σ χ : Type) where
  answer : (o : ω) → σ → σ × reply o
  upset : (o : ω) → χ → σ → σ × Option (reply o)

namespace Procedure

variable {ω : Type} {reply : ω → Type} {σ χ ρ τ : Type}

def bind : Procedure reply ρ → (ρ → Procedure reply τ) → Procedure reply τ
  | .finish result, next => next result
  | .call o rest, next => .call o fun a => (rest a).bind next

variable (m : Surroundings reply σ χ)

-- With trouble at the calls that the list says, and an end where the list ends.
def run : Procedure reply ρ → List (Option χ) → σ → σ × Option ρ
  | .finish result, _, s => (s, some result)
  | .call _ _, [], s => (s, none)
  | .call o next, none :: rest, s => (next (m.answer o s).2).run rest (m.answer o s).1
  | .call o next, some x :: rest, s =>
    match m.upset o x s with
    | (s, none) => (s, none)
    | (s, some a) => (next a).run rest s

-- What holds wherever the procedure stops: of the state there, and of the result if there is one.
def Ensures : Procedure reply ρ → (σ → Option ρ → Prop) → σ → Prop
  | .finish result, Q, s => Q s (some result)
  | .call o next, Q, s => Q s none ∧ (next (m.answer o s).2).Ensures Q (m.answer o s).1 ∧
      ∀ x, Q (m.upset o x s).1 none ∧ ∀ a, (m.upset o x s).2 = some a → (next a).Ensures Q (m.upset o x s).1

variable {m}

namespace Ensures

lemma run {p : Procedure reply ρ} {Q : σ → Option ρ → Prop} {s : σ} (h : p.Ensures m Q s)
    (schedule : List (Option χ)) : Q (p.run m schedule s).1 (p.run m schedule s).2 := by
  induction p generalizing s schedule with
  | finish result => exact h
  | call o next ih =>
    obtain ⟨hs, ha, hu⟩ := h
    rcases schedule with _ | ⟨trouble, rest⟩
    · exact hs
    rcases trouble with _ | x
    · exact ih _ ha rest
    obtain ⟨hn, hso⟩ := hu x
    rw [Procedure.run]
    cases hc : m.upset o x s with
    | mk t a =>
      rw [hc] at hn hso
      cases a with
      | none => exact hn
      | some a => exact ih a (hso a rfl) rest

lemma mono {p : Procedure reply ρ} {Q Q' : σ → Option ρ → Prop} {s : σ} (h : p.Ensures m Q s)
    (hi : ∀ t r, Q t r → Q' t r) : p.Ensures m Q' s := by
  induction p generalizing s with
  | finish result => exact hi _ _ h
  | call o next ih =>
    obtain ⟨hs, han, hu⟩ := h
    refine ⟨hi _ _ hs, ih _ han, fun x => ⟨hi _ _ (hu x).1, fun a ha => ?_⟩⟩
    exact ih a ((hu x).2 a ha)

lemma bind {p : Procedure reply ρ} {next : ρ → Procedure reply τ} {P : σ → Option ρ → Prop}
    {Q : σ → Option τ → Prop} {s : σ} (h : p.Ensures m P s) (hs : ∀ t, P t none → Q t none)
    (hn : ∀ t r, P t (some r) → (next r).Ensures m Q t) : (p.bind next).Ensures m Q s := by
  induction p generalizing s with
  | finish result => exact hn _ _ h
  | call o rest ih =>
    obtain ⟨hno, han, hu⟩ := h
    refine ⟨hs _ hno, ih _ han, fun x => ⟨hs _ (hu x).1, fun a ha => ?_⟩⟩
    exact ih a ((hu x).2 a ha)

end Ensures

end Procedure

end Maildancer

import Maildancer.Procedure
import Maildancer.Transition
import Mathlib.Data.List.Basic

namespace Maildancer

open List

-- What the log of a service says of a request: that it began, one of its calls with the reply, or its answer.
inductive Entry {ω : Type} (reply : ω → Type) (κ χ ρ : Type)
  | began (request : κ)
  | called (o : ω) (x : χ) (a : reply o)
  | answered (request : κ) (result : ρ)

abbrev Log {ω : Type} (reply : ω → Type) (κ χ ρ : Type) := List (Nat × Entry reply κ χ ρ)

-- Requests are handled by procedures that share a state. Each call is carried out at
-- once, at a moment that says what the state does not.
structure Service {ω : Type} (reply : ω → Type) (κ χ ρ σ : Type) where
  handler : κ → Procedure reply ρ
  perform : (o : ω) → χ → σ → σ × reply o

-- The requests that have begun and not been answered, by number. The log has the latest entry first.
structure Pool {ω : Type} (reply : ω → Type) (κ χ ρ σ : Type) where
  shared : σ
  running : Nat → Option (κ × Procedure reply ρ)
  log : Log reply κ χ ρ

inductive Move (κ χ : Type)
  | begins (i : Nat) (request : κ)
  | advances (i : Nat) (x : χ)

variable {ω : Type} {reply : ω → Type} {κ χ ρ σ τ τ' : Type}

def own (i : Nat) (log : Log reply κ χ ρ) : List (Entry reply κ χ ρ) :=
  log.filterMap fun entry => if entry.1 = i then some entry.2 else none

@[simp] lemma own_cons_self (i : Nat) (e : Entry reply κ χ ρ) (log : Log reply κ χ ρ) :
    own i ((i, e) :: log) = e :: own i log := by
  simp [own]

variable {i : Nat}

lemma own_cons_of_ne {j : Nat} (h : j ≠ i) (e : Entry reply κ χ ρ) (log : Log reply κ χ ρ) :
    own i ((j, e) :: log) = own i log := by
  simp [own, h]

lemma mem_own {e : Entry reply κ χ ρ} {log : Log reply κ χ ρ} : e ∈ own i log ↔ (i, e) ∈ log := by
  simp only [own, mem_filterMap, Option.ite_none_right_eq_some, Option.some.injEq]
  constructor
  · rintro ⟨⟨j, e'⟩, hm, rfl, rfl⟩
    exact hm
  · exact fun hm => ⟨(i, e), hm, rfl, rfl⟩

lemma own_of_notMem {log : Log reply κ χ ρ} (h : i ∉ log.map Prod.fst) : own i log = [] := by
  refine eq_nil_iff_forall_not_mem.mpr fun e he => h ?_
  exact mem_map.mpr ⟨(i, e), mem_own.mp he, rfl⟩

def Once {β : Type} (f : Nat × Entry reply κ χ ρ → Option β) (log : Log reply κ χ ρ) : Prop := (log.filterMap f).Nodup

namespace Once

variable {β : Type} {f : Nat × Entry reply κ χ ρ → Option β} {log : Log reply κ χ ρ}

lemma cons_of_none {entry : Nat × Entry reply κ χ ρ} (h : Once f log) (hn : f entry = none) :
    Once f (entry :: log) := by
  rwa [Once, filterMap_cons_none hn]

lemma cons_of_new {entry : Nat × Entry reply κ χ ρ} {b : β} (h : Once f log) (hs : f entry = some b)
    (hn : ∀ other ∈ log, f other ≠ some b) : Once f (entry :: log) := by
  rw [Once, filterMap_cons_some hs, nodup_cons]
  refine ⟨fun hm => ?_, h⟩
  obtain ⟨other, ho, hv⟩ := mem_filterMap.mp hm
  exact hn other ho hv

lemma eq_of_eq_some {first second : Nat × Entry reply κ χ ρ} {b : β} (h : Once f log) (hfi : first ∈ log)
    (hse : second ∈ log) (hf : f first = some b) (hs : f second = some b) : first = second := by
  induction log with
  | nil => cases hfi
  | cons entry log ih =>
    have hh : f entry = some b → ∀ other ∈ log, f other ≠ some b := by
      intro he other ho hv
      rw [Once, filterMap_cons_some he] at h
      exact (nodup_cons.mp h).1 (mem_filterMap.mpr ⟨other, ho, hv⟩)
    have ht := h.sublist ((sublist_cons_self entry log).filterMap f)
    cases hfi with
    | head =>
      cases hse with
      | head => rfl
      | tail _ hse => exact absurd hs (hh hf second hse)
    | tail _ hfi =>
      cases hse with
      | head => exact absurd hf (hh hs first hfi)
      | tail _ hse => exact ih ht hfi hse

end Once

namespace Procedure

-- Every call of the procedure is allowed by the entries before it, whatever the
-- replies are, and so is its end.
def Follows (allowed : List (Entry reply κ χ ρ) → Entry reply κ χ ρ → Prop) :
    Procedure reply τ → (List (Entry reply κ χ ρ) → τ → Prop) → List (Entry reply κ χ ρ) → Prop
  | .finish result, Q, past => Q past result
  | .call o next, Q, past => ∀ x a, allowed past (.called o x a) ∧ (next a).Follows allowed Q (.called o x a :: past)

variable {allowed : List (Entry reply κ χ ρ) → Entry reply κ χ ρ → Prop}

lemma Follows.bind {p : Procedure reply τ} {next : τ → Procedure reply τ'}
    {Q : List (Entry reply κ χ ρ) → τ → Prop} {Q' : List (Entry reply κ χ ρ) → τ' → Prop}
    {past : List (Entry reply κ χ ρ)} (h : p.Follows allowed Q past)
    (hn : ∀ past r, Q past r → (next r).Follows allowed Q' past) : (p.bind next).Follows allowed Q' past := by
  induction p generalizing past with
  | finish result => exact hn _ _ h
  | call o rest ih => exact fun x a => ⟨(h x a).1, ih a (h x a).2⟩

end Procedure

namespace Service

variable (v : Service reply κ χ ρ σ)

def start (s : σ) : Pool reply κ χ ρ σ := ⟨s, fun _ => none, []⟩

def step (p : Pool reply κ χ ρ σ) : Move κ χ → Option (Pool reply κ χ ρ σ)
  | .begins i request =>
    if i ∈ p.log.map Prod.fst then none
    else some ⟨p.shared, Function.update p.running i (some (request, v.handler request)), (i, .began request) :: p.log⟩
  | .advances i x =>
    match p.running i with
    | none => none
    | some (request, .finish result) =>
      some ⟨p.shared, Function.update p.running i none, (i, .answered request result) :: p.log⟩
    | some (request, .call o next) =>
      some ⟨(v.perform o x p.shared).1,
        Function.update p.running i (some (request, next (v.perform o x p.shared).2)),
        (i, .called o x (v.perform o x p.shared).2) :: p.log⟩

def Admits (fair : Log reply κ χ ρ → ω → χ → Prop) (p : Pool reply κ χ ρ σ) : Move κ χ → Prop
  | .begins _ _ => True
  | .advances i x =>
    match p.running i with
    | some (_, .call o _) => fair p.log o x
    | _ => True

instance {fair : Log reply κ χ ρ → ω → χ → Prop} [∀ log o x, Decidable (fair log o x)] (p : Pool reply κ χ ρ σ) :
    (move : Move κ χ) → Decidable (Admits fair p move)
  | .begins _ _ => isTrue trivial
  | .advances i x =>
    match h : p.running i with
    | none => isTrue (by simp only [Admits, h])
    | some (_, .finish _) => isTrue (by simp only [Admits, h])
    | some (_, .call o _) => decidable_of_iff (fair p.log o x) (by simp only [Admits, h])

variable {v} {fair : Log reply κ χ ρ → ω → χ → Prop} {p p' : Pool reply κ χ ρ σ} {move : Move κ χ} {s : σ}

inductive Stepped (v : Service reply κ χ ρ σ) (fair : Log reply κ χ ρ → ω → χ → Prop) (p : Pool reply κ χ ρ σ) :
    Pool reply κ χ ρ σ → Prop
  | began (i : Nat) (request : κ) (hnew : i ∉ p.log.map Prod.fst) :
      Stepped v fair p
        ⟨p.shared, Function.update p.running i (some (request, v.handler request)), (i, .began request) :: p.log⟩
  | called (i : Nat) (x : χ) (request : κ) (o : ω) (next : reply o → Procedure reply ρ)
      (hrunning : p.running i = some (request, .call o next)) (hfair : fair p.log o x) :
      Stepped v fair p
        ⟨(v.perform o x p.shared).1, Function.update p.running i (some (request, next (v.perform o x p.shared).2)),
          (i, .called o x (v.perform o x p.shared).2) :: p.log⟩
  | answered (i : Nat) (request : κ) (result : ρ) (hrunning : p.running i = some (request, .finish result)) :
      Stepped v fair p ⟨p.shared, Function.update p.running i none, (i, .answered request result) :: p.log⟩

lemma step_stepped (ha : Admits fair p move) (hs : v.step p move = some p') : Stepped v fair p p' := by
  cases move with
  | begins i request =>
    rw [step] at hs
    split_ifs at hs with hn
    cases hs
    exact .began i request hn
  | advances i x =>
    rw [step] at hs
    rw [Admits] at ha
    rcases hr : p.running i with _ | task
    · rw [hr] at hs
      cases hs
    obtain ⟨request, proc⟩ := task
    rw [hr] at hs ha
    cases proc with
    | finish result =>
      cases hs
      exact .answered i request result hr
    | call o next =>
      cases hs
      exact .called i x request o next hr ha

-- A request with what it has done so far goes on to follow the rule and has not been answered.
structure InOrder (allowed : List (Entry reply κ χ ρ) → Entry reply κ χ ρ → Prop) (past : List (Entry reply κ χ ρ))
    (task : κ × Procedure reply ρ) : Prop where
  follows : task.2.Follows allowed (fun past result => allowed past (.answered task.1 result)) past
  unanswered : ∀ request result, .answered request result ∉ past

def Orderly (allowed : List (Entry reply κ χ ρ) → Entry reply κ χ ρ → Prop) (p : Pool reply κ χ ρ σ) : Prop :=
  ∀ i task, p.running i = some task → InOrder allowed (own i p.log) task

variable {allowed : List (Entry reply κ χ ρ) → Entry reply κ χ ρ → Prop}

lemma Orderly.update (ho : Orderly allowed p) {e : Entry reply κ χ ρ} {t : σ}
    {task : Option (κ × Procedure reply ρ)} (ht : ∀ t, task = some t → InOrder allowed (e :: own i p.log) t) :
    Orderly allowed ⟨t, Function.update p.running i task, (i, e) :: p.log⟩ := by
  intro j task' hj
  by_cases hji : j = i
  · subst hji
    rw [own_cons_self]
    exact ht task' (by simpa using hj)
  · rw [own_cons_of_ne (Ne.symm hji)]
    exact ho j task' (by simpa [Function.update_of_ne hji] using hj)

lemma Orderly.stepped (hhandlers : ∀ request, (v.handler request).Follows allowed
      (fun past result => allowed past (.answered request result)) [.began request])
    (ho : Orderly allowed p) (hs : Stepped v fair p p') : Orderly allowed p' := by
  cases hs with
  | began i request hn =>
    refine ho.update fun task ht => ?_
    cases ht
    rw [own_of_notMem hn]
    exact ⟨hhandlers request, by simp⟩
  | called i x request o next hr hf =>
    refine ho.update fun task ht => ?_
    cases ht
    have hb := ho i _ hr
    exact ⟨(hb.follows x _).2, by simpa using hb.unanswered⟩
  | answered i request result hr => exact ho.update fun task ht => by cases ht

lemma orderly (hhandlers : ∀ request, (v.handler request).Follows allowed
      (fun past result => allowed past (.answered request result)) [.began request])
    (hr : Reaches v.step (Admits fair) (start s) p) : Orderly allowed p :=
  hr.invariant (fun i task h => by cases h) fun _ _ _ ho ha hs =>
    ho.stepped hhandlers (step_stepped ha hs)

lemma Orderly.entry (hbegan : ∀ request, allowed [] (.began request)) (ho : Orderly allowed p)
    (hs : Stepped v fair p p') : ∃ i e, p'.log = (i, e) :: p.log ∧ allowed (own i p.log) e := by
  cases hs with
  | began i request hn => exact ⟨i, _, rfl, own_of_notMem hn ▸ hbegan request⟩
  | called i x request o next hr hf => exact ⟨i, _, rfl, ((ho i _ hr).follows x _).1⟩
  | answered i request result hr => exact ⟨i, _, rfl, (ho i _ hr).follows⟩

lemma reaches_entry (hr : Reaches v.step (Admits fair) (start s) p) {earlier : Log reply κ χ ρ}
    {entry : Nat × Entry reply κ χ ρ} (hlog : entry :: earlier <:+ p.log) :
    ∃ q q', Reaches v.step (Admits fair) (start s) q ∧ q.log = earlier ∧ Stepped v fair q q' ∧
      q'.log = entry :: earlier := by
  induction hr with
  | refl => simp [start] at hlog
  | @tail q q' move before ha hs ih =>
    have hst := step_stepped ha hs
    obtain ⟨e, he⟩ : ∃ e, q'.log = e :: q.log := by
      cases hst <;> exact ⟨_, rfl⟩
    rw [he, suffix_cons_iff] at hlog
    obtain hl | hb := hlog
    · obtain ⟨rfl, rfl⟩ := List.cons.inj hl
      exact ⟨q, q', before, rfl, hst, he⟩
    · exact ih hb

def Lawful (allowed : List (Entry reply κ χ ρ) → Entry reply κ χ ρ → Prop) (log : Log reply κ χ ρ) : Prop :=
  ∀ i e earlier, (i, e) :: earlier <:+ log → allowed (own i earlier) e

lemma suffix_of_mem {entry : Nat × Entry reply κ χ ρ} {log : Log reply κ χ ρ} (hm : entry ∈ log) :
    ∃ earlier, entry :: earlier <:+ log := by
  obtain ⟨later, earlier, rfl⟩ := append_of_mem hm
  exact ⟨earlier, suffix_append _ _⟩

lemma Lawful.of_mem {log : Log reply κ χ ρ} (h : Lawful allowed log) {e : Entry reply κ χ ρ}
    (hm : (i, e) ∈ log) : ∃ earlier, (i, e) :: earlier <:+ log ∧ allowed (own i earlier) e := by
  obtain ⟨earlier, hs⟩ := suffix_of_mem hm
  exact ⟨earlier, hs, h i e earlier hs⟩

lemma mem_of_mem_own {e : Entry reply κ χ ρ} {entry : Nat × Entry reply κ χ ρ}
    {earlier log : Log reply κ χ ρ} (hm : e ∈ own i earlier) (hs : entry :: earlier <:+ log) : (i, e) ∈ log :=
  hs.mem (mem_cons_of_mem _ (mem_own.mp hm))

section Rules

variable (hbegan : ∀ request, allowed [] (.began request))
  (hhandlers : ∀ request, (v.handler request).Follows allowed
    (fun past result => allowed past (.answered request result)) [.began request])

include hbegan hhandlers

lemma lawful (hr : Reaches v.step (Admits fair) (start s) p) : Lawful allowed p.log := by
  intro i e earlier hl
  obtain ⟨q, q', hq, rfl, hs, hq'⟩ := reaches_entry hr hl
  obtain ⟨j, e', hlog', ha⟩ := (orderly hhandlers hq).entry hbegan hs
  rw [hq', List.cons.injEq, Prod.mk.injEq] at hlog'
  obtain ⟨⟨rfl, rfl⟩, -⟩ := hlog'
  exact ha

lemma invariant {P : σ → Log reply κ χ ρ → Prop} (hs : P s [])
    (hb : ∀ t log i request, P t log → P t ((i, .began request) :: log))
    (hc : ∀ t log i o x, P t log → Lawful allowed log → fair log o x →
      allowed (own i log) (.called o x (v.perform o x t).2) →
      P (v.perform o x t).1 ((i, .called o x (v.perform o x t).2) :: log))
    (ha : ∀ t log i request result, P t log → Lawful allowed log →
      allowed (own i log) (.answered request result) → (∀ q r, .answered q r ∉ own i log) →
      P t ((i, .answered request result) :: log))
    (hr : Reaches v.step (Admits fair) (start s) p) : P p.shared p.log := by
  induction hr with
  | refl => exact hs
  | @tail q q' move before had hst ih =>
    have ho := orderly hhandlers before
    cases step_stepped had hst with
    | began i request hn => exact hb _ _ i request ih
    | called i x request o next hru hf =>
      exact hc _ _ i o x ih (lawful hbegan hhandlers before) hf ((ho i _ hru).follows x _).1
    | answered i request result hru =>
      exact ha _ _ i request result ih (lawful hbegan hhandlers before) (ho i _ hru).follows
        (ho i _ hru).unanswered

end Rules

lemma reply_performed {P : σ → Log reply κ χ ρ → Prop}
    (hP : ∀ q, Reaches v.step (Admits fair) (start s) q → P q.shared q.log)
    (hr : Reaches v.step (Admits fair) (start s) p) {earlier : Log reply κ χ ρ} {o : ω} {x : χ}
    {a : reply o} (hl : (i, .called o x a) :: earlier <:+ p.log) :
    ∃ t, P t earlier ∧ (v.perform o x t).2 = a := by
  obtain ⟨q, q', hq, rfl, hs, hq'⟩ := reaches_entry hr hl
  cases hs with
  | began i request hn | answered i request result hru => simp at hq'
  | called j y request o' next hru hf =>
    simp only [List.cons.injEq, Prod.mk.injEq, Entry.called.injEq, and_true] at hq'
    obtain ⟨rfl, rfl, rfl, ha⟩ := hq'
    exact ⟨q.shared, hP q hq, eq_of_heq ha⟩

end Service

end Maildancer

import Maildancer.Connfork

namespace Maildancer.Connfork

open Option List Semaphore

def Slot.holds (slot : Slot) : Bool := slot.phase ≠ .done

def Slot.tarpitted (slot : Slot) : Bool := slot.tarpit = .held

-- The complete histories: no handler, a denied peer, a handler.
def lifeCycles : List (List Mark) :=
  [[.acquired, .released], [.acquired, .denied, .released], [.acquired, .spawned, .connStart, .connEnd, .released]]

def Slot.Lawful (slot : Slot) : Prop :=
  match slot.phase with
  | .checking _ | .allowed | .failed => slot.calls = [.acquired] ∧ slot.alive = false ∧ slot.tarpit = .none
  | .denied => slot.calls = [.acquired, .denied] ∧ slot.alive = false
  | .started _ => slot.calls = [.acquired, .spawned] ∧ slot.tarpit = .none
  | .running _ | .drained => slot.calls = [.acquired, .spawned, .connStart] ∧ slot.tarpit = .none
  | .reaped => slot.calls = [.acquired, .spawned, .connStart, .connEnd] ∧ slot.alive = false ∧ slot.tarpit = .none
  | .done => slot.calls ∈ lifeCycles ∧ slot.alive = false

namespace Slot

variable {cfg : Config} {slot slot' : Slot} {action : SlotAction}

lemma Lawful.holds_of_alive (h : slot.Lawful) (ha : slot.alive = true) : slot.holds = true := by
  unfold Lawful at h
  refine decide_eq_true fun hd => ?_
  rw [hd] at h
  cases h.2.symm.trans ha

lemma Lawful.lifeCycle (h : slot.Lawful) :
    ∃ full ∈ lifeCycles, slot.calls <+: full ∧ (slot.phase = .done ↔ slot.calls = full) := by
  unfold Lawful at h
  cases hp : slot.phase with
  | checking | allowed | failed =>
    rw [hp] at h
    rw [h.1]
    exact ⟨[.acquired, .released], by decide, by decide, by simp⟩
  | denied =>
    rw [hp] at h
    rw [h.1]
    exact ⟨[.acquired, .denied, .released], by decide, by decide, by simp⟩
  | started | running | drained | reaped =>
    rw [hp] at h
    rw [h.1]
    exact ⟨[.acquired, .spawned, .connStart, .connEnd, .released], by decide, by decide, by simp⟩
  | done =>
    rw [hp] at h
    exact ⟨slot.calls, h.1, prefix_refl _, by simp⟩

lemma Lawful.exit (h : slot.Lawful) : ({ slot with alive := false } : Slot).Lawful := by
  unfold Lawful at h ⊢
  cases hp : slot.phase <;> rw [hp] at h <;> simp_all

lemma holds_of_ne (h : slot.phase ≠ .done) : slot.holds = true := decide_eq_true h

lemma next_keeps (h : slot.Lawful) (hn : slot.next cfg action = some slot') :
    slot'.Lawful ∧ slot.holds = true ∧ slot'.holds = true ∧ slot'.tarpitted = slot.tarpitted := by
  cases action with
  | gate answer =>
    rw [next] at hn
    split at hn
    · next clientIP hp =>
        rw [Lawful, hp] at h
        obtain ⟨hc, ha, ht⟩ := h
        have hh : slot.holds = true := holds_of_ne (by simp [hp])
        split at hn
        · cases hn
          refine ⟨⟨congrArg (· ++ [Mark.denied]) hc, ha⟩, hh, rfl, ?_⟩
          simp [tarpitted, ht]
        · cases hn
          exact ⟨⟨hc, ha, ht⟩, hh, rfl, rfl⟩
    · cases hn
  | fail =>
    rw [next, ite_none_right_eq_some] at hn
    obtain ⟨hp, hn⟩ := hn
    cases hn
    rw [Lawful, hp] at h
    exact ⟨h, holds_of_ne (by simp [hp]), rfl, rfl⟩
  | start pipe =>
    rw [next, ite_none_right_eq_some] at hn
    obtain ⟨⟨hp, -⟩, hn⟩ := hn
    cases hn
    rw [Lawful, hp] at h
    exact ⟨⟨congrArg (· ++ [Mark.spawned]) h.1, h.2.2⟩, holds_of_ne (by simp [hp]), rfl, rfl⟩
  | connStart =>
    rw [next] at hn
    split at hn
    · next pipe hp =>
        cases hn
        rw [Lawful, hp] at h
        exact ⟨⟨congrArg (· ++ [Mark.connStart]) h.1, h.2⟩, holds_of_ne (by simp [hp]), rfl, rfl⟩
    · cases hn
  | exit =>
    rw [next, ite_none_right_eq_some] at hn
    obtain ⟨ha, hn⟩ := hn
    cases hn
    exact ⟨h.exit, h.holds_of_alive ha, h.holds_of_alive ha, rfl⟩
  | drain atEnd =>
    rw [next, ite_none_right_eq_some] at hn
    obtain ⟨⟨hp, -⟩, hn⟩ := hn
    cases hn
    rw [Lawful, hp] at h
    exact ⟨h, holds_of_ne (by simp [hp]), rfl, rfl⟩
  | wait =>
    rw [next, ite_none_right_eq_some] at hn
    obtain ⟨⟨hp, ha⟩, hn⟩ := hn
    cases hn
    have hr : slot.calls = [.acquired, .spawned, .connStart] ∧ slot.tarpit = .none := by
      rw [Lawful] at h
      obtain hp | hp := hp <;> rwa [hp] at h
    have hh : slot.holds = true := by
      obtain hp | hp := hp <;> exact holds_of_ne (by simp [hp])
    exact ⟨⟨congrArg (· ++ [Mark.connEnd]) hr.1, ha, hr.2⟩, hh, rfl, rfl⟩

lemma release_keeps (h : slot.Lawful) (hr : slot.release = some slot') :
    slot'.Lawful ∧ slot.holds = true ∧ slot'.holds = false ∧ slot'.tarpitted = slot.tarpitted := by
  rw [release, ite_none_right_eq_some] at hr
  obtain ⟨hp, hr⟩ := hr
  cases hr
  have hc : slot.calls ++ [Mark.released] ∈ lifeCycles ∧ slot.alive = false := by
    rw [Lawful] at h
    obtain hp | hp | hp := hp <;> rw [hp] at h <;> rw [h.1]
    · exact ⟨by decide, h.2.1⟩
    · exact ⟨by decide, h.2⟩
    · exact ⟨by decide, h.2.1⟩
  have hh : slot.holds = true := by
    obtain hp | hp | hp := hp <;> exact holds_of_ne (by simp [hp])
  exact ⟨hc, hh, rfl, rfl⟩

lemma Lawful.setTarpit (h : slot.Lawful) (tarpit : Tarpit) (hpit : slot.tarpit ≠ .none) :
    ({ slot with tarpit := tarpit } : Slot).Lawful := by
  unfold Lawful at h ⊢
  cases hp : slot.phase <;> rw [hp] at h <;> simp_all

end Slot

def State.holders (s : State) : Nat := s.loops.countP (· = .accepting) + s.slots.countP Slot.holds

def State.tarpitted (s : State) : Nat := s.slots.countP Slot.tarpitted

structure Sound (cfg : Config) (s : State) : Prop where
  loops : s.loops.length = cfg.listeners
  lawful : ∀ slot ∈ s.slots, slot.Lawful
  tokens : Used cfg.tokens s.tokens s.holders
  tarpit : Used cfg.tarpitTokens s.tarpitTokens s.tarpitted

lemma sound_initial (cfg : Config) : Sound cfg (initial cfg) := by
  have hh : (initial cfg).holders = 0 := by
    refine Nat.add_eq_zero_iff.mpr ⟨countP_eq_zero.mpr fun loop hl => ?_, rfl⟩
    simp [eq_of_mem_replicate hl]
  refine ⟨length_replicate, fun slot hs => (by cases hs), fun limit _ => ?_, fun limit _ => ?_⟩
  · rw [hh]
    exact ⟨rfl, Nat.zero_le limit⟩
  · exact ⟨rfl, Nat.zero_le limit⟩

variable {old new : Slot}

section Changes

variable {s : State} {i n : Nat}

lemma holders_setLoop {old : Loop} (hold : s.loops[i]? = some old) (new : Loop) :
    (s.setLoop i new).holders + (decide (old = .accepting)).toNat =
      s.holders + (decide (new = .accepting)).toNat := by
  have hc := countP_replace (p := fun loop => decide (loop = Loop.accepting)) hold new
  simp only [State.holders, State.setLoop] at hc ⊢
  omega

lemma holders_setSlot (hold : s.slots[n]? = some old) (new : Slot) :
    (s.setSlot n new).holders + old.holds.toNat = s.holders + new.holds.toNat := by
  have hc := countP_replace (p := Slot.holds) hold new
  simp only [State.holders, State.setSlot] at hc ⊢
  omega

lemma tarpitted_setSlot (hold : s.slots[n]? = some old) (new : Slot) :
    (s.setSlot n new).tarpitted + old.tarpitted.toNat = s.tarpitted + new.tarpitted.toNat :=
  countP_replace hold new

lemma holders_addSlot (s : State) (phase : Phase) (calls : List Mark) :
    (s.addSlot phase calls).holders = s.holders + (decide (phase ≠ .done)).toNat := by
  have ho : [(⟨phase, false, .none, calls⟩ : Slot)].countP Slot.holds = (decide (phase ≠ .done)).toNat := by
    by_cases hd : phase = .done <;> simp [Slot.holds, hd]
  rw [State.holders, State.addSlot, countP_append, ho, ← Nat.add_assoc]
  rfl

lemma tarpitted_addSlot (s : State) (phase : Phase) (calls : List Mark) :
    (s.addSlot phase calls).tarpitted = s.tarpitted := by
  rw [State.tarpitted, State.addSlot, countP_append]
  rfl

lemma lawful_setSlot (h : ∀ slot ∈ s.slots, slot.Lawful) (hn : new.Lawful) :
    ∀ slot ∈ (s.setSlot n new).slots, slot.Lawful := by
  intro slot hs
  obtain hm | rfl := mem_or_eq_of_mem_set hs
  · exact h slot hm
  · exact hn

lemma lawful_addSlot {phase : Phase} {calls : List Mark} (h : ∀ slot ∈ s.slots, slot.Lawful)
    (hn : (⟨phase, false, .none, calls⟩ : Slot).Lawful) : ∀ slot ∈ (s.addSlot phase calls).slots, slot.Lawful := by
  intro slot hs
  obtain hm | hm := mem_append.mp hs
  · exact h slot hm
  · rwa [mem_singleton.mp hm]

end Changes

section Steps

variable {cfg : Config} {s t : State}

lemma Sound.replace (h : Sound cfg s) {n : Nat} (hold : s.slots[n]? = some old)
    (hl : new.Lawful) (hh : new.holds = old.holds) (hp : new.tarpitted = old.tarpitted) :
    Sound cfg (s.setSlot n new) := by
  have hho := holders_setSlot hold new
  have ht := tarpitted_setSlot hold new
  rw [hh, Nat.add_right_cancel_iff] at hho
  rw [hp, Nat.add_right_cancel_iff] at ht
  exact ⟨h.loops, lawful_setSlot h.lawful hl, hho ▸ h.tokens, ht ▸ h.tarpit⟩

lemma Sound.enterTarpit (h : Sound cfg s) {n : Nat} {slot : Slot} {hold : Int} (hs : s.slots[n]? = some slot)
    (he : slot.tarpit = .entering hold) : Sound cfg (s.enterTarpit cfg n slot hold) := by
  have hl : ∀ tarpit, ({ slot with tarpit := tarpit } : Slot).Lawful := fun tarpit =>
    (h.lawful slot (mem_of_getElem? hs)).setTarpit tarpit (by simp [he])
  have ho : slot.tarpitted = false := by simp [Slot.tarpitted, he]
  have hc : Sound cfg (s.setSlot n { slot with tarpit := .closed }) := h.replace hs (hl _) rfl ho.symm
  unfold State.enterTarpit
  split
  · exact hc
  split
  · exact hc
  next used ht =>
    have hta := tarpitted_setSlot hs { slot with tarpit := .held }
    have hh := holders_setSlot hs { slot with tarpit := .held }
    rw [ho, Bool.toNat_false, Nat.add_zero] at hta
    rw [show ({ slot with tarpit := .held } : Slot).holds = slot.holds from rfl, Nat.add_right_cancel_iff]
      at hh
    refine ⟨h.loops, lawful_setSlot h.lawful (hl _), ?_, ?_⟩
    · exact hh ▸ h.tokens
    · exact hta ▸ h.tarpit.take ht

lemma Sound.step (h : Sound cfg s) {action : Action} (hs : step cfg s action = some t) : Sound cfg t := by
  cases action with
  | cancel =>
    cases hs
    exact ⟨h.loops, h.lawful, h.tokens, h.tarpit⟩
  | acquire i =>
    rw [Connfork.step, ite_none_right_eq_some] at hs
    obtain ⟨hl, hs⟩ := hs
    obtain ⟨used, ht, rfl⟩ := map_eq_some_iff.mp hs
    have hh : (s.setLoop i .accepting).holders = s.holders + 1 := holders_setLoop hl .accepting
    exact ⟨length_set.trans h.loops, h.lawful, hh ▸ h.tokens.take ht, h.tarpit⟩
  | giveUp i =>
    rw [Connfork.step, ite_none_right_eq_some] at hs
    obtain ⟨⟨hl, -⟩, hs⟩ := hs
    cases hs
    have hh : (s.setLoop i .returned).holders = s.holders := holders_setLoop hl .returned
    exact ⟨length_set.trans h.loops, h.lawful, hh ▸ h.tokens, h.tarpit⟩
  | accept i clientIP =>
    rw [Connfork.step, ite_none_right_eq_some] at hs
    obtain ⟨hl, hs⟩ := hs
    cases hs
    have hlo : (s.setLoop i .acquiring).holders + 1 = s.holders := holders_setLoop hl .acquiring
    have hh := holders_addSlot (s.setLoop i .acquiring) (.checking clientIP) [.acquired]
    rw [decide_eq_true (by simp), Bool.toNat_true, hlo] at hh
    refine ⟨length_set.trans h.loops, lawful_addSlot h.lawful ⟨rfl, rfl, rfl⟩, hh ▸ h.tokens, ?_⟩
    rw [tarpitted_addSlot]
    exact h.tarpit
  | acceptError i =>
    rw [Connfork.step, ite_none_right_eq_some] at hs
    obtain ⟨hl, hs⟩ := hs
    obtain ⟨used, hg, rfl⟩ := map_eq_some_iff.mp hs
    have hlo : (s.setLoop i .returned).holders + 1 = s.holders := holders_setLoop hl .returned
    have hto := h.tokens
    rw [← hlo] at hto
    refine ⟨length_set.trans h.loops, lawful_addSlot h.lawful ⟨by decide, rfl⟩, ?_, ?_⟩
    · rw [holders_addSlot]
      exact hto.giveBack hg
    · rw [tarpitted_addSlot]
      exact h.tarpit
  | own n action =>
    obtain ⟨slot, hsl, hs⟩ := bind_eq_some_iff.mp hs
    obtain ⟨new, hn, rfl⟩ := map_eq_some_iff.mp hs
    obtain ⟨hla, hold, hnew, hp⟩ := Slot.next_keeps (h.lawful slot (mem_of_getElem? hsl)) hn
    exact h.replace hsl hla (hnew.trans hold.symm) hp
  | release n =>
    obtain ⟨slot, hsl, hs⟩ := bind_eq_some_iff.mp hs
    obtain ⟨new, hr, hs⟩ := bind_eq_some_iff.mp hs
    obtain ⟨used, hg, rfl⟩ := map_eq_some_iff.mp hs
    obtain ⟨hla, hold, hnew, hp⟩ :=
      Slot.release_keeps (h.lawful slot (mem_of_getElem? hsl)) hr
    have hh := holders_setSlot hsl new
    have hta := tarpitted_setSlot hsl new
    rw [hold, hnew] at hh
    rw [hp, Nat.add_right_cancel_iff] at hta
    have hto := h.tokens
    rw [show s.holders = (s.setSlot n new).holders + 1 from hh.symm] at hto
    exact ⟨h.loops, lawful_setSlot h.lawful hla, hto.giveBack hg, hta ▸ h.tarpit⟩
  | tarpit n =>
    obtain ⟨slot, hsl, hs⟩ := bind_eq_some_iff.mp hs
    split at hs
    · next hold he =>
        cases hs
        exact h.enterTarpit hsl he
    · cases hs
  | untarpit n =>
    obtain ⟨slot, hsl, hs⟩ := bind_eq_some_iff.mp hs
    rw [ite_none_right_eq_some] at hs
    obtain ⟨hhe, hs⟩ := hs
    obtain ⟨used, hg, rfl⟩ := map_eq_some_iff.mp hs
    have hla := (h.lawful slot (mem_of_getElem? hsl)).setTarpit .closed (by simp [hhe])
    have hta := tarpitted_setSlot hsl { slot with tarpit := .closed }
    have hh := holders_setSlot hsl { slot with tarpit := .closed }
    rw [show slot.tarpitted = true from decide_eq_true hhe, Bool.toNat_true] at hta
    rw [show ({ slot with tarpit := .closed } : Slot).holds = slot.holds from rfl, Nat.add_right_cancel_iff]
      at hh
    have htr := h.tarpit
    rw [show s.tarpitted = (s.setSlot n { slot with tarpit := .closed }).tarpitted + 1 from hta.symm]
      at htr
    exact ⟨h.loops, lawful_setSlot h.lawful hla, hh ▸ h.tokens, htr.giveBack hg⟩

variable {ok : State → Action → Prop}

lemma Sound.reaches (hr : Reaches (Connfork.step cfg) ok (initial cfg) s) :
    Sound cfg s :=
  hr.invariant (sound_initial cfg) fun _ _ _ h _ hs => h.step hs

def Phase.rank : Phase → Nat
  | .checking _ => 6
  | .allowed => 5
  | .started _ => 4
  | .running _ => 3
  | .drained => 2
  | .failed | .denied | .reaped => 1
  | .done => 0

def Action.about (n : Nat) : Action → Prop
  | .own m _ => m = n
  | .release m => m = n
  | _ => False

lemma exists_next {slot : Slot} (ha : slot.alive = false) (hr : 1 < slot.phase.rank) :
    ∃ action new, slot.next cfg action = some new ∧ new.alive = false ∧ new.phase.rank < slot.phase.rank := by
  cases hp : slot.phase with
  | checking clientIP =>
    rcases hg : gateVerdict cfg clientIP none with ⟨verdict, denied⟩
    rcases denied with _ | _
    · refine ⟨.gate none, { slot with phase := .allowed }, ?_, ha, (by decide : 5 < 6)⟩
      simp [Slot.next, hp, hg]
    refine ⟨.gate none, { slot with
      phase := .denied, tarpit := .entering verdict.tarpit, calls := slot.calls ++ [.denied] }, ?_, ha,
      (by decide : 1 < 6)⟩
    simp [Slot.next, hp, hg]
  | allowed => exact ⟨.fail, _, if_pos hp, ha, (by decide : 1 < 5)⟩
  | started pipe =>
    refine ⟨.connStart, { slot with phase := .running pipe, calls := slot.calls ++ [.connStart] }, ?_, ha,
      (by decide : 3 < 4)⟩
    simp [Slot.next, hp]
  | running pipe =>
    cases pipe with
    | true => exact ⟨.drain true, _, if_pos ⟨hp, fun _ => ha⟩, ha, (by decide : 2 < 3)⟩
    | false => exact ⟨.wait, _, if_pos ⟨Or.inl hp, ha⟩, ha, (by decide : 1 < 3)⟩
  | drained => exact ⟨.wait, _, if_pos ⟨Or.inr hp, ha⟩, ha, (by decide : 1 < 2)⟩
  | failed | denied | reaped | done =>
    rw [hp] at hr
    exact absurd hr (by decide)

lemma Sound.exists_release (h : Sound cfg s) {n : Nat} {slot : Slot} (hs : s.slots[n]? = some slot)
    (hr : slot.phase.rank = 1) :
    ∃ t new, Connfork.step cfg s (.release n) = some t ∧ t.slots[n]? = some new ∧ new.phase = .done := by
  have hp : slot.phase = .failed ∨ slot.phase = .denied ∨ slot.phase = .reaped := by
    cases hp : slot.phase <;> rw [hp] at hr <;> simp_all [Phase.rank]
  obtain ⟨new, hre⟩ : ∃ new, slot.release = some new := ⟨_, if_pos hp⟩
  obtain ⟨-, hold, hn, -⟩ := Slot.release_keeps (h.lawful slot (mem_of_getElem? hs)) hre
  have hh := holders_setSlot hs new
  rw [hold, hn] at hh
  have ht := h.tokens
  rw [show s.holders = (s.setSlot n new).holders + 1 from hh.symm] at ht
  obtain ⟨used, hg⟩ := ht.exists_giveBack
  refine ⟨{ s with tokens := used }.setSlot n new, new, ?_,
    List.getElem?_set_self (List.getElem?_eq_some_iff.mp hs).1, not_not.mp (of_decide_eq_false hn)⟩
  rw [Connfork.step, hs, bind_some, hre, bind_some, hg, map_some]

lemma Sound.finishes {n rank : Nat} (h : Sound cfg s) {slot : Slot} (hs : s.slots[n]? = some slot)
    (ha : slot.alive = false) (hr : slot.phase.rank = rank) :
    ∃ t new, Reaches (Connfork.step cfg) (fun _ action => action.about n) s t ∧ t.slots[n]? = some new ∧
      new.phase = .done := by
  induction rank using Nat.strong_induction_on generalizing s slot with
  | _ rank ih =>
    obtain hd | ho | hm : rank = 0 ∨ rank = 1 ∨ 1 < rank := by omega
    · refine ⟨s, slot, .refl, hs, ?_⟩
      cases hp : slot.phase <;> rw [hp] at hr <;> simp_all [Phase.rank]
    · obtain ⟨t, new, hst, hnew, hd⟩ := h.exists_release hs (hr.trans ho)
      exact ⟨t, new, .tail (.release n) .refl rfl hst, hnew, hd⟩
    obtain ⟨action, new, hn, hal, hl⟩ : ∃ action new, slot.next cfg action = some new ∧ _ :=
      exists_next ha (hr ▸ hm)
    have hst : Connfork.step cfg s (.own n action) = some (s.setSlot n new) := by
      rw [Connfork.step, hs, bind_some, hn, map_some]
    obtain ⟨t, last, hre, hla, hd⟩ := ih _ (hr ▸ hl) (h.step hst)
      (List.getElem?_set_self (List.getElem?_eq_some_iff.mp hs).1) hal rfl
    have hf : Reaches (Connfork.step cfg) (fun _ action => action.about n) s (s.setSlot n new) :=
      .tail (.own n action) .refl rfl hst
    exact ⟨t, last, hf.trans hre, hla, hd⟩

lemma step_loops {action : Action} (hs : step cfg s action = some t) :
    (t.cancelled = false → s.cancelled = false) ∧
      (t.loops = s.loops ∨ ∃ i new, t.loops = s.loops.set i new ∧ s.loops[i]? ≠ some .returned ∧
        (new = .returned → t.cancelled = true ∨ action = .acceptError i)) := by
  cases action with
  | cancel =>
    cases hs
    exact ⟨fun h => (by cases h), Or.inl rfl⟩
  | acquire i =>
    rw [step, ite_none_right_eq_some] at hs
    obtain ⟨hl, hs⟩ := hs
    obtain ⟨used, -, rfl⟩ := map_eq_some_iff.mp hs
    exact ⟨id, Or.inr ⟨i, .accepting, rfl, by simp [hl], fun h => (by cases h)⟩⟩
  | giveUp i =>
    rw [step, ite_none_right_eq_some] at hs
    obtain ⟨⟨hl, hc⟩, hs⟩ := hs
    cases hs
    exact ⟨id, Or.inr ⟨i, .returned, rfl, by simp [hl], fun _ => Or.inl hc⟩⟩
  | accept i clientIP =>
    rw [step, ite_none_right_eq_some] at hs
    obtain ⟨hl, hs⟩ := hs
    cases hs
    exact ⟨id, Or.inr ⟨i, .acquiring, rfl, by simp [hl], fun h => (by cases h)⟩⟩
  | acceptError i =>
    rw [step, ite_none_right_eq_some] at hs
    obtain ⟨hl, hs⟩ := hs
    obtain ⟨used, -, rfl⟩ := map_eq_some_iff.mp hs
    exact ⟨id, Or.inr ⟨i, .returned, rfl, by simp [hl], fun _ => Or.inr rfl⟩⟩
  | own n action =>
    obtain ⟨slot, -, hs⟩ := bind_eq_some_iff.mp hs
    obtain ⟨new, -, rfl⟩ := map_eq_some_iff.mp hs
    exact ⟨id, Or.inl rfl⟩
  | release n =>
    obtain ⟨slot, -, hs⟩ := bind_eq_some_iff.mp hs
    obtain ⟨new, -, hs⟩ := bind_eq_some_iff.mp hs
    obtain ⟨used, -, rfl⟩ := map_eq_some_iff.mp hs
    exact ⟨id, Or.inl rfl⟩
  | tarpit n =>
    obtain ⟨slot, -, hs⟩ := bind_eq_some_iff.mp hs
    split at hs
    · cases hs
      unfold State.enterTarpit
      split
      · exact ⟨id, Or.inl rfl⟩
      · split <;> exact ⟨id, Or.inl rfl⟩
    · cases hs
  | untarpit n =>
    obtain ⟨slot, -, hs⟩ := bind_eq_some_iff.mp hs
    rw [ite_none_right_eq_some] at hs
    obtain ⟨used, -, rfl⟩ := map_eq_some_iff.mp hs.2
    exact ⟨id, Or.inl rfl⟩

lemma returned_stays (hr : Reaches (step cfg) ok s t) {i : Nat}
    (h : s.loops[i]? = some .returned) : t.loops[i]? = some .returned := by
  refine hr.invariant (P := fun t => t.loops[i]? = some .returned) h fun s action t hs _ hst => ?_
  obtain ⟨-, hsa | ⟨j, new, hset, hold, -⟩⟩ := step_loops hst
  · rw [hsa]
    exact hs
  · have hne : j ≠ i := fun heq => hold (heq ▸ hs)
    rw [hset, List.getElem?_set_ne hne]
    exact hs

-- Accept fails only after the context has ended.
def Undisturbed (s : State) (action : Action) : Prop := s.cancelled = false → ∀ i, action ≠ .acceptError i

lemma no_loop_returned (hr : Reaches (step cfg) Undisturbed (initial cfg) s) (ha : s.cancelled = false) :
    .returned ∉ s.loops := by
  refine hr.invariant (P := fun s => s.cancelled = false → .returned ∉ s.loops) ?_ ?_ ha
  · intro _ hm
    cases eq_of_mem_replicate hm
  intro s action t hs hok hst ha hm
  obtain ⟨hc, hsa | ⟨i, new, hset, -, hn⟩⟩ := step_loops hst
  · rw [hsa] at hm
    exact hs (hc ha) hm
  rw [hset] at hm
  obtain hm | rfl := mem_or_eq_of_mem_set hm
  · exact hs (hc ha) hm
  · obtain he | her := hn rfl
    · cases ha.symm.trans he
    · exact hok (hc ha) i her

def State.Accepts (cfg : Config) (s : State) (i : Nat) : Prop :=
  s.loops[i]? = some .accepting ∨
    ∃ t, step cfg s (.acquire i) = some t ∧ t.loops[i]? = some .accepting

def State.Idle (s : State) : Prop := ∀ slot ∈ s.slots, slot.phase = .done

instance (s : State) : Decidable s.Idle := inferInstanceAs (Decidable (∀ slot ∈ s.slots, slot.phase = .done))

lemma State.Idle.holders (h : s.Idle) : s.holders = s.loops.countP (· = .accepting) := by
  have hn : s.slots.countP Slot.holds = 0 :=
    countP_eq_zero.mpr fun slot hs => by simp [Slot.holds, h slot hs]
  rw [State.holders, hn, Nat.add_zero]

lemma Sound.accepts (h : Sound cfg s) (hil : s.Idle) (ho : .returned ∉ s.loops)
    (hr : ∀ limit, cfg.tokens = some limit → cfg.listeners ≤ limit) {i : Nat} (hi : i < cfg.listeners) :
    s.Accepts cfg i := by
  obtain ⟨loop, hl⟩ : ∃ loop, s.loops[i]? = some loop :=
    ⟨_, List.getElem?_eq_getElem (h.loops ▸ hi)⟩
  cases loop with
  | accepting => exact Or.inl hl
  | returned => exact absurd (mem_of_getElem? hl) ho
  | acquiring =>
    -- this loop has no slot, so that fewer are taken than there are listeners
    have hf : s.holders < cfg.listeners := by
      rw [hil.holders, ← h.loops]
      refine lt_of_le_of_ne countP_le_length fun ha => ?_
      exact absurd (countP_eq_length.mp ha .acquiring (mem_of_getElem? hl)) (by decide)
    obtain ⟨used, ht⟩ := h.tokens.exists_take fun limit hli => hf.trans_le (hr limit hli)
    refine Or.inr ⟨{ s with tokens := used }.setLoop i .accepting, ?_, ?_⟩
    · rw [Connfork.step, if_pos hl, ht, map_some]
    · exact List.getElem?_set_self (List.getElem?_eq_some_iff.mp hl).1

end Steps

-- Over every run handlers are limited, and every slot has a beginning of one of three histories and is given
-- back at its end. Without accept errors, and with no more listeners than slots, every listener accepts when
-- all connections are over.
theorem capacity_kept (cfg : Config) {s : State} (hrun : Reaches (step cfg) (fun _ _ => True) (initial cfg) s) :
    (∀ limit, cfg.tokens = some limit → s.slots.countP (·.alive) ≤ limit) ∧
    (∀ slot ∈ s.slots, ∃ full ∈ lifeCycles, slot.calls <+: full ∧ (slot.phase = .done ↔ slot.calls = full)) ∧
    (∀ limit, cfg.tokens = some limit → s.tokens = s.holders ∧ (s.Idle → s.tokens = s.loops.countP (· = .accepting))) ∧
    (∀ n slot, s.slots[n]? = some slot → slot.alive = false → ∃ t new,
      Reaches (step cfg) (fun _ action => action.about n) s t ∧ t.slots[n]? = some new ∧ new.phase = .done) ∧
    (Reaches (step cfg) Undisturbed (initial cfg) s → (∀ limit, cfg.tokens = some limit → cfg.listeners ≤ limit) →
      s.cancelled = false → s.Idle → ∀ i < cfg.listeners, s.Accepts cfg i) := by
  have hs := Sound.reaches hrun
  refine ⟨fun limit hl => ?_, fun slot hsl => (hs.lawful slot hsl).lifeCycle, fun limit hl => ?_,
    fun n slot hsl ha => hs.finishes hsl ha rfl, fun hu hr hac hil i hi => ?_⟩
  · have ha := countP_mono_left fun slot hsl => (hs.lawful slot hsl).holds_of_alive
    exact (ha.trans (Nat.le_add_left _ _)).trans (hs.tokens limit hl).2
  · have ht := (hs.tokens limit hl).1
    exact ⟨ht, fun hil => ht.trans hil.holders⟩
  · exact hs.accepts hil (no_loop_returned hu hac) hr hi

section Sample

def smtpd (listeners : Nat) (maxConns : Int) : Config := ⟨listeners, maxConns, 0, true, false, true⟩

def session : List Action :=
  [.acquire 0, .accept 0 (Text.ascii "192.0.2.1"), .own 0 (.gate none), .own 0 (.start true), .own 0 .connStart,
    .own 0 .exit, .own 0 (.drain true), .own 0 .wait, .release 0]

def served : State :=
  ⟨false, [.acquiring, .acquiring], [⟨.done, false, .none, [.acquired, .spawned, .connStart, .connEnd, .released]⟩],
    0, 0⟩

lemma session_served : runSteps (step (smtpd 2 2)) (initial (smtpd 2 2)) session = some served := by decide +kernel

theorem capacity_kept_served : served.tokens = 0 ∧ served.Accepts (smtpd 2 2) 1 := by
  have hi : served.Idle := by decide
  obtain ⟨-, -, ht, -, ha⟩ :=
    capacity_kept _ (.of_runSteps (fun _ _ _ => trivial) session_served)
  refine ⟨(ht 2 (by decide)).2 hi, ha (.of_runSteps ?_ session_served) ?_ rfl hi 1 (by decide)⟩
  · intro s action hac _ i he
    subst he
    simp [session] at hac
  · intro limit hl
    cases hl
    decide

-- After an error of Accept the listener is gone for good, and with more listeners
-- than slots one of them waits for a slot that another keeps while it is idle.
theorem listener_lost :
    (∃ s, Reaches (step (smtpd 1 10)) (fun _ _ => True) (initial (smtpd 1 10)) s ∧ s.cancelled = false ∧ s.Idle ∧
      ∀ t, Reaches (step (smtpd 1 10)) (fun _ _ => True) s t → ¬ t.Accepts (smtpd 1 10) 0) ∧
    ∃ s, Reaches (step (smtpd 2 1)) Undisturbed (initial (smtpd 2 1)) s ∧ s.cancelled = false ∧ s.Idle ∧
      (smtpd 2 1).tokens = some 1 ∧ s.tokens = 1 ∧ ¬ s.Accepts (smtpd 2 1) 1 := by
  constructor
  · have hr : runSteps (step (smtpd 1 10)) (initial (smtpd 1 10)) [.acquire 0, .acceptError 0] =
        some ⟨false, [.returned], [⟨.done, false, .none, [.acquired, .released]⟩], 0, 0⟩ := by decide +kernel
    refine ⟨_, .of_runSteps (fun _ _ _ => trivial) hr, rfl, by decide, fun t hl ha => ?_⟩
    have hre : t.loops[0]? = some .returned := returned_stays hl rfl
    obtain hlo | ⟨_, hs, -⟩ := ha
    · cases hre.symm.trans hlo
    · rw [step, if_neg (by simp [hre])] at hs
      cases hs
  · have hr : runSteps (step (smtpd 2 1)) (initial (smtpd 2 1)) [.acquire 0] =
        some ⟨false, [.accepting, .acquiring], [], 1, 0⟩ := by decide +kernel
    refine ⟨_, .of_runSteps ?_ hr, rfl, by decide, by decide, rfl, ?_⟩
    · intro s action hac _ i he
      subst he
      simp at hac
    · rintro (hlo | ⟨t, hs, -⟩)
      · cases hlo
      · cases hs

end Sample

end Maildancer.Connfork

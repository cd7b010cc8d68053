import Maildancer.Identity
import Maildancer.Ledger
import Maildancer.Text.Lines
import Maildancer.Transition

namespace Maildancer.Identity

open Function Text

variable {File : Type}

variable {q next bound : Nat}

namespace State

variable (s : State File) (p : Nat) (phase : Phase File)

@[simp] lemma enter_maps : (s.enter p phase).maps = s.maps := rfl

@[simp] lemma enter_procs_self : (s.enter p phase).procs p = phase := update_self ..

lemma enter_procs_of_ne (hq : q ≠ p) : (s.enter p phase).procs q = s.procs q :=
  update_of_ne hq ..

lemma enter_enter (first : Phase File) : (s.enter p first).enter p phase = s.enter p phase := by
  simp [enter]

@[simp] lemma release_maps : (s.release p).maps = s.maps := rfl

@[simp] lemma release_procs : (s.release p).procs = s.procs := rfl

lemma release_enter : (s.enter p phase).release p = (s.release p).enter p phase := rfl

lemma release_mapLock (hq : q ≠ p) {file : File} (h : s.mapLock file = some q) :
    (s.release p).mapLock file = some q := by
  have hne : s.mapLock file ≠ some p := by
    rw [h]
    simpa using hq
  exact (if_neg hne).trans h

lemma release_counterLock (hq : q ≠ p) (h : s.counterLock = some q) :
    (s.release p).counterLock = some q := by
  have hne : s.counterLock ≠ some p := by
    rw [h]
    simpa using hq
  exact (if_neg hne).trans h

end State

-- The id that a call has drawn and not yet recorded.
def Phase.pending : Phase File → Option Nat
  | .numbered _ _ _ next => some next
  | .prepared (.allocate _ key) new => new key
  | _ => none

-- The counter file is empty or half written.
def Phase.Rewriting : Phase File → Prop
  | .truncated _ _ _ _ => True
  | .seeked _ _ _ _ => True
  | _ => False

instance : (phase : Phase File) → Decidable phase.Rewriting
  | .truncated _ _ _ _ | .seeked _ _ _ _ => isTrue trivial
  | .idle | .returned _ | .waiting _ | .locked _ | .loaded _ _ | .counting _ _ _ | .counted _ _ _ _
  | .numbered _ _ _ _ | .prepared _ _ => isFalse id

-- The counter is read, and what begins to rewrite it ends.
def Undisturbed (s : State File) (a : Nat × Event File) : Prop :=
  match a.2 with
  | .readCounter succeeds => succeeds = true
  | .writePart _ => False
  | .fail => ¬ (s.procs a.1).Rewriting
  | .crash => ¬ (s.procs a.1).Rewriting
  | _ => True

instance (s : State File) : (a : Nat × Event File) → Decidable (Undisturbed s a)
  | (_, .readCounter succeeds) => inferInstanceAs (Decidable (succeeds = true))
  | (_, .writePart _) => isFalse id
  | (p, .fail) => inferInstanceAs (Decidable (¬ (s.procs p).Rewriting))
  | (p, .crash) => inferInstanceAs (Decidable (¬ (s.procs p).Rewriting))
  | (_, .call _) | (_, .lockMap) | (_, .loadMap) | (_, .lockCounter) | (_, .truncate) | (_, .seek)
  | (_, .write) | (_, .writeTmp) | (_, .rename) => isTrue trivial

def issues (a : Nat × Event File) : Bool :=
  match a.2 with
  | .write => true
  | _ => false

def Recorded (s : State File) (id : Nat) : Prop := ∃ file key, s.maps file key = some id

def CounterHolds (text : Bytes) (next : Nat) : Prop :=
  (text = [] ∧ next = allocatorFloor) ∨ text = decimal next ++ [newline]

lemma le_skipBand (next : Nat) : next ≤ skipBand next := by
  unfold skipBand
  split
  · omega
  · exact le_rfl

lemma allocatable_skipBand (h : allocatorFloor ≤ next) : Allocatable (skipBand next) := by
  unfold skipBand
  by_cases hb : excludedBandLow ≤ next ∧ next ≤ excludedBandHigh
  · rw [if_pos hb]
    exact ⟨by decide, .inr (Nat.lt_succ_self _)⟩
  · rw [if_neg hb]
    exact ⟨h, by omega⟩

lemma trimSpace_decimal (n : Nat) : trimSpace (decimal n ++ [newline]) = decimal n := by
  apply trimSpace_line
  intro b hb
  have hd := decimal_isDigit n b hb
  simp only [isDigit, decide_eq_true_eq] at hd
  simp only [Graphic, UInt8.le_iff_toNat_le] at *
  exact ⟨le_trans (by decide) hd.1, le_trans hd.2 (by decide)⟩

lemma parseCounter_of_holds {text : Bytes} (h : CounterHolds text next) (hn : next < 2 ^ 32) :
    parseCounter (text.take 32) = some (skipBand next) := by
  obtain ⟨rfl, rfl⟩ | rfl := h
  · decide
  have hl : (decimal next ++ [newline]).length ≤ 32 := by
    have := decimal_length_le next 10 (by omega) (by omega)
    simp only [List.length_append, List.length_singleton]
    omega
  rw [List.take_of_length_le hl]
  simp only [parseCounter, trimSpace_decimal, decimal_ne_nil, ite_false, parseUint_decimal 32 next hn]
  rfl

lemma counterHolds_counterText (h : next + 1 < 2 ^ 32) : CounterHolds (counterText next) (next + 1) := by
  right
  rw [counterText, Nat.mod_eq_of_lt h]

def Fits (s : State File) (next p : Nat) : Phase File → Prop
  | .locked c => s.mapLock c.file = some p
  | .loaded c cur => s.mapLock c.file = some p ∧ cur = s.maps c.file
  | .counting file _ cur =>
    s.mapLock file = some p ∧ cur = s.maps file ∧ s.counterLock = some p ∧ CounterHolds s.counter next
  | .counted file _ cur n =>
    s.mapLock file = some p ∧ cur = s.maps file ∧ s.counterLock = some p ∧ n = skipBand next
  | .truncated file _ cur n =>
    s.mapLock file = some p ∧ cur = s.maps file ∧ s.counterLock = some p ∧ n = skipBand next
  | .seeked file _ cur n =>
    s.mapLock file = some p ∧ cur = s.maps file ∧ s.counterLock = some p ∧ n = skipBand next
  | .numbered file _ cur _ => s.mapLock file = some p ∧ cur = s.maps file
  | .prepared c new =>
    s.mapLock c.file = some p ∧
      new = Function.update (s.maps c.file) c.key (Phase.prepared c new).pending
  | _ => True

lemma Fits.frame {s t : State File} {next' : Nat} {phase : Phase File} (h : Fits s next q phase)
    (hm : ∀ file, s.mapLock file = some q → t.mapLock file = some q ∧ t.maps file = s.maps file)
    (hc : s.counterLock = some q → t.counterLock = some q ∧ t.counter = s.counter ∧ next' = next) :
    Fits t next' q phase := by
  cases phase with
  | idle | returned answer | waiting c => trivial
  | locked c => exact (hm _ h).1
  | loaded c cur | numbered file key cur n | prepared c new =>
    exact ⟨(hm _ h.1).1, by rw [(hm _ h.1).2]; exact h.2⟩
  | counting file key cur =>
    obtain ⟨hl, hcur, hh, ht⟩ := h
    obtain ⟨hhe, hte, rfl⟩ := hc hh
    exact ⟨(hm _ hl).1, by rw [(hm _ hl).2]; exact hcur, hhe, by rw [hte]; exact ht⟩
  | counted file key cur n | truncated file key cur n | seeked file key cur n =>
    obtain ⟨hl, hcur, hh, hn⟩ := h
    obtain ⟨hhe, -, rfl⟩ := hc hh
    exact ⟨(hm _ hl).1, by rw [(hm _ hl).2]; exact hcur, hhe, hn⟩

abbrev Holder (File : Type) := (File × Bytes) ⊕ Nat

-- The maps and the drawn ids, as a ledger in which every id has one holder.
structure Refines (s : State File) (a : Ledger (Holder File)) : Prop where
  recorded : ∀ file key, a.idOf (.inl (file, key)) = s.maps file key
  pending : ∀ p, a.idOf (.inr p) = (s.procs p).pending
  allocatable : ∀ {holder id}, a.idOf holder = some id → Allocatable id
  floor : allocatorFloor ≤ a.next
  counter : CounterHolds s.counter a.next ∨ ∃ p, s.counterLock = some p ∧ (s.procs p).Rewriting
  fits : ∀ p, Fits s a.next p (s.procs p)

def noIds : Ledger (Holder File) := ⟨allocatorFloor, fun _ => none, nofun, nofun⟩

lemma refines_initial : Refines (State.initial : State File) noIds where
  recorded _ _ := rfl
  pending _ := rfl
  allocatable := nofun
  floor := le_rfl
  counter := .inl (.inl ⟨rfl, rfl⟩)
  fits _ := trivial

variable {s t : State File} {a b : Ledger (Holder File)} {p : Nat} {phase : Phase File} {c : Call File} {new : IdMap}

lemma Refines.counter_of_free (h : Refines s a)
    (hf : s.counterLock = none) : CounterHolds s.counter a.next := by
  obtain ht | ⟨q, hh, -⟩ := h.counter
  · exact ht
  · rw [hf] at hh
    cases hh

lemma Refines.counter_frame (h : Refines s a) (hn : ¬ (s.procs p).Rewriting) :
    CounterHolds s.counter a.next ∨ ∃ q ≠ p, s.counterLock = some q ∧ (s.procs q).Rewriting := by
  obtain ht | ⟨q, hh, hr⟩ := h.counter
  · exact .inl ht
  · exact .inr ⟨q, fun heq => hn (heq ▸ hr), hh, hr⟩

lemma Refines.quiet (h : Refines s a) (hp : t.procs = s.procs) (hm : t.maps = s.maps)
    (hpe : phase.pending = (s.procs p).pending) (hf : Fits t a.next p phase)
    (hma : ∀ q ≠ p, ∀ file, s.mapLock file = some q → t.mapLock file = some q)
    (hc : ∀ q ≠ p, s.counterLock = some q → t.counterLock = some q ∧ t.counter = s.counter)
    (hco : CounterHolds t.counter a.next ∨
      ∃ q, t.counterLock = some q ∧ ((t.enter p phase).procs q).Rewriting) : Refines (t.enter p phase) a := by
  refine ⟨?_, ?_, h.allocatable, h.floor, hco, ?_⟩
  · intro file key
    rw [State.enter_maps, hm]
    exact h.recorded file key
  · intro q
    rw [h.pending q]
    rcases eq_or_ne q p with rfl | hq
    · rw [State.enter_procs_self, hpe]
    · rw [State.enter_procs_of_ne _ _ _ hq, hp]
  · intro q
    rcases eq_or_ne q p with rfl | hq
    · rw [State.enter_procs_self]
      exact hf.frame (fun _ hl => ⟨hl, rfl⟩) fun hh => ⟨hh, rfl, rfl⟩
    rw [State.enter_procs_of_ne _ _ _ hq, hp]
    apply (h.fits q).frame
    · intro file hfi
      exact ⟨hma q hq file hfi, by rw [State.enter_maps, hm]⟩
    · intro hh
      exact ⟨(hc q hq hh).1, (hc q hq hh).2, rfl⟩

lemma Refines.goOn (h : Refines s a)
    (hn : ¬ (s.procs p).Rewriting) (hp : phase.pending = (s.procs p).pending)
    (hf : Fits s a.next p phase) : Refines (s.enter p phase) a := by
  apply h.quiet rfl rfl hp hf (fun _ _ _ hl => hl) (fun _ _ hh => ⟨hh, rfl⟩)
  obtain ht | ⟨q, hq, hh, hr⟩ := h.counter_frame hn
  · exact .inl ht
  · exact .inr ⟨q, hh, by rw [State.enter_procs_of_ne _ _ _ hq]; exact hr⟩

lemma Refines.rewrite (h : Refines s a) (text : Bytes) (hh : s.counterLock = some p)
    (hp : phase.pending = (s.procs p).pending) (hf : Fits { s with counter := text } a.next p phase)
    (hr : phase.Rewriting) : Refines ({ s with counter := text }.enter p phase) a := by
  refine h.quiet rfl rfl hp hf (fun _ _ _ hl => hl) (fun q hq ho => ?_)
    (.inr ⟨p, hh, by rw [State.enter_procs_self]; exact hr⟩)
  rw [hh] at ho
  exact absurd (Option.some.inj ho).symm hq

lemma load_cases (s : State File) (p : Nat) (c : Call File) :
    s.load p c = s.enter p (.loaded c (s.maps c.file)) ∨ ∃ a, s.load p c = s.answer p a := by
  cases c with
  | allocate file key =>
    rcases hid : s.maps file key with _ | id
    · exact .inl (by simp [State.load, Call.file, Call.key, hid])
    · exact .inr ⟨.alreadyThere id, by simp [State.load, Call.file, Call.key, hid]⟩
  | remove file key =>
    rcases hid : s.maps file key with _ | id
    · exact .inr ⟨.done, by simp [State.load, Call.file, Call.key, hid]⟩
    · exact .inl (by simp [State.load, Call.file, Call.key, hid])

-- The band may still have to be passed over.
def reach (next : Nat) : Nat := if next ≤ excludedBandHigh then next + 4 else next

lemma reach_skipBand (next : Nat) : reach (skipBand next + 1) ≤ reach next + 1 := by
  have hl : excludedBandLow = 65532 := rfl
  have hh : excludedBandHigh = 65535 := rfl
  unfold reach skipBand
  split_ifs <;> omega

lemma skipBand_lt (h : reach next < bound) : skipBand next < bound := by
  have hl : excludedBandLow = 65532 := rfl
  have hh : excludedBandHigh = 65535 := rfl
  unfold reach at h
  unfold skipBand
  split_ifs at * <;> omega

lemma lt_of_reach (h : reach next < bound) : next < bound :=
  (le_skipBand next).trans_lt (skipBand_lt h)

-- The ids in flight are numbers that were in flight before or above the counter.
structure Later (a b : Ledger (Holder File)) (count : Nat) : Prop where
  inFlight : (a.comap .inr Sum.inr_injective).Extends (b.comap .inr Sum.inr_injective)
  reach_le : reach b.next ≤ reach a.next + count

lemma Later.refl (a : Ledger (Holder File)) (count : Nat) : Later a a count :=
  ⟨.refl _, Nat.le_add_right _ _⟩

lemma Later.trans {c : Ledger (Holder File)} {m n : Nat} (hab : Later a b m) (hbc : Later b c n) :
    Later a c (m + n) := by
  refine ⟨hab.inFlight.trans hbc.inFlight, ?_⟩
  have := hab.reach_le
  have := hbc.reach_le
  omega

lemma Later.not_recorded {count id : Nat} (ha : Refines s a)
    (hb : Refines t b) (hl : Later a b count) (hp : (t.procs p).pending = some id) : ¬ Recorded s id := by
  rintro ⟨file, key, hr⟩
  rw [← ha.recorded file key] at hr
  rw [← hb.pending p] at hp
  obtain hold | hf := hl.inFlight.old_or_fresh (show (b.comap .inr Sum.inr_injective).idOf p = some id from hp)
  · have hs := a.injective hold hr
    cases hs
  · exact absurd (a.below_next hr) (Nat.not_lt.mpr hf)

variable [DecidableEq File]

lemma Refines.leave (h : Refines s a) (p : Nat) (hn : ¬ (s.procs p).Rewriting) (hp : ¬ phase.Busy) :
    Refines ((s.release p).enter p phase) (a.retain (· ≠ .inr p)) := by
  obtain ⟨hpe, hf⟩ : phase.pending = none ∧ Fits ((s.release p).enter p phase) a.next p phase := by
    cases phase with
    | idle | returned answer => exact ⟨rfl, trivial⟩
    | _ => exact absurd trivial hp
  refine ⟨?_, ?_, ?_, h.floor, ?_, ?_⟩
  · intro file key
    simpa [Ledger.retain] using h.recorded file key
  · intro q
    rcases eq_or_ne q p with rfl | hq
    · simp [Ledger.retain, hpe]
    · rw [State.enter_procs_of_ne _ _ _ hq]
      simpa [Ledger.retain, hq] using h.pending q
  · intro holder id hid
    simp only [Ledger.retain] at hid
    split at hid
    · exact h.allocatable hid
    · cases hid
  · obtain ht | ⟨q, hq, hh, hr⟩ := h.counter_frame hn
    · exact .inl ht
    · refine .inr ⟨q, s.release_counterLock p hq hh, ?_⟩
      rw [State.enter_procs_of_ne _ _ _ hq]
      exact hr
  · intro q
    rcases eq_or_ne q p with rfl | hq
    · rw [State.enter_procs_self]
      exact hf
    rw [State.enter_procs_of_ne _ _ _ hq]
    apply (h.fits q).frame
    · intro file hfi
      exact ⟨s.release_mapLock p hq hfi, rfl⟩
    · intro hh
      exact ⟨s.release_counterLock p hq hh, rfl, rfl⟩

lemma Refines.install (h : Refines s a) (hpr : s.procs p = .prepared c new) (hn : b.next = a.next)
    (hown : b.idOf (.inr p) = none) (hkey : b.idOf (.inl (c.file, c.key)) = (s.procs p).pending)
    (ho : ∀ holder, holder ≠ .inr p → holder ≠ .inl (c.file, c.key) → b.idOf holder = a.idOf holder) :
    Refines ((s.install c new).enter p (.locked c)) b := by
  obtain ⟨hl, hnew⟩ : Fits s a.next p (.prepared c new) := hpr ▸ h.fits p
  refine ⟨?_, ?_, ?_, hn ▸ h.floor, ?_, ?_⟩
  · intro file key
    by_cases hf : file = c.file
    · subst hf
      show _ = update s.maps c.file new c.file key
      rw [update_self, hnew]
      by_cases hk : key = c.key
      · subst hk
        rw [update_self, hkey, hpr]
      · rw [update_of_ne hk, ho (.inl (c.file, key)) nofun (by simp [hk])]
        exact h.recorded c.file key
    · show _ = update s.maps c.file new file key
      rw [update_of_ne hf, ho (.inl (file, key)) nofun (by simp [hf])]
      exact h.recorded file key
  · intro q
    rcases eq_or_ne q p with rfl | hq
    · rw [hown, State.enter_procs_self]
      rfl
    · rw [State.enter_procs_of_ne _ _ _ hq, ho (.inr q) (by simp [hq]) nofun]
      exact h.pending q
  · intro holder id hid
    have hal := @h.allocatable
    grind [h.pending p]
  · rw [hn]
    obtain ht | ⟨q, hq, hh, hr⟩ := h.counter_frame (p := p) (by simp [hpr, Phase.Rewriting])
    · exact .inl ht
    · refine .inr ⟨q, hh, ?_⟩
      rw [State.enter_procs_of_ne _ _ _ hq]
      exact hr
  · intro q
    rw [hn]
    rcases eq_or_ne q p with rfl | hq
    · rw [State.enter_procs_self]
      exact hl
    rw [State.enter_procs_of_ne _ _ _ hq]
    apply (h.fits q).frame
    · intro file hf
      have hne : file ≠ c.file := by
        rintro rfl
        rw [hl] at hf
        exact hq (Option.some.inj hf).symm
      exact ⟨hf, update_of_ne hne _ _⟩
    · intro hh
      exact ⟨hh, rfl, rfl⟩

lemma Refines.write {file : File} {key : Bytes}
    {cur : IdMap} (h : Refines s a) (hpr : s.procs p = .seeked file key cur next) (hr : next + 1 < 2 ^ 32)
    (hn : a.next ≤ next) :
    Refines ({ s with counter := counterText next, counterLock := none }.enter p (.numbered file key cur next))
      ((a.advance next hn).issue (.inr p)) := by
  obtain ⟨hl, hc, hh, hs⟩ : Fits s a.next p (.seeked file key cur next) := hpr ▸ h.fits p
  refine ⟨?_, ?_, ?_, ?_, ?_, ?_⟩
  · intro file key
    simpa [Ledger.issue, Ledger.advance] using h.recorded file key
  · intro q
    rcases eq_or_ne q p with rfl | hq
    · simp [Ledger.issue, Ledger.advance, Phase.pending]
    · rw [State.enter_procs_of_ne _ _ _ hq]
      simpa [Ledger.issue, Ledger.advance, hq] using h.pending q
  · intro holder id hid
    by_cases hp : holder = .inr p
    · simp only [Ledger.issue, Ledger.advance, hp, update_self, Option.some.injEq] at hid
      rw [← hid, hs]
      exact allocatable_skipBand h.floor
    · simp only [Ledger.issue, Ledger.advance, update_of_ne hp] at hid
      exact h.allocatable hid
  · exact h.floor.trans (hn.trans (Nat.le_succ next))
  · exact .inl (counterHolds_counterText hr)
  · intro q
    rcases eq_or_ne q p with rfl | hq
    · rw [State.enter_procs_self]
      exact ⟨hl, hc⟩
    rw [State.enter_procs_of_ne _ _ _ hq]
    apply (h.fits q).frame
    · intro file hf
      exact ⟨hf, rfl⟩
    · intro ho
      rw [hh] at ho
      exact absurd (Option.some.inj ho).symm hq

-- Each step of a process, with what it found.
inductive Move (s : State File) (p : Nat) : Event File → State File → Prop
  | call (c : Call File) (hp : ¬ (s.procs p).Busy) : Move s p (.call c) (s.enter p (.waiting c))
  | lockMap {c : Call File} (hp : s.procs p = .waiting c) (hfree : s.mapLock c.file = none) :
      Move s p .lockMap ({ s with mapLock := Function.update s.mapLock c.file (some p) }.enter p (.locked c))
  | load {c : Call File} (hp : s.procs p = .locked c) :
      Move s p .loadMap (s.enter p (.loaded c (s.maps c.file)))
  | nothingToDo {c : Call File} (a : Answer) (hp : s.procs p = .locked c) : Move s p .loadMap (s.answer p a)
  | lockCounter {file : File} {key : Bytes} {cur : IdMap} (hp : s.procs p = .loaded (.allocate file key) cur)
      (hfree : s.counterLock = none) :
      Move s p .lockCounter ({ s with counterLock := some p }.enter p (.counting file key cur))
  | readCounter {file : File} {key : Bytes} {cur : IdMap} {next : Nat} (succeeds : Bool)
      (hp : s.procs p = .counting file key cur)
      (hparse : parseCounter (if succeeds then s.counter.take 32 else []) = some next) :
      Move s p (.readCounter succeeds) (s.enter p (.counted file key cur next))
  | unreadable {file : File} {key : Bytes} {cur : IdMap} (succeeds : Bool)
      (hp : s.procs p = .counting file key cur) : Move s p (.readCounter succeeds) (s.answer p .failed)
  | truncate {file : File} {key : Bytes} {cur : IdMap} {next : Nat} (hp : s.procs p = .counted file key cur next) :
      Move s p .truncate ({ s with counter := [] }.enter p (.truncated file key cur next))
  | seek {file : File} {key : Bytes} {cur : IdMap} {next : Nat} (hp : s.procs p = .truncated file key cur next) :
      Move s p .seek (s.enter p (.seeked file key cur next))
  | write {file : File} {key : Bytes} {cur : IdMap} {next : Nat} (hp : s.procs p = .seeked file key cur next) :
      Move s p .write
        ({ s with counter := counterText next, counterLock := none }.enter p (.numbered file key cur next))
  | writePart {file : File} {key : Bytes} {cur : IdMap} {next : Nat} (n : Nat)
      (hp : s.procs p = .seeked file key cur next) :
      Move s p (.writePart n) ({ s with counter := (counterText next).take n }.answer p .failed)
  | tmpAllocated {file : File} {key : Bytes} {cur : IdMap} {next : Nat}
      (hp : s.procs p = .numbered file key cur next) :
      Move s p .writeTmp (s.enter p (.prepared (.allocate file key) (Function.update cur key (some next))))
  | tmpRemoved {file : File} {key : Bytes} {cur : IdMap} (hp : s.procs p = .loaded (.remove file key) cur) :
      Move s p .writeTmp (s.enter p (.prepared (.remove file key) (Function.update cur key none)))
  | rename {c : Call File} {new : IdMap} (hp : s.procs p = .prepared c new) :
      Move s p .rename ((s.install c new).answer p (c.result new))
  | fail : Move s p .fail (s.answer p .failed)
  | crash : Move s p .crash ((s.release p).enter p .idle)

lemma step_cases {e : Event File} (h : step s (p, e) = some t) : Move s p e t := by
  simp only [step] at h
  split at h
  · next c hp => exact Option.some.inj h ▸ .call c (by simp [hp, Phase.Busy])
  · next c hp => exact Option.some.inj h ▸ .call c (by simp [hp, Phase.Busy])
  · next c hp =>
    rw [Option.ite_none_right_eq_some, Option.some.injEq] at h
    exact h.2 ▸ .lockMap hp h.1
  · next c hp =>
    obtain hl | ⟨a, hl⟩ := load_cases s p c
    · exact Option.some.inj h ▸ hl ▸ .load hp
    · exact Option.some.inj h ▸ hl ▸ .nothingToDo a hp
  · next hp =>
    rw [Option.ite_none_right_eq_some, Option.some.injEq] at h
    exact h.2 ▸ .lockCounter hp h.1
  · next succeeds hp =>
    split at h
    · next hpa => exact Option.some.inj h ▸ .readCounter succeeds hp hpa
    · exact Option.some.inj h ▸ .unreadable succeeds hp
  · next hp => exact Option.some.inj h ▸ .truncate hp
  · next hp => exact Option.some.inj h ▸ .seek hp
  · next hp => exact Option.some.inj h ▸ .write hp
  · next n hp => exact Option.some.inj h ▸ .writePart n hp
  · next hp => exact Option.some.inj h ▸ .tmpAllocated hp
  · next hp => exact Option.some.inj h ▸ .tmpRemoved hp
  · next hp => exact Option.some.inj h ▸ .rename hp
  · rw [Option.ite_none_right_eq_some, Option.some.injEq] at h
    exact h.2 ▸ .fail
  · exact Option.some.inj h ▸ .crash
  · cases h

lemma Refines.lose (h : Refines s a) (p : Nat)
    (hn : ¬ (s.procs p).Rewriting) (hp : ¬ phase.Busy) (count : Nat) :
    ∃ b, Refines ((s.release p).enter p phase) b ∧ Later a b count :=
  ⟨_, h.leave p hn hp, (a.extends_retain _).comap _, Nat.le_add_right _ _⟩

lemma Refines.rename (h : Refines s a) (hp : s.procs p = .prepared c new) :
    ∃ b, Refines ((s.install c new).answer p (c.result new)) b ∧ Later a b 0 := by
  let b := a.move (.inr p) (.inl (c.file, c.key))
  have hb : Refines ((s.install c new).enter p (.locked c)) b := by
    apply h.install hp
    · rfl
    · simp [b, Ledger.move]
    · rw [← h.pending p]
      simp [b, Ledger.move]
    · intro holder ho hpl
      simp [b, Ledger.move, update_of_ne ho, update_of_ne hpl]
  have hn : ¬ (Phase.returned (c.result new) : Phase File).Busy := id
  obtain ⟨b', hb', hl⟩ := hb.lose p (by simp [Phase.Rewriting]) hn 0
  rw [State.release_enter, State.enter_enter] at hb'
  have hm : Later a b 0 := ⟨a.extends_comap_move Sum.inr_injective (by simp), le_rfl⟩
  exact ⟨b', hb', hm.trans hl⟩

lemma step_refines {act : Nat × Event File} (h : Refines s a)
    (hr : reach a.next + 1 < 2 ^ 32) (hok : Undisturbed s act) (hs : step s act = some t) :
    ∃ b, Refines t b ∧ Later a b (if issues act then 1 else 0) := by
  obtain ⟨p, e⟩ := act
  have hf := h.fits p
  cases step_cases hs with
  | call c hp =>
    refine ⟨a, h.goOn ?_ ?_ trivial, .refl a _⟩
    · intro hre
      cases hph : s.procs p <;> simp_all [Phase.Rewriting, Phase.Busy]
    · cases hph : s.procs p <;> simp_all [Phase.pending, Phase.Busy]
  | @lockMap c hp hfr =>
    refine ⟨a, ?_, .refl a _⟩
    apply h.quiet
    · rfl
    · rfl
    · rw [hp]
      rfl
    · exact update_self ..
    · intro q hq file hfi
      have hne : file ≠ c.file := by
        rintro rfl
        rw [hfr] at hfi
        cases hfi
      show update s.mapLock c.file (some p) file = some q
      rw [update_of_ne hne]
      exact hfi
    · exact fun q hq hh => ⟨hh, rfl⟩
    · obtain ht | ⟨q, hq, hh, hre⟩ := h.counter_frame (p := p) (by simp [hp, Phase.Rewriting])
      · exact .inl ht
      · exact .inr ⟨q, hh, by rw [State.enter_procs_of_ne _ _ _ hq]; exact hre⟩
  | load hp =>
    rw [hp] at hf
    exact ⟨a, h.goOn (by simp [hp, Phase.Rewriting]) (by simp [hp, Phase.pending]) ⟨hf, rfl⟩, .refl a _⟩
  | nothingToDo answer hp => exact h.lose p (by simp [hp, Phase.Rewriting]) (by simp [Phase.Busy]) _
  | lockCounter hp hfr =>
    rw [hp] at hf
    have ht := h.counter_of_free hfr
    refine ⟨a, h.quiet rfl rfl (by simp [hp, Phase.pending]) ⟨hf.1, hf.2, rfl, ht⟩
      (fun q hq file hfi => hfi) (fun q hq hh => ?_) (.inl ht), .refl a _⟩
    rw [hfr] at hh
    cases hh
  | @readCounter file key cur next succeeds hp hpa =>
    rw [hp] at hf
    obtain ⟨hl, hc, hh, ht⟩ := hf
    obtain rfl : succeeds = true := hok
    rw [if_pos rfl, parseCounter_of_holds ht (lt_of_reach (by omega)), Option.some.injEq] at hpa
    refine ⟨a, h.goOn (by simp [hp, Phase.Rewriting]) (by simp [hp, Phase.pending]) ?_, .refl a _⟩
    exact ⟨hl, hc, hh, hpa.symm⟩
  | unreadable succeeds hp => exact h.lose p (by simp [hp, Phase.Rewriting]) (by simp [Phase.Busy]) _
  | truncate hp =>
    rw [hp] at hf
    exact ⟨a, h.rewrite [] hf.2.2.1 (by simp [hp, Phase.pending]) hf trivial, .refl a _⟩
  | seek hp =>
    rw [hp] at hf
    exact ⟨a, h.rewrite s.counter hf.2.2.1 (by simp [hp, Phase.pending]) hf trivial, .refl a _⟩
  | @write file key cur next hp =>
    rw [hp] at hf
    obtain ⟨hl, hc, hh, rfl⟩ := hf
    have hlt : skipBand a.next < 2 ^ 32 - 1 := skipBand_lt (by omega)
    refine ⟨_, h.write hp (by omega) (le_skipBand a.next), ?_, ?_⟩
    · exact ((a.extends_advance _).trans (Ledger.extends_issue _ _)).comap _
    · exact reach_skipBand a.next
  | writePart n hp => exact hok.elim
  | tmpAllocated hp =>
    rw [hp] at hf
    obtain ⟨hl, rfl⟩ := hf
    refine ⟨a, h.goOn (by simp [hp, Phase.Rewriting]) (by simp [hp, Phase.pending]) ⟨hl, ?_⟩, .refl a _⟩
    simp [Phase.pending, Call.file, Call.key]
  | tmpRemoved hp =>
    rw [hp] at hf
    obtain ⟨hl, rfl⟩ := hf
    exact ⟨a, h.goOn (by simp [hp, Phase.Rewriting]) (by simp [hp, Phase.pending]) ⟨hl, rfl⟩, .refl a _⟩
  | rename hp => exact h.rename hp
  | fail | crash => exact h.lose p hok (by simp [Phase.Busy]) 0

lemma run_refines {acts : List (Nat × Event File)}
    (h : Refines s a) (hr : reach a.next + acts.countP issues + 1 < 2 ^ 32)
    (hok : Along step Undisturbed s acts) (hrun : runSteps step s acts = some t) :
    ∃ b, Refines t b ∧ Later a b (acts.countP issues) := by
  induction acts generalizing s a with
  | nil =>
    cases hrun
    exact ⟨a, h, .refl a _⟩
  | cons act rest ih =>
    obtain ⟨u, hs, hre⟩ := Option.bind_eq_some_iff.mp hrun
    rw [List.countP_cons] at hr ⊢
    obtain ⟨b, hb, hab⟩ := step_refines h (by omega) hok.1 hs
    have hra := hab.reach_le
    obtain ⟨c, hc, hbc⟩ := ih hb (by omega) (hok.2 u hs) hre
    exact ⟨c, hc, Nat.add_comm _ _ ▸ hab.trans hbc⟩

lemma run_refines_initial {acts : List (Nat × Event File)}
    (hc : acts.countP issues < 2 ^ 32 - 100000) (hok : Along step Undisturbed State.initial acts)
    (hr : runSteps step State.initial acts = some t) :
    ∃ b, Refines t b ∧ reach b.next ≤ 10004 + acts.countP issues := by
  have hs : reach allocatorFloor = 10004 := by decide
  obtain ⟨b, hb, hl⟩ := run_refines refines_initial (by
    show reach allocatorFloor + _ + 1 < _
    omega) hok hr
  exact ⟨b, hb, hl.reach_le.trans_eq (by rw [← hs]; rfl)⟩

lemma pending_of_fresh {id : Nat} (hs : step s (p, .rename) = some t)
    (ht : t.procs p = .returned (.fresh id)) : (s.procs p).pending = some id := by
  cases step_cases hs with
  | @rename c new hp =>
    rw [State.answer, State.enter_procs_self] at ht
    cases c with
    | remove file key => simp [Call.result] at ht
    | allocate file key =>
      rcases hn : new key with _ | other
      · simp [Call.result, Call.key, hn] at ht
      · simp only [Call.result, Call.key, hn, Phase.returned.injEq, Answer.fresh.injEq] at ht
        rw [hp, Phase.pending, hn, ht]

theorem ids_never_shared (acts : List (Nat × Event File)) (t : State File)
    (hcount : acts.countP issues < 2 ^ 32 - 100000) (hok : Along step Undisturbed State.initial acts)
    (hrun : runSteps step State.initial acts = some t) :
    (∀ file key id, t.maps file key = some id → Allocatable id) ∧
      (∀ file key file' key' id, t.maps file key = some id → t.maps file' key' = some id →
        file = file' ∧ key = key') ∧
      ∀ first second p after u v w id, acts = first ++ second ++ (p, .rename) :: after →
        runSteps step State.initial first = some u → runSteps step u second = some v →
        step v (p, .rename) = some w → w.procs p = .returned (.fresh id) → ¬ Recorded u id := by
  obtain ⟨b, hb, -⟩ := run_refines_initial hcount hok hrun
  refine ⟨?_, ?_, ?_⟩
  · intro file key id hid
    exact hb.allocatable ((hb.recorded file key).trans hid)
  · intro file key file' key' id hid hid'
    have hs := b.injective ((hb.recorded file key).trans hid) ((hb.recorded file' key').trans hid')
    simpa using hs
  intro first second p after u v w id ha hf hse hst han
  subst ha
  rw [List.append_assoc, List.countP_append, List.countP_append] at hcount
  rw [List.append_assoc] at hok
  obtain ⟨ho, hor⟩ := along_append.mp hok
  obtain ⟨c, hc, hr⟩ := run_refines_initial (by omega) ho hf
  obtain ⟨d, hd, hl⟩ := run_refines hc (by omega) (along_append.mp (hor u hf)).1 hse
  exact hl.not_recorded hc hd (pending_of_fresh hst han)

def sampleUidMap (domain : Bytes) : Option Bytes := some domain

def sampleDomain : Bytes := ascii "example.com"

def upToCounter (p : Nat) (c : Call (Option Bytes)) : List (Nat × Event (Option Bytes)) :=
  [(p, .call c), (p, .lockMap), (p, .loadMap), (p, .lockCounter), (p, .readCounter true), (p, .truncate)]

def fromCounter (p : Nat) : List (Nat × Event (Option Bytes)) :=
  [(p, .seek), (p, .write), (p, .writeTmp), (p, .rename)]

-- A second process waits for the counter while the first has it, and a third
-- removes what the first has recorded.
def sampleRun : List (Nat × Event (Option Bytes)) :=
  [(1, .call (allocateUserUID sampleUidMap sampleDomain (ascii "alice"))), (1, .lockMap)] ++
    upToCounter 0 (allocateDomainGID none sampleDomain) ++ [(1, .loadMap)] ++ fromCounter 0 ++
    [(2, .call (removeDomainGID none sampleDomain)), (2, .lockMap), (2, .loadMap), (2, .writeTmp), (2, .rename)] ++
    [(1, .lockCounter), (1, .readCounter true), (1, .truncate)] ++ fromCounter 1

lemma sampleRun_recorded : (runSteps step State.initial sampleRun).map (fun t =>
      (t.maps none sampleDomain, t.maps (sampleUidMap sampleDomain) (ascii "alice"))) =
      some (none, some 10001) := by
  decide +kernel

theorem ids_never_shared_interleaved : ∃ t, runSteps step State.initial sampleRun = some t ∧
      ∀ file key file' key' id, t.maps file key = some id → t.maps file' key' = some id →
        file = file' ∧ key = key' := by
  obtain ⟨t, ht, -⟩ := Option.map_eq_some_iff.mp sampleRun_recorded
  exact ⟨t, ht, (ids_never_shared sampleRun t (by decide +kernel) (by decide +kernel) ht).2.1⟩

-- One process crashes after it has truncated the counter.
def crashRun : List (Nat × Event (Option Bytes)) :=
  upToCounter 0 (allocateDomainGID none sampleDomain) ++ fromCounter 0 ++
    upToCounter 1 (allocateUserUID sampleUidMap sampleDomain (ascii "alice")) ++ [(1, .crash)] ++
    upToCounter 2 (allocateUserUID sampleUidMap sampleDomain (ascii "bob")) ++ fromCounter 2

theorem crash_shares_id : ∃ t : State (Option Bytes), runSteps step State.initial crashRun = some t ∧
      t.maps none sampleDomain = some 10000 ∧
      t.maps (sampleUidMap sampleDomain) (ascii "bob") = some 10000 := by
  have hr : (runSteps step State.initial crashRun).map (fun t =>
      (t.maps none sampleDomain, t.maps (sampleUidMap sampleDomain) (ascii "bob"))) =
      some (some 10000, some 10000) := by
    decide +kernel
  obtain ⟨t, ht, hm⟩ := Option.map_eq_some_iff.mp hr
  rw [Prod.mk.injEq] at hm
  exact ⟨t, ht, hm.1, hm.2⟩

end Maildancer.Identity

import Maildancer.Semaphore
import Maildancer.Text
import Maildancer.Transition

namespace Maildancer.Connfork

open Text Semaphore

-- Durations are in nanoseconds.
structure Verdict where
  banned : Bool
  tarpit : Int
  reason : Bytes
  shadowBanned : Bool
deriving DecidableEq

def Verdict.allow : Verdict := ⟨false, 0, [], false⟩

-- Whether there is a gate and a report sink is all that the dispatcher itself depends on.
structure Config where
  listeners : Nat
  maxConns : Int
  maxTarpit : Int
  gate : Bool
  strictGate : Bool
  reportSink : Bool

def defaultMaxTarpit : Nat := 256

-- The capacities of the two channels of NewServer; none is a nil channel.
def Config.tokens (cfg : Config) : Option Nat := if 0 < cfg.maxConns then some cfg.maxConns.toNat else none

def Config.tarpitTokens (cfg : Config) : Option Nat :=
  if 0 < cfg.maxTarpit then some cfg.maxTarpit.toNat
  else if cfg.maxTarpit = 0 then some defaultMaxTarpit else none

-- No answer is an error of the gate, a timeout among them.
def gateVerdict (cfg : Config) (clientIP : Bytes) (answer : Option Verdict) : Verdict × Bool :=
  if cfg.gate = false ∨ clientIP = [] then (.allow, false)
  else
    match answer with
    | none => if cfg.strictGate then (⟨true, 0, ascii "gate_error", false⟩, true) else (.allow, false)
    | some verdict => (verdict, verdict.banned)

inductive Loop
  | acquiring
  | accepting
  | returned
deriving DecidableEq

-- How far the goroutines of one accepted connection have come. From `running` on
-- it is the reaper; the flag tells whether there is a report pipe.
inductive Phase
  | checking (clientIP : Bytes)
  | allowed
  | failed
  | denied
  | started (pipe : Bool)
  | running (pipe : Bool)
  | drained
  | reaped
  | done
deriving DecidableEq

inductive Tarpit
  | none
  | entering (hold : Int)
  | held
  | closed
deriving DecidableEq

inductive Mark
  | acquired
  | denied
  | spawned
  | connStart
  | connEnd
  | released
deriving DecidableEq

structure Slot where
  phase : Phase
  alive : Bool
  tarpit : Tarpit
  calls : List Mark
deriving DecidableEq

inductive SlotAction
  | gate (answer : Option Verdict)
  -- not TCP, no descriptor, or the handler does not start
  | fail
  | start (pipe : Bool)
  | connStart
  -- the handler ends, in whatever way
  | exit
  -- the sink returns, at the end of the report or before it with an error
  | drain (atEnd : Bool)
  | wait

def Slot.next (cfg : Config) (slot : Slot) : SlotAction → Option Slot
  | .gate answer =>
    match slot.phase with
    | .checking clientIP =>
      match gateVerdict cfg clientIP answer with
      | (verdict, true) =>
        some { slot with phase := .denied, tarpit := .entering verdict.tarpit, calls := slot.calls ++ [.denied] }
      | (_, false) => some { slot with phase := .allowed }
    | _ => none
  | .fail => if slot.phase = .allowed then some { slot with phase := .failed } else none
  | .start pipe =>
    -- without a pipe the handler is started all the same
    if slot.phase = .allowed ∧ (pipe → cfg.reportSink) then
      some { slot with phase := .started pipe, alive := true, calls := slot.calls ++ [.spawned] }
    else none
  | .connStart =>
    match slot.phase with
    | .started pipe => some { slot with phase := .running pipe, calls := slot.calls ++ [.connStart] }
    | _ => none
  | .exit => if slot.alive then some { slot with alive := false } else none
  | .drain atEnd =>
    if slot.phase = .running true ∧ (atEnd → slot.alive = false) then some { slot with phase := .drained } else none
  | .wait =>
    if (slot.phase = .running false ∨ slot.phase = .drained) ∧ slot.alive = false then
      some { slot with phase := .reaped, calls := slot.calls ++ [.connEnd] }
    else none

-- The slot is given back at the end of spawnHandler or of the reaper.
def Slot.release (slot : Slot) : Option Slot :=
  if slot.phase = .failed ∨ slot.phase = .denied ∨ slot.phase = .reaped then
    some { slot with phase := .done, calls := slot.calls ++ [.released] }
  else none

structure State where
  cancelled : Bool
  loops : List Loop
  slots : List Slot
  tokens : Nat
  tarpitTokens : Nat
deriving DecidableEq

def initial (cfg : Config) : State := ⟨false, List.replicate cfg.listeners .acquiring, [], 0, 0⟩

inductive Action
  | cancel
  | acquire (listener : Nat)
  -- acquire answers false
  | giveUp (listener : Nat)
  | accept (listener : Nat) (clientIP : Bytes)
  | acceptError (listener : Nat)
  | own (slot : Nat) (action : SlotAction)
  | release (slot : Nat)
  | tarpit (slot : Nat)
  | untarpit (slot : Nat)

def State.setLoop (s : State) (listener : Nat) (loop : Loop) : State :=
  { s with loops := s.loops.set listener loop }

def State.setSlot (s : State) (n : Nat) (slot : Slot) : State := { s with slots := s.slots.set n slot }

def State.addSlot (s : State) (phase : Phase) (calls : List Mark) : State :=
  { s with slots := s.slots ++ [⟨phase, false, .none, calls⟩] }

-- tarpitConn up to the wait: no time to hold or no tarpit, a full tarpit, a place.
def State.enterTarpit (cfg : Config) (s : State) (n : Nat) (slot : Slot) (hold : Int) : State :=
  if hold ≤ 0 ∨ cfg.tarpitTokens = none then s.setSlot n { slot with tarpit := .closed }
  else
    match take cfg.tarpitTokens s.tarpitTokens with
    | none => s.setSlot n { slot with tarpit := .closed }
    | some used => { s with tarpitTokens := used }.setSlot n { slot with tarpit := .held }

def step (cfg : Config) (s : State) : Action → Option State
  | .cancel => some { s with cancelled := true }
  | .acquire i =>
    if s.loops[i]? = some .acquiring then
      (take cfg.tokens s.tokens).map fun used => { s with tokens := used }.setLoop i .accepting
    else none
  | .giveUp i =>
    if s.loops[i]? = some .acquiring ∧ s.cancelled then some (s.setLoop i .returned) else none
  | .accept i clientIP =>
    if s.loops[i]? = some .accepting then
      some ((s.setLoop i .acquiring).addSlot (.checking clientIP) [.acquired])
    else none
  | .acceptError i =>
    -- the loop returns, whether the context has ended or not
    if s.loops[i]? = some .accepting then
      (giveBack cfg.tokens s.tokens).map fun used =>
        ({ s with tokens := used }.setLoop i .returned).addSlot .done [.acquired, .released]
    else none
  | .own n action => (s.slots[n]?).bind fun slot => (slot.next cfg action).map (s.setSlot n)
  | .release n =>
    (s.slots[n]?).bind fun slot => slot.release.bind fun slot =>
      (giveBack cfg.tokens s.tokens).map fun used => { s with tokens := used }.setSlot n slot
  | .tarpit n =>
    (s.slots[n]?).bind fun slot =>
      match slot.tarpit with
      | .entering hold => some (s.enterTarpit cfg n slot hold)
      | _ => none
  | .untarpit n =>
    (s.slots[n]?).bind fun slot =>
      if slot.tarpit = .held then
        (giveBack cfg.tarpitTokens s.tarpitTokens).map fun used =>
          { s with tarpitTokens := used }.setSlot n { slot with tarpit := .closed }
      else none

end Maildancer.Connfork

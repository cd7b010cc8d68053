import Maildancer.Text

namespace Maildancer

open Text

structure SessionEntry where
  username : Bytes
  mailbox : Bytes
  refCount : Int
  idleTimer : Option Nat
  waited : Bool

-- Entries and timers are numbered in the order they are made. A timer that has fired leaves a reap of its
-- entry waiting for the lock. A login whose user has no session spawns one between its two critical sections.
structure Manager where
  entries : Nat → SessionEntry
  nextEntry : Nat
  nextTimer : Nat
  byToken : List (Bytes × Nat)
  byUser : Bytes → Option Nat
  armed : List (Nat × Nat)
  reaping : List Nat
  spawning : List (Bytes × Bytes)
  monitored : List Nat

namespace Manager

def new : Manager where
  entries := fun _ => ⟨[], [], 0, none, false⟩
  nextEntry := 0
  nextTimer := 0
  byToken := []
  byUser := fun _ => none
  armed := []
  reaping := []
  spawning := []
  monitored := []

variable (m : Manager)

def Registered (e : Nat) : Prop := m.byUser (m.entries e).username = some e

instance (e : Nat) : Decidable (m.Registered e) := inferInstanceAs (Decidable (_ = _))

def setEntry (e : Nat) (entry : SessionEntry) : Manager :=
  { m with entries := Function.update m.entries e entry }

-- Stopping a timer that has fired changes nothing.
def stopTimer (e : Nat) : Manager :=
  match (m.entries e).idleTimer with
  | none => m
  | some timer =>
    { m.setEntry e { m.entries e with idleTimer := none } with
      armed := m.armed.filter fun a => a.1 ≠ timer }

def generateToken (e : Nat) (token : Bytes) : Manager :=
  { m with byToken := m.byToken ++ [(token, e)] }

def reuse (e : Nat) (token : Bytes) : Manager :=
  let m := m.stopTimer e
  let m := m.setEntry e { m.entries e with refCount := (m.entries e).refCount + 1 }
  m.generateToken e token

def killEntry (e : Nat) : Manager :=
  m.setEntry e { m.entries e with waited := true }

def unregister (e : Nat) : Manager :=
  { m with
    byUser := Function.update m.byUser (m.entries e).username none
    byToken := m.byToken.filter fun p => p.2 ≠ e }

def removeEntry (e : Nat) : Manager := ((m.stopTimer e).unregister e).killEntry e

-- The first critical section of Login, after the password has been checked.
def login (username mailbox token : Bytes) (alive : Bool) : Manager :=
  match m.byUser username with
  | none => { m with spawning := (username, mailbox) :: m.spawning }
  | some e =>
    if alive then m.reuse e token
    else
      let m := m.removeEntry e
      { m with spawning := (username, mailbox) :: m.spawning }

def addEntry (username mailbox : Bytes) : Manager :=
  { m.setEntry m.nextEntry ⟨username, mailbox, 1, none, false⟩ with nextEntry := m.nextEntry + 1 }

-- The second critical section: another login may have spawned a session first.
def spawned (username mailbox token : Bytes) : Manager :=
  let e := m.nextEntry
  let m := { m.addEntry username mailbox with spawning := m.spawning.erase (username, mailbox) }
  match m.byUser username with
  | some existing => (m.killEntry e).reuse existing token
  | none =>
    { m.generateToken e token with
      byUser := Function.update m.byUser username (some e)
      monitored := e :: m.monitored }

def startTimer (e : Nat) : Manager :=
  { m.setEntry e { m.entries e with idleTimer := some m.nextTimer } with
    nextTimer := m.nextTimer + 1
    armed := (m.nextTimer, e) :: m.armed }

-- An unknown token is an error.
def logout (token : Bytes) : Option Manager :=
  match m.byToken.find? fun p => p.1 = token with
  | none => none
  | some (_, e) =>
    let m := { m with byToken := m.byToken.filter fun p => p.1 ≠ token }
    let m := m.setEntry e { m.entries e with refCount := (m.entries e).refCount - 1 }
    some (if (m.entries e).refCount ≤ 0 then m.startTimer e else m)

def reapSession (e : Nat) : Manager :=
  if 0 < (m.entries e).refCount then m else (m.unregister e).killEntry e

def monitorProcess (e : Nat) : Manager :=
  let m := m.killEntry e
  if m.Registered e then (m.stopTimer e).unregister e else m

-- The loop is over byUser: a session that is not in it is not stopped.
def close : Manager :=
  { m with
    entries := fun e =>
      if m.Registered e then { m.entries e with waited := true } else m.entries e
    byToken := []
    byUser := fun _ => none
    armed := m.armed.filter fun a =>
      ¬ (m.Registered a.2 ∧ (m.entries a.2).idleTimer = some a.1) }

end Manager

-- One critical section each, and the firing of a timer.
inductive ManagerStep
  | login (username mailbox token : Bytes) (alive : Bool)
  | spawned (username mailbox token : Bytes)
  | spawnFailed (username mailbox : Bytes)
  | logout (token : Bytes)
  | fire (timer e : Nat)
  | reap (e : Nat)
  | exit (e : Nat)
  | close

-- A token is 32 random bytes: it is not in use yet.
def Manager.step (m : Manager) : ManagerStep → Option Manager
  | .login username mailbox token alive =>
    if token ∈ m.byToken.map Prod.fst then none else some (m.login username mailbox token alive)
  | .spawned username mailbox token =>
    if token ∈ m.byToken.map Prod.fst ∨ (username, mailbox) ∉ m.spawning then none
    else some (m.spawned username mailbox token)
  | .spawnFailed username mailbox =>
    if (username, mailbox) ∉ m.spawning then none
    else some { m with spawning := m.spawning.erase (username, mailbox) }
  | .logout token => m.logout token
  | .fire timer e =>
    if (timer, e) ∉ m.armed then none
    else some { m with armed := m.armed.erase (timer, e), reaping := e :: m.reaping }
  | .reap e =>
    if e ∉ m.reaping then none
    else some { m.reapSession e with reaping := m.reaping.erase e }
  | .exit e =>
    if e ∉ m.monitored then none
    else some { m.monitorProcess e with monitored := m.monitored.erase e }
  | .close => some m.close

end Maildancer

import Maildancer.Text.Decimal

namespace Maildancer.Identity

open Text

def allocatorFloor : Nat := 10000

def excludedBandLow : Nat := 65532

def excludedBandHigh : Nat := 65535

def Allocatable (id : Nat) : Prop := allocatorFloor ≤ id ∧ (id < excludedBandLow ∨ excludedBandHigh < id)

instance (id : Nat) : Decidable (Allocatable id) := inferInstanceAs (Decidable (_ ∧ _))

-- A map file, a flat table of ids. A file that is missing holds none.
abbrev IdMap := Bytes → Option Nat

-- Which file a map path names is up to the file system.
inductive Call (File : Type)
  | allocate (file : File) (key : Bytes)
  | remove (file : File) (key : Bytes)

def Call.file {File : Type} : Call File → File
  | allocate file _ => file
  | remove file _ => file

def Call.key {File : Type} : Call File → Bytes
  | allocate _ key => key
  | remove _ key => key

def allocateDomainGID {File : Type} (gidMap : File) (domain : Bytes) : Call File := .allocate gidMap domain

def removeDomainGID {File : Type} (gidMap : File) (domain : Bytes) : Call File := .remove gidMap domain

def allocateUserUID {File : Type} (uidMap : Bytes → File) (domain localpart : Bytes) : Call File :=
  .allocate (uidMap domain) localpart

def removeUser {File : Type} (uidMap : Bytes → File) (domain localpart : Bytes) : Call File :=
  .remove (uidMap domain) localpart

inductive Answer
  | fresh (id : Nat)
  | alreadyThere (id : Nat)
  | done
  | failed
deriving DecidableEq

-- Where a process is in its call: what it has read from the map file and the
-- number it has read from the counter. Only an allocation goes to the counter.
inductive Phase (File : Type)
  | idle
  | returned (answer : Answer)
  | waiting (c : Call File)
  | locked (c : Call File)
  | loaded (c : Call File) (cur : IdMap)
  | counting (file : File) (key : Bytes) (cur : IdMap)
  | counted (file : File) (key : Bytes) (cur : IdMap) (next : Nat)
  | truncated (file : File) (key : Bytes) (cur : IdMap) (next : Nat)
  | seeked (file : File) (key : Bytes) (cur : IdMap) (next : Nat)
  | numbered (file : File) (key : Bytes) (cur : IdMap) (next : Nat)
  | prepared (c : Call File) (new : IdMap)

-- A counter file that is missing reads as an empty one. The temporary files of
-- storeMap are left out: each is written from the start under its map's lock.
structure State (File : Type) where
  maps : File → IdMap
  counter : Bytes
  mapLock : File → Option Nat
  counterLock : Option Nat
  procs : Nat → Phase File

def State.initial {File : Type} : State File where
  maps := fun _ _ => none
  counter := []
  mapLock := fun _ => none
  counterLock := none
  procs := fun _ => .idle

-- One file system step each. A step that fails ends the call with an error, but for the Read of the counter,
-- whose error is dropped, and the write to it, which may have written a part.
inductive Event (File : Type)
  | call (c : Call File)
  | lockMap
  | loadMap
  | lockCounter
  | readCounter (succeeds : Bool)
  | truncate
  | seek
  | write
  | writePart (n : Nat)
  | writeTmp
  | rename
  | fail
  | crash

-- The well-known band is never handed out.
def skipBand (next : Nat) : Nat :=
  if excludedBandLow ≤ next ∧ next ≤ excludedBandHigh then excludedBandHigh + 1 else next

def parseCounter (buf : Bytes) : Option Nat :=
  let raw := trimSpace buf
  (if raw = [] then some allocatorFloor else parseUint 32 raw).map skipBand

def counterText (next : Nat) : Bytes := decimal ((next + 1) % 2 ^ 32) ++ [newline]

section

variable {File : Type} [DecidableEq File]

namespace State

variable (s : State File) (p : Nat)

def enter (phase : Phase File) : State File := { s with procs := Function.update s.procs p phase }

-- The locks go with the call or with the process.
def release : State File :=
  { s with
    mapLock := fun file => if s.mapLock file = some p then none else s.mapLock file
    counterLock := if s.counterLock = some p then none else s.counterLock }

def answer (a : Answer) : State File := (s.release p).enter p (.returned a)

-- After loadMap: nothing is left to do for a key that has an id already, or has none to remove.
def load (c : Call File) : State File :=
  match c, s.maps c.file c.key with
  | .allocate _ _, some id => s.answer p (.alreadyThere id)
  | .remove _ _, none => s.answer p .done
  | _, _ => s.enter p (.loaded c (s.maps c.file))

-- os.Rename of the complete temporary file.
def install (c : Call File) (new : IdMap) : State File :=
  { s with maps := Function.update s.maps c.file new }

end State

def Call.result (c : Call File) (new : IdMap) : Answer :=
  match c, new c.key with
  | .allocate _ _, some id => .fresh id
  | _, _ => .done

def Phase.Busy : Phase File → Prop
  | .idle => False
  | .returned _ => False
  | _ => True

instance : (phase : Phase File) → Decidable phase.Busy
  | .idle => isFalse id
  | .returned _ => isFalse id
  | .waiting _ | .locked _ | .loaded _ _ | .counting _ _ _ | .counted _ _ _ _ | .truncated _ _ _ _
  | .seeked _ _ _ _ | .numbered _ _ _ _ | .prepared _ _ => isTrue trivial

def step (s : State File) (a : Nat × Event File) : Option (State File) :=
  match s.procs a.1, a.2 with
  | .idle, .call c => some (s.enter a.1 (.waiting c))
  | .returned _, .call c => some (s.enter a.1 (.waiting c))
  | .waiting c, .lockMap =>
    if s.mapLock c.file = none then
      some ({ s with mapLock := Function.update s.mapLock c.file (some a.1) }.enter a.1 (.locked c))
    else none
  | .locked c, .loadMap => some (s.load a.1 c)
  | .loaded (.allocate file key) cur, .lockCounter =>
    if s.counterLock = none then
      some ({ s with counterLock := some a.1 }.enter a.1 (.counting file key cur))
    else none
  | .counting file key cur, .readCounter succeeds =>
    match parseCounter (if succeeds then s.counter.take 32 else []) with
    | some next => some (s.enter a.1 (.counted file key cur next))
    | none => some (s.answer a.1 .failed)
  | .counted file key cur next, .truncate =>
    some ({ s with counter := [] }.enter a.1 (.truncated file key cur next))
  | .truncated file key cur next, .seek => some (s.enter a.1 (.seeked file key cur next))
  | .seeked file key cur next, .write =>
    some ({ s with counter := counterText next, counterLock := none }.enter a.1 (.numbered file key cur next))
  | .seeked _ _ _ next, .writePart n =>
    some ({ s with counter := (counterText next).take n }.answer a.1 .failed)
  | .numbered file key cur next, .writeTmp =>
    some (s.enter a.1 (.prepared (.allocate file key) (Function.update cur key (some next))))
  | .loaded (.remove file key) cur, .writeTmp =>
    some (s.enter a.1 (.prepared (.remove file key) (Function.update cur key none)))
  | .prepared c new, .rename => some ((s.install c new).answer a.1 (c.result new))
  | phase, .fail => if phase.Busy then some (s.answer a.1 .failed) else none
  | _, .crash => some ((s.release a.1).enter a.1 .idle)
  | _, _ => none

end

end Maildancer.Identity

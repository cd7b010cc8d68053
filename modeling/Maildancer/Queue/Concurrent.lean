import Maildancer.Queue.Names
import Maildancer.Transition

namespace Maildancer.Queue

open Text

-- os.Rename replaces what stands under the new name.
def putEnv (f : EnvFile) (envs : List EnvFile) : List EnvFile :=
  envs.filter (fun e => ¬ (e.path = f.path ∧ e.delivering = f.delivering)) ++ [f]

def moveEnv (f g : EnvFile) (envs : List EnvFile) : List EnvFile :=
  putEnv g (envs.filter (· ≠ f))

def putBody (b : BodyFile) (bodies : List BodyFile) : List BodyFile :=
  bodies.filter (fun e => ¬ (e.dir = b.dir ∧ e.name = b.name)) ++ [b]

def removeBody (b : BodyFile) (bodies : List BodyFile) : List BodyFile :=
  bodies.filter fun e => ¬ (e.dir = b.dir ∧ e.name = b.name)

structure Writer where
  body : BodyFile
  todo : List EnvFile
  running : Bool

-- Where cleanOrphanBodies is. For one body, filepath.Glob reads env/, then each
-- directory below it, then each directory two levels below, one at a time.
inductive Sweep
  | off
  | listing
  | top (b : BodyFile)
  | middle (b : BodyFile) (todo found : List (List Bytes))
  | bottom (b : BodyFile) (todo : List (List Bytes)) (matched : Bool)

-- The queue directory, the calls of Write by their msgid, and the scheduler.
-- Temporary files are left out: no scan and no glob takes them for anything.
structure State where
  bodies : List BodyFile
  dirs : List (List Bytes)
  envs : List EnvFile
  writers : Bytes → Option Writer
  sweep : Sweep

def State.empty : State := ⟨[], [], [], fun _ => none, .off⟩

inductive Action
  | begin (req : Request)
  | makeDir (msgid : Bytes)
  | rename (msgid : Bytes)
  | finish (msgid : Bytes)
  | claim (f : EnvFile)
  | unclaim (f : EnvFile)
  | remove (f : EnvFile)
  | startSweep (dir : List Bytes)
  | examine (b : BodyFile)
  | advance
  | endSweep

-- os.MkdirAll
def makeDirs (dir : List Bytes) (dirs : List (List Bytes)) : List (List Bytes) :=
  dirs ++ dir.inits.filter fun d => d ≠ [] ∧ d ∉ dirs

def setWriter (s : State) (msgid : Bytes) (w : Writer) : State :=
  { s with writers := Function.update s.writers msgid (some w) }

-- Write renames the body into place. Every call has an id of its own.
def beginWrite (c : CaseMap) (cfg : Config) (s : State) (req : Request) : Option State :=
  match s.writers req.msgIdHex, write c cfg req with
  | none, .ok out => some (setWriter { s with bodies := putBody out.body s.bodies } req.msgIdHex
      ⟨out.body, out.envs, true⟩)
  | _, _ => none

def makeDirStep (s : State) (msgid : Bytes) : Option State :=
  match s.writers msgid with
  | some ⟨_, f :: _, true⟩ => some { s with dirs := makeDirs f.dir s.dirs }
  | _ => none

def renameStep (s : State) (msgid : Bytes) : Option State :=
  match s.writers msgid with
  | some ⟨body, f :: todo, true⟩ =>
    if ∀ d ∈ f.dir.inits, d ≠ [] → d ∈ s.dirs then
      some (setWriter { s with envs := putEnv f s.envs } msgid ⟨body, todo, true⟩)
    else none
  | _ => none

-- Write returns, after its last envelope or early with an error.
def finishStep (s : State) (msgid : Bytes) : Option State :=
  match s.writers msgid with
  | some ⟨body, todo, true⟩ => some (setWriter s msgid ⟨body, todo, false⟩)
  | _ => none

-- Outside a sweep the scheduler, and the mail-remote it waits for, claim,
-- unclaim and remove envelopes two levels below env/. Which ones and in what
-- order is left open, so every order that RunOnce can produce is among these.
def envStep (s : State) (f : EnvFile) (envs : List EnvFile) : Option State :=
  match s.sweep with
  | .off => if f ∈ s.envs ∧ f.dir.length = 2 then some { s with envs := envs } else none
  | _ => none

-- The directory of processDomainDir has to be there.
def startSweep (s : State) (dir : List Bytes) : Option State :=
  match s.sweep with
  | .off => if dir ∈ s.dirs ∧ dir.length = 2 then some { s with sweep := .listing } else none
  | _ => none

-- Only the sweep removes bodies, so a body it has listed is there when its turn comes.
def examine (s : State) (b : BodyFile) : Option State :=
  match s.sweep with
  | .listing =>
    if b ∈ s.bodies ∧ b.dir.length = 2 ∧ hasPrefix (ascii "tmp_") b.name = false then
      some { s with sweep := .top b }
    else none
  | _ => none

def advance (s : State) : Option State :=
  match s.sweep with
  | .off | .listing => none
  | .top b => some { s with sweep := .middle b (s.dirs.filter (·.length = 1)) [] }
  | .middle b (d :: todo) found =>
    let below := s.dirs.filter fun e => e.length = 2 ∧ e.dropLast = d
    some { s with sweep := .middle b todo (found ++ below) }
  | .middle b [] found => some { s with sweep := .bottom b found false }
  | .bottom b (d :: todo) matched =>
    let here := bodyHasEnvelopes (s.envs.filter (·.dir = d)) b.name
    some { s with sweep := .bottom b todo (matched || here) }
  | .bottom _ [] true => some { s with sweep := .listing }
  | .bottom b [] false => some { s with bodies := removeBody b s.bodies, sweep := .listing }

def endSweep (s : State) : Option State :=
  match s.sweep with
  | .listing => some { s with sweep := .off }
  | _ => none

def step (c : CaseMap) (cfg : Config) (s : State) : Action → Option State
  | .begin req => beginWrite c cfg s req
  | .makeDir msgid => makeDirStep s msgid
  | .rename msgid => renameStep s msgid
  | .finish msgid => finishStep s msgid
  | .claim f => if extractMsgId f.fileName = none then none
      else envStep s f (moveEnv f f.claim s.envs)
  | .unclaim f => if f.delivering then envStep s f (moveEnv f f.unclaim s.envs) else none
  | .remove f => envStep s f (s.envs.filter (· ≠ f))
  | .startSweep dir => startSweep s dir
  | .examine b => examine s b
  | .advance => advance s
  | .endSweep => endSweep s

end Maildancer.Queue

import Maildancer.Queue

namespace Maildancer.Scheduler

open Text Queue

abbrev Path := List Bytes × Bytes

instance : LawfulBEq Path := inferInstance

inductive Status
  | delivered
  | permFail
  | tempFail
  | other (text : Bytes)
deriving DecidableEq

-- An envelope is named here by its unclaimed path. mail-remote is given, and
-- reports, the same path with the suffix of a claim.
structure DeliveryResult where
  envelope : Path
  status : Status
  smtpCode : Int
  diagnostic : Bytes
deriving DecidableEq

-- One run of mail-remote: what the scheduler can parse from its output (nothing
-- after a crash, for empty or for unparsable output) and the files it removes.
-- It reports on the envelopes it was given and removes what it has reported.
structure Outcome (given : List Path) where
  results : List DeliveryResult
  deleted : List Path
  named : ∀ r ∈ results, r.envelope ∈ given
  reported : ∀ p ∈ deleted, ∃ r ∈ results, r.envelope = p ∧
    (r.status = .delivered ∨ r.status = .permFail)

-- What a scan does not decide itself: the clock and the file times at each envelope, the iteration order of a
-- map, the state of the token buckets, whether a rename succeeds, and mail-remote.
structure Outside where
  now : Path → Nat
  isReady : Path → Bool
  order : List Bytes → List Bytes
  order_perm : ∀ ids, (order ids).Perm ids
  allow : Bytes → Bytes → Bool
  claimable : Path → Bool
  mailRemote : Bool → (given : List Path) → Outcome given

def Outside.steady (now : Nat) (isReady : Path → Bool) : Outside where
  now := fun _ => now
  isReady := isReady
  order := id
  order_perm := fun _ => List.Perm.refl _
  allow := fun _ _ => true
  claimable := fun _ => true
  mailRemote := fun _ _ => ⟨[], [], by simp, by simp⟩

-- The directories two levels below env/, the bodies and the envelopes. No
-- envelope is present both claimed and unclaimed.
structure Spool where
  dirs : List (Bytes × Bytes)
  bodies : List BodyFile
  envs : List EnvFile
  dirs_nodup : dirs.Nodup
  distinct : (envs.map EnvFile.path).Nodup

def domainDir (d : Bytes × Bytes) : List Bytes := [d.1, d.2]

def domainFromPath (d : Bytes × Bytes) : Bytes := d.2 ++ ascii "." ++ d.1

namespace Spool

def inDir (d : Bytes × Bytes) (bodies : List BodyFile) (envs : List EnvFile)
    (distinct : (envs.map EnvFile.path).Nodup) : Spool where
  dirs := [d]
  bodies := bodies
  envs := envs
  dirs_nodup := List.nodup_singleton d
  distinct := distinct

def remove (s : Spool) (gone : List Path) : Spool where
  dirs := s.dirs
  bodies := s.bodies
  envs := s.envs.filter fun f => f.path ∉ gone
  dirs_nodup := s.dirs_nodup
  distinct := s.distinct.sublist (List.filter_sublist.map _)

def mark (s : Spool) (flag : EnvFile → Bool) : Spool where
  dirs := s.dirs
  bodies := s.bodies
  envs := s.envs.map fun f => { f with delivering := flag f }
  dirs_nodup := s.dirs_nodup
  distinct := by
    rw [List.map_map]
    exact s.distinct

def claim (s : Spool) (paths : List Path) : Spool :=
  s.mark fun f => f.delivering || f.path ∈ paths

def unclaim (s : Spool) (paths : List Path) : Spool :=
  s.mark fun f => f.delivering && f.path ∉ paths

def recoverStaleDeliveries (s : Spool) : Spool :=
  s.mark fun f => f.delivering && f.dir.length ≠ 2

def cleanOrphanBodies (s : Spool) : Spool :=
  { s with bodies := s.bodies.filter fun b =>
      b.dir.length ≠ 2 || hasPrefix (ascii "tmp_") b.name || bodyHasEnvelopes s.envs b.name }

end Spool

structure Entry where
  path : Path
  expired : Bool
  env : QueueEnvelope
deriving DecidableEq

def expired (now : Nat) (env : QueueEnvelope) : Bool := env.ttl ≠ 0 && env.ttl < now

def pick (o : Outside) (f : EnvFile) : Option (Bytes × Entry) :=
  match extractMsgId f.fileName, f.content with
  | some msgid, some env =>
    if expired (o.now f.path) env || o.isReady f.path then
      some (msgid, ⟨f.path, expired (o.now f.path) env, env⟩)
    else none
  | _, _ => none

-- os.ReadDir returns the names in order.
def readDir (s : Spool) (d : Bytes × Bytes) : List EnvFile :=
  (s.envs.filter fun f => f.dir = domainDir d).insertionSort fun f g => f.fileName ≤ g.fileName

def scan (o : Outside) (s : Spool) (d : Bytes × Bytes) : List (Bytes × Entry) :=
  (readDir s d).filterMap (pick o)

structure Group where
  msgid : Bytes
  entries : List Entry

def group (picked : List (Bytes × Entry)) (msgid : Bytes) : Group :=
  ⟨msgid, picked.filterMap fun (m, e) => if m = msgid then some e else none⟩

def groups (o : Outside) (s : Spool) (d : Bytes × Bytes) : List Group :=
  let picked := scan o s d
  (o.order (picked.map Prod.fst).dedup).map (group picked)

structure Config where
  dsnEnabled : Bool
  hostname : Bytes

structure BounceData where
  origin : Bytes
  recipient : Bytes
  domain : Bytes
  smtpCode : Int
  diagnostic : Bytes
  queuedAt : Nat
  hostname : Bytes
  expiredAt : Option Nat
deriving DecidableEq

structure Bounce where
  envelope : Path
  data : BounceData
deriving DecidableEq

structure Invocation where
  final : Bool
  body : BodyFile
  batch : List Entry
  results : List DeliveryResult

structure Run where
  spool : Spool
  invocations : List Invocation
  bounces : List Bounce

-- The bounce with which Generate is called, if it comes to that. A path without
-- an entry reads as the zero envelope, which has no origin.
def generateAndDeliverDsn (cfg : Config) (env : Option QueueEnvelope) (r : DeliveryResult)
    (domain : Bytes) (expired : Bool) : List Bounce :=
  match env with
  | none => []
  | some env =>
    if !cfg.dsnEnabled || env.origin = [] then []
    else [⟨r.envelope, ⟨env.origin, env.recipient, domain, r.smtpCode, r.diagnostic, env.created,
      cfg.hostname, if expired then some env.ttl else none⟩⟩]

def envByPath (claimed : List Entry) (p : Path) : Option QueueEnvelope :=
  (claimed.find? (·.path = p)).map Entry.env

def generateDsnsForExpired (cfg : Config) (claimed : List Entry) (domain : Bytes)
    (results : List DeliveryResult) : List Bounce :=
  (results.filter (·.status ≠ .delivered)).flatMap fun r =>
    generateAndDeliverDsn cfg (envByPath claimed r.envelope) r domain true

def generateDsnsForPermFail (cfg : Config) (claimed : List Entry) (domain : Bytes)
    (results : List DeliveryResult) : List Bounce :=
  (results.filter (·.status = .permFail)).flatMap fun r =>
    generateAndDeliverDsn cfg (envByPath claimed r.envelope) r domain false

section Group

variable (cfg : Config) (o : Outside) (domain : Bytes)

-- An expired envelope is tried alone, with --final, and removed whatever comes of it.
def finalAttempt (body : BodyFile) (claimed : List Entry) (run : Run) (e : Entry) : Run :=
  let out := o.mailRemote true [e.path]
  { spool := (run.spool.remove out.deleted).remove [e.path]
    invocations := run.invocations ++ [⟨true, body, [e], out.results⟩]
    bounces := run.bounces ++ generateDsnsForExpired cfg claimed domain out.results }

def activeAttempt (body : BodyFile) (claimed active : List Entry) (run : Run) : Run :=
  let out := o.mailRemote false (active.map Entry.path)
  { spool := run.spool.remove out.deleted
    invocations := run.invocations ++ [⟨false, body, active, out.results⟩]
    bounces := run.bounces ++ generateDsnsForPermFail cfg claimed domain out.results }

def deliverGroup (body : BodyFile) (entries : List Entry) (run : Run) : Run :=
  let claimed := entries.filter fun e => o.claimable e.path
  let active := claimed.filter fun e => !e.expired
  let run := { run with spool := run.spool.claim (claimed.map Entry.path) }
  let run := (claimed.filter Entry.expired).foldl (finalAttempt cfg o domain body claimed) run
  let run := if active = [] then run else activeAttempt cfg o domain body claimed active run
  { run with spool := run.spool.unclaim (active.map Entry.path) }

-- Without a body the expired envelopes of the group are removed.
def processGroup (run : Run) (g : Group) : Run :=
  if !o.allow domain g.msgid then run
  else match resolveBody run.spool.bodies g.msgid with
    | none => { run with spool := run.spool.remove ((g.entries.filter Entry.expired).map Entry.path) }
    | some body => deliverGroup cfg o domain body g.entries run

end Group

def processDomainDir (cfg : Config) (o : Outside) (run : Run) (d : Bytes × Bytes) : Run :=
  let run := (groups o run.spool d).foldl (processGroup cfg o (domainFromPath d)) run
  { run with spool := run.spool.cleanOrphanBodies }

def scanEnvDir (cfg : Config) (o : Outside) (run : Run) : Run :=
  run.spool.dirs.foldl (processDomainDir cfg o) run

def runOnce (cfg : Config) (o : Outside) (s : Spool) : Run :=
  scanEnvDir cfg o ⟨s.recoverStaleDeliveries, [], []⟩

-- mail-remote takes the domain after the first at sign.
def recipientDomain (env : QueueEnvelope) : Option Bytes := (cut atSign env.recipient).map Prod.snd

end Maildancer.Scheduler

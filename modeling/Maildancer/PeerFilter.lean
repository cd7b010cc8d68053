import Maildancer.Keyspace
import Maildancer.Transition

namespace Maildancer.PeerFilter

open Text

-- A parsed address: the 16 bytes of a net.IP as two halves.
structure Address where
  high : UInt64
  low : UInt64
deriving DecidableEq

def Address.to4 (a : Address) : Option UInt32 :=
  if a.high = 0 ∧ a.low >>> 32 = 0xffff then some a.low.toUInt32 else none

def Address.mask64 (a : Address) : Address := { a with low := 0 }

-- net.ParseIP and the text forms of package net.
structure NetText where
  parseIP : Bytes → Option Address
  format4 : UInt32 → Bytes
  format6 : Address → Bytes

-- Normalize refuses any other setting.
inductive AuthBanScope
  | authListeners
  | all
deriving DecidableEq

-- The policy. Durations are in nanoseconds; an allowlist entry is the Contains method of its network.
structure Config where
  allowlist : List (Address → Bool)
  banTTL : Int
  banTTLRepeat : Int
  acceptTarpit : Int
  abuseThresholds : Bytes → Option Int
  abuseWindow : Int
  knownGood : Bool
  goodTTL : Int
  authBanScope : AuthBanScope
  revokeAfter : Int

def day : Int := 24 * 3600 * 1000000000

-- The allowlist is 127.0.0.0/8 and ::1/128.
def defaults : Config where
  allowlist := [fun a => a.to4.any fun v4 : UInt32 => v4 >>> 24 = 127, fun a => a = ⟨0, 1⟩]
  banTTL := day
  banTTLRepeat := 7 * day
  acceptTarpit := 30 * 1000000000
  abuseThresholds signal :=
    if signal = ascii "invalid_recipient" then some 10
    else if signal = ascii "relay_denied" then some 5 else none
  abuseWindow := 3600 * 1000000000
  knownGood := true
  goodTTL := 30 * day
  authBanScope := .authListeners
  revokeAfter := 10

structure Filter where
  net : NetText
  cfg : Config

def keyBan : Bytes := ascii "peer:ban:"

def keyStrikes : Bytes := ascii "peer:strikes:"

def keyAbuse : Bytes := ascii "smtpd:abuse:ip:"

def keyGood : Bytes := ascii "peer:good:"

def keySuppressed : Bytes := ascii "peer:suppressed:"

def strikeTTL : Int := 30 * day

def reasonBanned : Bytes := ascii "banned"

def reasonAbuse : Bytes := ascii "abuse"

def reasonNonexistentAccount : Bytes := ascii "nonexistent_account"

def reasonManual : Bytes := ascii "manual"

def authDerivedReasons : List Bytes := [reasonNonexistentAccount]

def isAuthDerived (reason : Bytes) : Bool := reason ∈ authDerivedReasons

structure Verdict where
  banned : Bool
  tarpit : Int
  reason : Bytes
  shadowBanned : Bool
deriving DecidableEq

def Verdict.allow : Verdict := ⟨false, 0, [], false⟩

inductive FilterError
  | emptySignal
  | unparseable (ip : Bytes)
  | recordGood
  | refreshGood
  | writeBan
  | incrementAbuse
  | deleteBan
  | deleteStrikes (removed : Bool)
deriving DecidableEq

inductive Command
  | getBan | getGood | incrSuppressed | expireSuppressed | delGood
  | incrGood | expireGood
  | incrStrikes | expireStrikes | setBan
  | incrAbuse | expireAbuse
  | delBan | delCounters
deriving DecidableEq

-- How go-redis sends the expiration of SET; KeepTTL is -1.
def setExpiration (d : Int) : Expiration :=
  if 0 < d then .after (max 1 (d / 1000000)) else if d = -1 then .keep else .never

-- How go-redis sends the duration of EXPIRE.
def expireSeconds (d : Int) : Int := if 0 < d ∧ d < 1000000000 then 1 else Int.tdiv d 1000000000

-- Redis as one operation meets it: the keys, the clock, the commands that cannot
-- be carried out, and whether one has failed so far.
structure Conn where
  keys : Keyspace
  now : Int
  down : Command → Bool
  erred : Bool

namespace Conn

def fail (c : Conn) : Conn := { c with erred := true }

-- The outer option is the error, the inner one redis.Nil.
def get (c : Conn) (cmd : Command) (key : Bytes) : Conn × Option (Option Bytes) :=
  if c.down cmd then (c.fail, none) else (c, some (Keyspace.get c.keys c.now key))

def incr (c : Conn) (cmd : Command) (key : Bytes) : Conn × Option Int :=
  if c.down cmd then (c.fail, none)
  else
    match Keyspace.incr c.keys c.now key with
    | none => (c.fail, none)
    | some (keys, n) => ({ c with keys := keys }, some n)

def expire (c : Conn) (cmd : Command) (key : Bytes) (ttl : Int) : Conn × Bool :=
  if c.down cmd then (c.fail, false)
  else ({ c with keys := Keyspace.expire c.keys c.now key (expireSeconds ttl) }, true)

def set (c : Conn) (cmd : Command) (key value : Bytes) (ttl : Int) : Conn × Bool :=
  if c.down cmd then (c.fail, false)
  else ({ c with keys := Keyspace.set c.keys c.now key value (setExpiration ttl) }, true)

-- The answer tells whether a key was there.
def del (c : Conn) (cmd : Command) (keys : List Bytes) : Conn × Option Bool :=
  if c.down cmd then (c.fail, none)
  else ({ c with keys := keys.foldl Keyspace.del c.keys },
    some (keys.any fun key => (Keyspace.live c.keys c.now key).isSome))

end Conn

-- The unit a ban applies to: an IPv4 address or an IPv6 /64, "" where the text is no address.
def normalizePrefix (net : NetText) (ip : Bytes) : Bytes :=
  match net.parseIP ip with
  | none => []
  | some a =>
    match a.to4 with
    | some v4 => net.format4 v4
    | none => net.format6 a.mask64 ++ ascii "/64"

namespace Filter

variable (f : Filter)

def allowed (ip : Bytes) : Bool :=
  match f.net.parseIP ip with
  | none => false
  | some a => f.cfg.allowlist.any fun contains => contains a

-- Every suppression is counted. Past RevokeAfter the marker is dropped.
def suppressBan (c : Conn) (peer : Bytes) : Conn × Bool :=
  if ¬ f.cfg.knownGood then (c, false)
  else
    match c.get .getGood (keyGood ++ peer) with
    | (c, none) => (c, false)
    | (c, some none) => (c, false)
    | (c, some (some _)) =>
      match c.incr .incrSuppressed (keySuppressed ++ peer) with
      | (c, none) => (c, true)
      | (c, some suppressed) =>
        let c := if suppressed = 1 then
          (c.expire .expireSuppressed (keySuppressed ++ peer) f.cfg.goodTTL).1 else c
        if 0 < f.cfg.revokeAfter ∧ f.cfg.revokeAfter < suppressed then
          ((c.del .delGood [keyGood ++ peer]).1, false)
        else (c, true)

def check (c : Conn) (ip : Bytes) (authFacing : Bool) : Conn × Verdict :=
  if f.allowed ip then (c, .allow)
  else if normalizePrefix f.net ip = [] then (c, .allow)
  else
    match c.get .getBan (keyBan ++ normalizePrefix f.net ip) with
    | (c, none) => (c, .allow)
    | (c, some none) => (c, .allow)
    | (c, some (some reason)) =>
      match f.suppressBan c (normalizePrefix f.net ip) with
      | (c, true) => (c, .allow)
      | (c, false) =>
        if ¬ authFacing ∧ f.cfg.authBanScope = .authListeners ∧ isAuthDerived reason then
          (c, ⟨false, 0, reasonBanned, true⟩)
        else (c, ⟨true, f.cfg.acceptTarpit, reasonBanned, false⟩)

def recordGood (c : Conn) (ip : Bytes) : Conn × Except FilterError Unit :=
  if ¬ f.cfg.knownGood then (c, .ok ())
  else if f.allowed ip then (c, .ok ())
  else if normalizePrefix f.net ip = [] then (c, .error (.unparseable ip))
  else
    match c.incr .incrGood (keyGood ++ normalizePrefix f.net ip) with
    | (c, none) => (c, .error .recordGood)
    | (c, some _) =>
      match c.expire .expireGood (keyGood ++ normalizePrefix f.net ip) f.cfg.goodTTL with
      | (c, false) => (c, .error .refreshGood)
      | (c, true) => (c, .ok ())

def ttlFor (strikes : Int) : Int := if 1 < strikes then f.cfg.banTTLRepeat else f.cfg.banTTL

-- The strike counter. Without it the base TTL applies.
def strike (c : Conn) (peer : Bytes) : Conn × Int :=
  match c.incr .incrStrikes (keyStrikes ++ peer) with
  | (c, none) => (c, 1)
  | (c, some strikes) => ((c.expire .expireStrikes (keyStrikes ++ peer) strikeTTL).1, strikes)

def ban (c : Conn) (ip reason : Bytes) : Conn × Except FilterError Unit :=
  if f.allowed ip then (c, .ok ())
  else if normalizePrefix f.net ip = [] then (c, .error (.unparseable ip))
  else
    let (c, strikes) := strike c (normalizePrefix f.net ip)
    match c.set .setBan (keyBan ++ normalizePrefix f.net ip) reason (f.ttlFor strikes) with
    | (c, false) => (c, .error .writeBan)
    | (c, true) => (c, .ok ())

def abuseKey (peer signal : Bytes) : Bytes := keyAbuse ++ peer ++ ascii ":" ++ signal

-- A signal without a positive threshold is only counted.
def crosses (signal : Bytes) (n : Int) : Bool :=
  match f.cfg.abuseThresholds signal with
  | none => false
  | some threshold => 0 < threshold ∧ threshold ≤ n

def report (c : Conn) (ip signal : Bytes) : Conn × Except FilterError Unit :=
  if signal = [] then (c, .error .emptySignal)
  else if f.allowed ip then (c, .ok ())
  else if normalizePrefix f.net ip = [] then (c, .error (.unparseable ip))
  else
    match c.incr .incrAbuse (abuseKey (normalizePrefix f.net ip) signal) with
    | (c, none) => (c, .error .incrementAbuse)
    | (c, some n) =>
      let c := if n = 1 then
        (c.expire .expireAbuse (abuseKey (normalizePrefix f.net ip) signal) f.cfg.abuseWindow).1 else c
      if f.crosses signal n then f.ban c ip (reasonAbuse ++ ascii ":" ++ signal) else (c, .ok ())

def unban (c : Conn) (ip : Bytes) : Conn × Except FilterError Bool :=
  if normalizePrefix f.net ip = [] then (c, .error (.unparseable ip))
  else
    match c.del .delBan [keyBan ++ normalizePrefix f.net ip] with
    | (c, none) => (c, .error .deleteBan)
    | (c, some removed) =>
      match c.del .delCounters [keyStrikes ++ normalizePrefix f.net ip,
          keySuppressed ++ normalizePrefix f.net ip] with
      | (c, none) => (c, .error (.deleteStrikes removed))
      | (c, some _) => (c, .ok removed)

end Filter

inductive Op
  | ban (ip reason : Bytes)
  | report (ip signal : Bytes)
  | recordGood (ip : Bytes)
  | check (ip : Bytes) (authFacing : Bool)
  | unban (ip : Bytes)
deriving DecidableEq

inductive LoginResult
  | success
  | userNotFound
  | domainNotHosted
  | otherFailure
deriving DecidableEq

-- The operation that Login performs on the filter.
def loginOp (clientIp : Bytes) : LoginResult → Option Op
  | .success => if clientIp = [] then none else some (.recordGood clientIp)
  | .userNotFound => if clientIp = [] then none else some (.ban clientIp reasonNonexistentAccount)
  | .domainNotHosted => if clientIp = [] then none else some (.report clientIp (ascii "unhosted_domain"))
  | .otherFailure => none

def Filter.exec (f : Filter) (c : Conn) : Op → Conn
  | .ban ip reason => (f.ban c ip reason).1
  | .report ip signal => (f.report c ip signal).1
  | .recordGood ip => (f.recordGood c ip).1
  | .check ip authFacing => (f.check c ip authFacing).1
  | .unban ip => (f.unban c ip).1

structure World where
  keys : Keyspace
  clock : Int

structure Event where
  op : Op
  time : Int
  down : Command → Bool

def World.conn (w : World) (time : Int) (down : Command → Bool) : Conn := ⟨w.keys, time, down, false⟩

def Filter.next (f : Filter) (w : World) (e : Event) : World :=
  ⟨(f.exec (w.conn e.time e.down) e.op).keys, e.time⟩

-- The clock does not run backwards.
def Filter.step (f : Filter) (w : World) (e : Event) : Option World :=
  if w.clock ≤ e.time then some (f.next w e) else none

end Maildancer.PeerFilter

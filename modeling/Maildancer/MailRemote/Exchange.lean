import Maildancer.MailRemote
import Maildancer.MailRemote.Policy

namespace Maildancer.MailRemote

open Text

structure MX where
  host : Bytes
  pref : Nat
deriving DecidableEq

inductive DnsError
  | notFound (text : Bytes)
  | temporary (text : Bytes)
deriving DecidableEq

def DnsError.text : DnsError → Bytes
  | notFound text => text
  | temporary text => text

structure Resolver where
  lookupMX : Bytes → Except DnsError (List MX)
  lookupHost : Bytes → Except DnsError (List Bytes)

-- sort.Slice by preference. It leaves open how hosts of equal preference stand.
structure PrefSort where
  sort : List MX → List MX
  perm : ∀ mxs, (sort mxs).Perm mxs
  sorted : ∀ mxs, (sort mxs).Pairwise fun a b => a.pref ≤ b.pref

structure Host where
  name : Bytes
  port : Bytes
deriving DecidableEq

-- net.JoinHostPort
def Host.addr (h : Host) : Bytes :=
  if h.name.contains 58 then ascii "[" ++ h.name ++ ascii "]:" ++ h.port else h.name ++ ascii ":" ++ h.port

def isNullMX : List MX → Bool
  | [mx] => mx.pref = 0 ∧ (mx.host = [dot] ∨ mx.host = [])
  | _ => false

def usableHosts (sorting : PrefSort) (mxs : List MX) : List Host :=
  (sorting.sort mxs).filterMap fun mx =>
    let name := trimSuffix [dot] mx.host
    if name = [] then none else some ⟨name, ascii "25"⟩

-- The verb %v for the error of a lookup.
def describe {α : Type} : Except DnsError α → Bytes
  | .error err => err.text
  | .ok _ => ascii "<nil>"

def lookupAddress (r : Resolver) (domain : Bytes) : Except Err (List Host) :=
  match r.lookupHost domain with
  | .ok (_ :: _) => .ok [⟨domain, ascii "25"⟩]
  | addrs => .error (.mxPermanent (.text (ascii "no MX or A/AAAA records for " ++ domain ++ ascii " (mx: " ++
      describe (r.lookupMX domain) ++ ascii ", a: " ++ describe addrs ++ ascii ")")))

def lookup (r : Resolver) (sorting : PrefSort) (domain : Bytes) : Except Err (List Host) :=
  match r.lookupMX domain with
  | .ok mxs =>
    if isNullMX mxs then
      .error (.mxPermanent (.text (ascii "domain " ++ domain ++ ascii " publishes null MX (RFC 7505)")))
    else if usableHosts sorting mxs = [] then lookupAddress r domain
    else .ok (usableHosts sorting mxs)
  | .error _ => lookupAddress r domain

def classifyMXError (err : Err) : Err := if err.isMxPermanent then .permanent err else err

inductive Channel
  | plain
  | unverified
  | verified
deriving DecidableEq

-- What one TCP connection to an address meets: the connect itself, STARTTLS
-- with or without a verified certificate, and EHLO.
structure Line where
  tcp : Option Fault
  starttls : Bool → Option Fault
  hello : Option Fault
  session : Session

structure Connection where
  channel : Channel
  session : Session

def dialTCP (addr : Bytes) (line : Line) : Option Err :=
  line.tcp.map fun f => .wrap (ascii "dial " ++ addr) (.fault f)

def greet (message : Bytes) (channel : Channel) (line : Line) : Except Err Connection :=
  match line.hello with
  | some f => .error (.wrap message (.fault f))
  | none => .ok ⟨channel, line.session⟩

def dialMX (lines : Nat → Line) (addr : Bytes) : Except Err Connection :=
  match dialTCP addr (lines 0) with
  | some err => .error err
  | none =>
    match (lines 0).starttls true with
    | none => greet (ascii "post-tls ehlo " ++ addr) .verified (lines 0)
    | some _ =>
      match dialTCP addr (lines 1) with
      | some err => .error err
      | none =>
        match (lines 1).starttls false with
        | none => greet (ascii "post-tls ehlo " ++ addr) .unverified (lines 1)
        | some _ =>
          match dialTCP addr (lines 2) with
          | some err => .error err
          | none => greet (ascii "ehlo " ++ addr) .plain (lines 2)

def dialMXStrict (lines : Nat → Line) (addr : Bytes) : Except Err Connection :=
  match dialTCP addr (lines 0) with
  | some err => .error err
  | none =>
    match (lines 0).starttls true with
    | some f => .error (.wrap (ascii "mta-sts enforce requires verified TLS to " ++ addr) (.fault f))
    | none => greet (ascii "post-tls ehlo " ++ addr) .verified (lines 0)

inductive Dialer
  | dialMX
  | dialMXStrict
deriving DecidableEq

def Dialer.dial : Dialer → (Nat → Line) → Bytes → Except Err Connection
  | dialMX => MailRemote.dialMX
  | dialMXStrict => MailRemote.dialMXStrict

def maxMXAttempts : Nat := 5

-- What the world answers: the resolver, the size of the body file and the
-- lines of the numbered attempt on an address.
structure World where
  resolver : Resolver
  sorting : PrefSort
  body : Except Bytes Nat
  lines : Nat → Bytes → Nat → Line

structure Request where
  domain : Bytes
  bodyPath : Bytes
  envs : List Envelope
  maxTxn : Int
  policy : Option Policy

inductive Contact
  | failed
  | oversize
  | connected (channel : Channel)
deriving DecidableEq

structure Attempt where
  host : Host
  dialer : Dialer
  contact : Contact
deriving DecidableEq

-- The variables of the loop. The counter of attempts is the length of the list of them.
structure Loop where
  pending : List Envelope
  lastErr : Option Err
  results : Results
  tried : List Attempt
  sent : List Transmission

def Loop.start (envs : List Envelope) : Loop := ⟨envs, none, ∅, [], []⟩

section Delivery

variable (c : CaseMap) (w : World) (req : Request)

def tryHost (dialer : Dialer) (bodySize : Nat) (s : Loop) (h : Host) : Loop :=
  match dialer.dial (w.lines s.tried.length h.addr) h.addr with
  | .error err => { s with lastErr := some err, tried := s.tried ++ [⟨h, dialer, .failed⟩] }
  | .ok conn =>
    match checkSize conn.session bodySize with
    | some err => { s with lastErr := some err, tried := s.tried ++ [⟨h, dialer, .oversize⟩] }
    | none =>
      let out := deliverAll req.bodyPath conn.session s.tried.length req.maxTxn 0 s.pending s.results
      { pending := out.retryable
        lastErr := if out.retryable = [] then s.lastErr else out.cause
        results := out.results
        tried := s.tried ++ [⟨h, dialer, .connected conn.channel⟩]
        sent := s.sent ++ out.sent }

def tryHosts (dialer : Dialer) (bodySize : Nat) : List Host → Loop → Loop
  | [], s => s
  | h :: rest, s =>
    if s.pending = [] ∨ maxMXAttempts ≤ s.tried.length then s
    else tryHosts dialer bodySize rest (tryHost w req dialer bodySize s h)

def selectHosts (hosts : List Host) : Except Err (List Host × Dialer) :=
  match req.policy with
  | some p =>
    if p.mode = .enforce then
      let matching := hosts.filter fun h => p.mxMatches c h.name
      if matching = [] then
        .error (.text (ascii "mta-sts: no MX host for " ++ req.domain ++ ascii " matches its enforce policy"))
      else .ok (matching, .dialMXStrict)
    else .ok (hosts, .dialMX)
  | none => .ok (hosts, .dialMX)

structure Run where
  results : Results
  tried : List Attempt
  sent : List Transmission

def Run.failed (err : Err) (envs : List Envelope) : Run := ⟨recordAll err envs ∅, [], []⟩

def finalError (domain : Bytes) (lastErr : Option Err) : Err :=
  .wrap (ascii "all usable MX hosts failed for " ++ domain) (lastErr.getD (.text (ascii "no MX hosts to try")))

def Loop.finish (domain : Bytes) (s : Loop) : Run :=
  ⟨recordAll (finalError domain s.lastErr) s.pending s.results, s.tried, s.sent⟩

def deliverViaMX : Run :=
  match lookup w.resolver w.sorting req.domain with
  | .error err => .failed (classifyMXError err) req.envs
  | .ok hosts =>
    match selectHosts c req hosts with
    | .error err => .failed err req.envs
    | .ok (hosts, dialer) =>
      match w.body with
      | .error text => .failed (.wrap (ascii "stat body " ++ req.bodyPath) (.fault (.other text))) req.envs
      | .ok bodySize =>
        (tryHosts w req dialer bodySize hosts (.start req.envs)).finish req.domain

end Delivery

end Maildancer.MailRemote

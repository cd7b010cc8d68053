import Maildancer.Text

namespace Maildancer.Smtpd

open Text

structure SmtpError where
  code : Nat
  enhancedCode : Nat × Nat × Nat
  message : Bytes
deriving DecidableEq

structure LoginResult where
  mailbox : Bytes
  maxSendsPerHour : Int

inductive LoginError
  | resourceExhausted
  | unauthenticated
  | other

structure RecipientInfo where
  domainIsLocal : Bool
  userExists : Bool
  deferRejection : Bool

inductive SpamAction
  | accept
  | reject
  | tempFail
  | flag
deriving DecidableEq

structure CheckResult where
  action : SpamAction
  score : Rat

inductive FailMode
  | failOpen
  | failTempFail
  | failReject
deriving DecidableEq

structure Backend where
  smDelivery : Bool
  senderRateLimiter : Bool
  maxSendsPerHour : Int
  spamEnabled : Bool
  failMode : FailMode
  rejectThreshold : Rat
  tempFailThreshold : Rat

structure Session where
  mailFrom : Bytes
  mailFromSeen : Bool
  recipients : List Bytes
  remoteRecipients : List Bytes
  authUser : Bytes
  loginResult : Option LoginResult
  deferredInvalidRecipient : Bytes

def Session.new : Session := ⟨[], false, [], [], [], none, []⟩

def CheckResult.shouldReject (r : CheckResult) (threshold : Rat) : Bool :=
  r.action = .reject || (0 < threshold && threshold ≤ r.score)

def CheckResult.shouldTempFail (r : CheckResult) (threshold : Rat) : Bool :=
  r.action = .tempFail || (0 < threshold && threshold ≤ r.score)

def extractDomain (c : CaseMap) (email : Bytes) : Bytes :=
  match cutLast 64 (unbracket email) with
  | none => []
  | some (_, domain) => c.lower domain

def loginRefused : LoginError → SmtpError
  | .resourceExhausted => ⟨421, (4, 7, 0), ascii "Too many failed authentication attempts, try again later"⟩
  | .unauthenticated => ⟨535, (5, 7, 8), ascii "Authentication credentials invalid"⟩
  | .other => ⟨454, (4, 7, 0), ascii "Temporary authentication failure"⟩

-- smtp.ErrAuthUnsupported
def authUnsupported : SmtpError := ⟨502, (5, 7, 0), ascii "Authentication not supported"⟩

def auth (b : Backend) (s : Session) (login : Except LoginError LoginResult) :
    Session × Except SmtpError Unit :=
  if !b.smDelivery then (s, .error authUnsupported)
  else match login with
    | .error e => (s, .error (loginRefused e))
    | .ok result => ({ s with authUser := result.mailbox, loginResult := some result }, .ok ())

def maxRate (b : Backend) (s : Session) : Int :=
  match s.loginResult with
  | some result => if 0 < result.maxSendsPerHour then result.maxSendsPerHour else b.maxSendsPerHour
  | none => b.maxSendsPerHour

-- The sender of an authenticated session is its own address or empty.
def senderMatches (c : CaseMap) (sender user : Bytes) : Prop :=
  sender = [] ∨ c.lower (unbracket sender) = c.lower user

instance (c : CaseMap) (sender user : Bytes) : Decidable (senderMatches c sender user) :=
  inferInstanceAs (Decidable (_ ∨ _))

-- The rate limiter's answer is given with the call.
def mail (c : CaseMap) (b : Backend) (s : Session) (sender : Bytes) (allowed : Bool) :
    Session × Except SmtpError Unit :=
  if s.authUser ≠ [] ∧ b.senderRateLimiter ∧ 0 < maxRate b s ∧ !allowed then
    (s, .error ⟨452, (4, 7, 1), ascii "Too many messages, try again later"⟩)
  else if s.authUser ≠ [] ∧ ¬ senderMatches c sender s.authUser then
    (s, .error ⟨553, (5, 7, 1), ascii "Sender address not authorized for this account"⟩)
  else ({ s with mailFrom := sender, mailFromSeen := true }, .ok ())

def acceptRecipient (s : Session) (recipient : Bytes) (info : RecipientInfo) :
    Session × Except SmtpError Unit :=
  if !info.domainIsLocal then
    if s.authUser = [] then (s, .error ⟨550, (5, 7, 1), ascii "Relay denied"⟩)
    else ({ s with remoteRecipients := s.remoteRecipients ++ [recipient] }, .ok ())
  else if !info.userExists then
    if info.deferRejection then ({ s with deferredInvalidRecipient := recipient }, .ok ())
    else (s, .error ⟨550, (5, 1, 1), ascii "User unknown"⟩)
  else ({ s with recipients := s.recipients ++ [recipient] }, .ok ())

-- What ValidateRecipient answers, nothing where it fails.
def rcpt (c : CaseMap) (b : Backend) (s : Session) (recipient : Bytes) (answer : Option RecipientInfo) :
    Session × Except SmtpError Unit :=
  if 0 < s.recipients.length + s.remoteRecipients.length ∨ s.deferredInvalidRecipient ≠ [] then
    (s, .error ⟨452, (4, 5, 3), ascii "One recipient at a time"⟩)
  else if extractDomain c recipient = [] then
    (s, .error ⟨550, (5, 1, 2), ascii "Invalid address format"⟩)
  else if !b.smDelivery then ({ s with recipients := s.recipients ++ [recipient] }, .ok ())
  else match answer with
    | none => (s, .error ⟨451, (4, 3, 0), ascii "Temporary lookup failure"⟩)
    | some info => acceptRecipient s recipient info

def reset (s : Session) : Session :=
  { Session.new with authUser := s.authUser, loginResult := s.loginResult }

inductive DeliverOutcome
  | delivered (folder : Bytes)
  | redirect (addresses : List Bytes)
  | failed

-- The From header as mail.ReadMessage and mail.ParseAddressList see it.
inductive FromHeader
  | unparsable
  | missing
  | invalid
  | addresses (first : Bytes) (more : List Bytes)

structure Transaction where
  readFails : Bool
  spamCheck : Option CheckResult
  msgid : Option Bytes
  deliver : Bytes → Bool → DeliverOutcome
  validate : Bytes → Option RecipientInfo
  fromHeader : FromHeader
  enqueue : List Bytes → Bool

inductive Dispatch
  | deliver (sender recipient : Bytes) (forwarded : Bool) (msgid : Bytes)
  | enqueue (sender : Bytes) (recipients : List Bytes) (forwarded : Bool) (msgid : Bytes)
  | notify (recipient folder : Bytes)
deriving DecidableEq

-- The checks before any message data is read.
def precheck (b : Backend) (s : Session) : Option SmtpError :=
  if !s.mailFromSeen then
    some ⟨503, (5, 5, 1), ascii "Bad sequence of commands: MAIL FROM required"⟩
  else if s.recipients.length + s.remoteRecipients.length = 0 ∧ s.deferredInvalidRecipient = [] then
    some ⟨503, (5, 5, 1), ascii "Bad sequence of commands: RCPT TO required"⟩
  else if 0 < s.recipients.length ∧ !b.smDelivery then
    some ⟨451, (4, 3, 0), ascii "Delivery not configured"⟩
  else if s.recipients.length = 0 ∧ 0 < s.remoteRecipients.length ∧ !b.smDelivery then
    some ⟨451, (4, 3, 0), ascii "Remote delivery not available, try again later"⟩
  else none

def screen (b : Backend) (t : Transaction) : Option SmtpError :=
  if b.spamEnabled then
    match t.spamCheck with
    | none => match b.failMode with
      | .failReject => some ⟨550, (5, 7, 1), ascii "Spam check failed"⟩
      | .failTempFail => some ⟨451, (4, 7, 1), ascii "Temporary spam check failure, try again later"⟩
      | .failOpen => none
    | some result =>
      if result.shouldReject b.rejectThreshold then some ⟨550, (5, 7, 1), ascii "Message rejected"⟩
      else if 0 < b.tempFailThreshold && result.shouldTempFail b.tempFailThreshold then
        some ⟨451, (4, 7, 1), ascii "Message deferred, please try again later"⟩
      else none
  else if t.readFails then some ⟨451, (4, 3, 0), ascii "Error reading message"⟩
  else none

-- Forward targets are delivered or enqueued one after another until one fails.
def followRedirect (s : Session) (t : Transaction) (msgid : Bytes) : List Bytes → List Dispatch × Bool
  | [] => ([], true)
  | target :: rest =>
    match t.validate target with
    | none => ([], false)
    | some info =>
      if !info.domainIsLocal then
        let call := Dispatch.enqueue s.mailFrom [target] true msgid
        if t.enqueue [target] then
          let (calls, ok) := followRedirect s t msgid rest
          (call :: calls, ok)
        else ([call], false)
      else
        let call := Dispatch.deliver s.mailFrom target true msgid
        match t.deliver target true with
        | .delivered _ =>
          let (calls, ok) := followRedirect s t msgid rest
          (call :: Dispatch.notify target (ascii "INBOX") :: calls, ok)
        | _ => ([call], false)

def deliverLocal (s : Session) (t : Transaction) (msgid : Bytes) : List Dispatch × Bool :=
  match s.recipients with
  | [] => ([], true)
  | first :: _ =>
    let call := Dispatch.deliver s.mailFrom first false msgid
    match t.deliver first false with
    | .failed => ([call], false)
    | .redirect [] => ([call], false)
    | .redirect addresses =>
      let (calls, ok) := followRedirect s t msgid addresses
      (call :: calls, ok)
    | .delivered folder =>
      (call :: s.recipients.map fun r =>
        Dispatch.notify r (if folder = [] then ascii "INBOX" else folder), true)

def checkFromAlignment (c : CaseMap) (s : Session) : FromHeader → Option SmtpError
  | .unparsable => some ⟨550, (5, 6, 0), ascii "Message headers could not be parsed"⟩
  | .missing => some ⟨550, (5, 6, 0), ascii "Message must contain a From header"⟩
  | .invalid => some ⟨550, (5, 6, 0), ascii "From header address is invalid"⟩
  | .addresses _ (_ :: _) => some ⟨550, (5, 6, 0), ascii "Message must have exactly one From address"⟩
  | .addresses first [] =>
    if c.lower first ≠ c.lower (unbracket s.mailFrom) then
      some ⟨550, (5, 7, 1), ascii "From header must match the authenticated sender address"⟩
    else none

def enqueueRemote (b : Backend) (s : Session) (t : Transaction) (msgid : Bytes) :
    List Dispatch × Except SmtpError Unit :=
  let failure := SmtpError.mk 451 (4, 3, 0) (ascii "Temporary queue failure, try again later")
  if !b.smDelivery then ([], .error failure)
  else
    ([.enqueue s.mailFrom s.remoteRecipients false msgid],
      if t.enqueue s.remoteRecipients then .ok () else .error failure)

def deliverRemote (c : CaseMap) (b : Backend) (s : Session) (t : Transaction) (msgid : Bytes) :
    List Dispatch × Except SmtpError Unit :=
  if s.remoteRecipients = [] then ([], .ok ())
  else if s.authUser ≠ [] ∧ s.mailFrom ≠ [] then
    match checkFromAlignment c s t.fromHeader with
    | some e => ([], .error e)
    | none => enqueueRemote b s t msgid
  else enqueueRemote b s t msgid

def deliverAll (c : CaseMap) (b : Backend) (s : Session) (t : Transaction) (msgid : Bytes) :
    List Dispatch × Except SmtpError Unit :=
  match deliverLocal s t msgid with
  | (calls, false) => (calls, .error ⟨451, (4, 3, 0), ascii "Delivery failed"⟩)
  | (calls, true) =>
    let (more, reply) := deliverRemote c b s t msgid
    (calls ++ more, reply)

def data (c : CaseMap) (b : Backend) (s : Session) (t : Transaction) :
    List Dispatch × Except SmtpError Unit :=
  match precheck b s, screen b t with
  | some e, _ => ([], .error e)
  | none, some e => ([], .error e)
  | none, none =>
    if s.deferredInvalidRecipient ≠ [] then ([], .error ⟨550, (5, 1, 1), ascii "User unknown"⟩)
    else match t.msgid with
      | none => ([], .error ⟨451, (4, 3, 0), ascii "Temporary failure, try again later"⟩)
      | some msgid => deliverAll c b s t msgid

-- The callbacks of go-smtp with what the outside answers to each.
inductive Callback
  | auth (login : Except LoginError LoginResult)
  | mail (sender : Bytes) (allowed : Bool)
  | rcpt (recipient : Bytes) (answer : Option RecipientInfo)
  | data (t : Transaction)
  | reset

-- Data leaves the session as it is.
def step (c : CaseMap) (b : Backend) (s : Session) : Callback → Option Session
  | .auth login => some (auth b s login).1
  | .mail sender allowed => some (mail c b s sender allowed).1
  | .rcpt recipient answer => some (rcpt c b s recipient answer).1
  | .data _ => some s
  | .reset => some (reset s)

end Maildancer.Smtpd

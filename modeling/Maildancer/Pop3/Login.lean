import Maildancer.Pop3
import Maildancer.Text.Parts

namespace Maildancer.Pop3

open Text MailSession

-- What stands behind the connection while a line is handled: the answers of Login,
-- whether the List call after it goes through, and the TLS handshake.
structure World where
  login : Bytes → Bytes → Option (Bytes × Process)
  listed : Bool
  handshake : Bool

structure AuthenticatedUser where
  username : Bytes
  mailbox : Bytes
deriving DecidableEq

-- A session with its authentication state. Beside what the source keeps, it says
-- whether the user name was read over a connection that may carry credentials.
structure Client where
  sess : Session
  insecureAuth : Bool
  username : Bytes
  usernameSecure : Bool
  authenticatedUser : Option AuthenticatedUser
  saslInProgress : Bool
  store : Option Process
  initialized : Bool
  closed : Bool

inductive LoginResult
  | refused
  | unlisted
  | opened
deriving DecidableEq

-- A PASS or AUTH exchange that has ended: the credentials that were presented to
-- Login and what came of it, and the answer to the client.
structure Exchange where
  login : Option (Bytes × Bytes × LoginResult)
  secure : Bool
  ok : Bool
deriving DecidableEq

inductive Reply
  | response (r : Response)
  | continuation (challenge : Bytes)

structure Outcome where
  client : Client
  reply : Option Reply
  exchange : Option Exchange

def newClient (isTls tlsConfigured : Bool) : Client where
  sess := ⟨.authorization, isTls, !isTls && tlsConfigured, [], []⟩
  insecureAuth := !tlsConfigured
  username := []
  usernameSecure := false
  authenticatedUser := none
  saslInProgress := false
  store := none
  initialized := false
  closed := false

namespace Client

def secure (c : Client) : Bool := c.sess.tlsActive || c.insecureAuth

def canStls (c : Client) : Bool :=
  c.sess.state = .authorization ∧ c.sess.stlsConfigured ∧ ¬ c.sess.tlsActive

def clearSasl (c : Client) : Client := { c with saslInProgress := false }

end Client

-- SetAuthenticated and InitializeMailbox: the state is TRANSACTION and the store is
-- there before the messages are listed.
def openMailbox (w : World) (s : Session) (server : Process) : Connection × Bool :=
  if w.listed then ((initializeMailbox s server).1, (initializeMailbox s server).2.isOk)
  else (⟨{ s with state := .transaction, deletedSet := [] }, server⟩, false)

def login (w : World) (c : Client) (username password : Bytes) : Client × LoginResult :=
  match w.login username password with
  | none => (c, .refused)
  | some (mailbox, server) =>
    let (conn, listed) := openMailbox w c.sess server
    ({ c with
        sess := conn.sess
        authenticatedUser := some ⟨username, mailbox⟩
        store := some conn.server
        initialized := listed }, if listed then .opened else .unlisted)

def answer (c : Client) (r : Response) : Outcome := ⟨c, some (.response r), none⟩

def ended (c : Client) (login : Option (Bytes × Bytes × LoginResult)) (secure : Bool) (r : Response) : Outcome :=
  ⟨c, some (.response r), some ⟨login, secure, r.ok⟩⟩

def tlsRequired : Response := .error "TLS required for authentication"

def loggedInAs (username : Bytes) : Response := .reply (ascii "Logged in as " ++ username) []

def user (c : Client) (args : List Bytes) : Client × Response :=
  if c.sess.state ≠ .authorization then (c, invalidState)
  else if !c.secure then (c, tlsRequired)
  else match args with
    | [username] =>
      if username = [] then (c, .error "Username cannot be empty")
      else ({ c with username := username, usernameSecure := c.secure },
        .reply (ascii "User " ++ username ++ ascii " accepted") [])
    | _ => (c, .error "USER command requires username argument")

def pass (w : World) (c : Client) (args : List Bytes) : Outcome :=
  if c.sess.state ≠ .authorization then answer c invalidState
  else if !c.secure then ended c none c.secure tlsRequired
  else if c.username = [] then ended c none c.secure (.error "No username specified")
  else match args with
    | [password] =>
      let (c', result) := login w c c.username password
      ended c' (some (c.username, password, result)) (c.secure && c.usernameSecure) (match result with
        | .refused => .error "Authentication failed"
        | .unlisted => .error "Failed to access mailbox"
        | .opened => loggedInAs c.username)
    | _ => ended c none c.secure (.error "PASS command requires password argument")

-- Next of the PLAIN server. It is called once: an error and its end both clear the exchange.
def processSaslStep (w : World) (c : Client) (response : Bytes) : Outcome :=
  match split 0 response with
  | [_, username, password] =>
    let (c', result) := login w c username password
    ended
      (match result with
        | .refused => c'.clearSasl
        | _ => { c'.clearSasl with username := username, usernameSecure := c.secure })
      (some (username, password, result)) c.secure (match result with
        | .opened => loggedInAs username
        | _ => .error "Authentication failed")
  | _ => ended c.clearSasl none c.secure (.error "Authentication failed")

section Lines

variable (upper : Bytes → Bytes) (decode : Bytes → Option Bytes)

def processEncoded (w : World) (c : Client) (text : Bytes) : Outcome :=
  match decode text with
  | none => ended c.clearSasl none c.secure (.error "Invalid base64 encoding")
  | some response => processSaslStep w c response

def auth (w : World) (c : Client) (args : List Bytes) : Outcome :=
  if c.sess.state ≠ .authorization then answer c invalidState
  else if !c.secure then ended c none c.secure tlsRequired
  else match args with
    | [] => ended c none c.secure (.error "AUTH command requires mechanism argument")
    | mechanism :: rest =>
      if upper mechanism ≠ ascii "PLAIN" then
        ended c none c.secure ⟨false, ascii "Unsupported mechanism: " ++ upper mechanism, []⟩
      else
        let c := { c with saslInProgress := true }
        match rest with
        | [] => ⟨c, some (.continuation []), none⟩
        | initial :: _ =>
          if initial = ascii "=" then processSaslStep w c [] else processEncoded decode w c initial

def processSaslResponse (w : World) (c : Client) (line : Bytes) : Outcome :=
  if line = ascii "*" then ended c.clearSasl none c.secure (.error "Authentication cancelled")
  else processEncoded decode w c line

-- With a failed handshake the connection ends.
def stls (w : World) (c : Client) (args : List Bytes) : Client × Response :=
  if args ≠ [] then (c, .error "STLS command takes no arguments")
  else if c.sess.state ≠ .authorization then (c, invalidState)
  else if !c.canStls then (c, .error (if c.sess.tlsActive then "Already using TLS" else "TLS not available"))
  else (if w.handshake then { c with sess := { c.sess with tlsActive := true } } else { c with closed := true },
    .reply (ascii "Begin TLS negotiation") [])

def beforeLogin (s : Session) (cmd : Command) : Response :=
  match cmd.verb with
  | .noop => noop cmd.args
  | .capa => capa s cmd.args
  | .quit => if cmd.args ≠ [] then .error "QUIT command takes no arguments" else .reply (ascii "Goodbye") []
  | _ => invalidState

-- Where the messages were never listed there is another text than for a number that no message has.
def notInitialized (cmd : Command) (r : Response) : Response :=
  if r = .error "No such message" then
    .error (if cmd.verb = .dele then "Failed to delete message" else "Failed to retrieve message")
  else r

def transact (c : Client) (cmd : Command) : Client × Response :=
  match c.store with
  | none => (c, beforeLogin c.sess cmd)
  | some server =>
    let (conn, r) := execute ⟨c.sess, server⟩ cmd
    ({ c with sess := conn.sess, store := some conn.server }, if c.initialized then r else notInitialized cmd r)

def verbNames : List (Bytes × Verb) :=
  [(ascii "CAPA", .capa), (ascii "STLS", .stls), (ascii "USER", .user), (ascii "PASS", .pass), (ascii "AUTH", .auth),
    (ascii "QUIT", .quit), (ascii "STAT", .stat), (ascii "LIST", .list), (ascii "RETR", .retr), (ascii "DELE", .dele),
    (ascii "RSET", .rset), (ascii "NOOP", .noop), (ascii "UIDL", .uidl), (ascii "TOP", .top)]

def getCommand (name : Bytes) : Option Verb := (verbNames.find? fun entry => entry.1 = name).map Prod.snd

def dispatch (w : World) (c : Client) (cmd : Command) : Outcome :=
  match cmd.verb with
  | .user => answer (user c cmd.args).1 (user c cmd.args).2
  | .pass => pass w c cmd.args
  | .auth => auth upper decode w c cmd.args
  | .stls => answer (stls w c cmd.args).1 (stls w c cmd.args).2
  | .quit => answer { (transact c cmd).1 with closed := true } (transact c cmd).2
  | _ => answer (transact c cmd).1 (transact c cmd).2

def handleLine (w : World) (c : Client) (raw : Bytes) : Outcome :=
  let line := trimSpace raw
  if c.closed ∨ line = [] then ⟨c, none, none⟩
  else if c.saslInProgress then processSaslResponse decode w c line
  else match fields line with
    | [] => answer c (.error "Invalid command")
    | word :: args =>
      match getCommand (upper word) with
      | none => answer c (.error "Unknown command")
      | some verb => dispatch upper decode w c ⟨verb, args⟩

structure History where
  client : Client
  exchanges : List Exchange

def History.step (h : History) (input : World × Bytes) : History :=
  let out := handleLine upper decode input.1 h.client input.2
  ⟨out.client, out.exchange.toList ++ h.exchanges⟩

def runLines (start : Client) (inputs : List (World × Bytes)) : History :=
  inputs.foldl (History.step upper decode) ⟨start, []⟩

end Lines

end Maildancer.Pop3

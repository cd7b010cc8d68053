import Maildancer.MailSession

namespace Maildancer.Pop3

open Text Maildir MailSession

structure Response where
  ok : Bool
  message : Bytes
  lines : List Bytes
deriving DecidableEq

def Response.reply (message : Bytes) (lines : List Bytes) : Response := ⟨true, message, lines⟩

def Response.error (message : String) : Response := ⟨false, ascii message, []⟩

inductive State
  | authorization | transaction | update
deriving DecidableEq

-- stlsConfigured: a plain listener with a TLS configuration.
structure Session where
  state : State
  tlsActive : Bool
  stlsConfigured : Bool
  messageList : List MessageInfo
  deletedSet : List Nat

structure Connection where
  sess : Session
  server : Process

inductive Verb
  | capa | stls | user | pass | auth | quit | stat | list | retr | dele | rset | noop | uidl | top
deriving DecidableEq

structure Command where
  verb : Verb
  args : List Bytes
deriving DecidableEq

inductive MessageError
  | noSuchMessage
  | messageDeleted
deriving DecidableEq

namespace Session

def allMessages (s : Session) : List (MessageInfo × Nat) :=
  (s.messageList.zipIdx 1).filter (·.2 ∉ s.deletedSet)

def messageCount (s : Session) : Nat := s.allMessages.length

def totalSize (s : Session) : Nat := (s.allMessages.map (·.1.size)).sum

def checkNumber (s : Session) (msgNum : Int) : Except MessageError Nat :=
  if msgNum < 1 ∨ (s.messageList.length : Int) < msgNum then .error .noSuchMessage
  else if msgNum.toNat ∈ s.deletedSet then .error .messageDeleted
  else .ok msgNum.toNat

def getMessage (s : Session) (msgNum : Int) : Except MessageError MessageInfo :=
  match s.checkNumber msgNum with
  | .error e => .error e
  | .ok n =>
    match s.messageList[n - 1]? with
    | some info => .ok info
    | none => .error .noSuchMessage

def markDeleted (s : Session) (msgNum : Int) : Session × Except MessageError Unit :=
  match s.checkNumber msgNum with
  | .error e => (s, .error e)
  | .ok n => ({ s with deletedSet := n :: s.deletedSet }, .ok ())

def resetDeletions (s : Session) : Session := { s with deletedSet := [] }

def getDeletedUids (s : Session) : List Nat :=
  s.deletedSet.filterMap fun n => (s.messageList[n - 1]?).map MessageInfo.uid

def enterUpdate (s : Session) : Session :=
  if s.state = .transaction then { s with state := .update } else s

def capabilities (s : Session) : List Bytes :=
  (if s.tlsActive then [ascii "USER"] else []) ++ [ascii "TOP", ascii "UIDL", ascii "RESP-CODES"] ++
    (if s.tlsActive then [ascii "SASL PLAIN"] else []) ++
    (if s.state = .authorization ∧ s.stlsConfigured ∧ ¬ s.tlsActive then [ascii "STLS"] else [])

end Session

def twoNumbers (first second : Nat) : Bytes := decimal first ++ space :: decimal second

-- CRLF and lone CR become LF.
def normalizeNewlines : Bytes → Bytes
  | [] => []
  | 13 :: 10 :: rest => newline :: normalizeNewlines rest
  | b :: rest => (if b = carriageReturn then newline else b) :: normalizeNewlines rest

def splitMessageLines (content : Bytes) : List Bytes :=
  let rawLines := split newline (normalizeNewlines content)
  if rawLines.getLast? = some [] then rawLines.dropLast else rawLines

-- The body part of extractTopLines, and whether its loop was left by break.
def topBody (bodyLines : Nat) (lines : List Bytes) : List Bytes × Bool :=
  (lines.take bodyLines, bodyLines < lines.length)

def topLines (bodyLines : Nat) : List Bytes → List Bytes × Bool
  | [] => ([], false)
  | [] :: rest => ([] :: (topBody bodyLines rest).1, (topBody bodyLines rest).2)
  | line :: rest => (line :: (topLines bodyLines rest).1, (topLines bodyLines rest).2)

-- A line too long for the scanner is an error unless the loop ends before it.
def extractTopLines (data : Bytes) (bodyLines : Nat) : Option (List Bytes) :=
  let scan := scanLines data
  let (lines, left) := topLines bodyLines scan.lines
  if scan.tooLong ∧ ¬ left then none else some lines

def invalidState : Response := .error "Command not valid in this state"

def listing (s : Session) (args : List Bytes) (field : MessageInfo → Nat) (header : Bytes)
    (tooMany : String) : Response :=
  if s.state ≠ .transaction then invalidState
  else match args with
    | [] => .reply header (s.allMessages.map fun (info, n) => twoNumbers n (field info))
    | [arg] =>
      match atoi arg with
      | none => .error "Invalid message number"
      | some msgNum =>
        match s.getMessage msgNum with
        | .error _ => .error "No such message"
        | .ok info => .reply (decimalInt msgNum ++ space :: decimal (field info)) []
    | _ => .error tooMany

def stat (s : Session) (args : List Bytes) : Response :=
  if s.state ≠ .transaction then invalidState
  else if args ≠ [] then .error "STAT command takes no arguments"
  else .reply (twoNumbers s.messageCount s.totalSize) []

def list (s : Session) (args : List Bytes) : Response :=
  listing s args MessageInfo.size
    (decimal s.messageCount ++ ascii " messages (" ++ decimal s.totalSize ++ ascii " octets)")
    "LIST command takes at most one argument"

def uidl (s : Session) (args : List Bytes) : Response :=
  listing s args MessageInfo.uid [] "UIDL command takes at most one argument"

def retrieve (c : Connection) (msgNum : Int) (answer : MessageInfo → Bytes → Response) :
    Connection × Response :=
  match c.sess.getMessage msgNum with
  | .error _ => (c, .error "No such message")
  | .ok info =>
    match MailboxServer.fetch c.server [] info.uid with
    | (server, .error _) => ({ c with server := server }, .error "Failed to retrieve message")
    | (server, .ok data) => ({ c with server := server }, answer info data)

def retr (c : Connection) (args : List Bytes) : Connection × Response :=
  if c.sess.state ≠ .transaction then (c, invalidState)
  else match args with
    | [arg] =>
      match atoi arg with
      | none => (c, .error "Invalid message number")
      | some msgNum => retrieve c msgNum fun info data =>
        .reply (decimal info.size ++ ascii " octets") (splitMessageLines data)
    | _ => (c, .error "RETR command requires message number")

def top (c : Connection) (args : List Bytes) : Connection × Response :=
  if c.sess.state ≠ .transaction then (c, invalidState)
  else match args with
    | [arg, count] =>
      match atoi arg, atoi count with
      | none, _ => (c, .error "Invalid message number")
      | some _, none => (c, .error "Invalid line count")
      | some msgNum, some lineCount =>
        if lineCount < 0 then (c, .error "Invalid line count")
        else retrieve c msgNum fun _ data =>
          match extractTopLines data lineCount.toNat with
          | none => .error "Failed to read message"
          | some lines => .reply [] lines
    | _ => (c, .error "TOP command requires message number and line count")

def dele (s : Session) (args : List Bytes) : Session × Response :=
  if s.state ≠ .transaction then (s, invalidState)
  else match args with
    | [arg] =>
      match atoi arg with
      | none => (s, .error "Invalid message number")
      | some msgNum =>
        match s.markDeleted msgNum with
        | (s, .error .noSuchMessage) => (s, .error "No such message")
        | (s, .error .messageDeleted) => (s, .error "Message already deleted")
        | (s, .ok ()) => (s, .reply (ascii "message " ++ decimalInt msgNum ++ ascii " deleted") [])
    | _ => (s, .error "DELE command requires message number")

def rset (s : Session) (args : List Bytes) : Session × Response :=
  if s.state ≠ .transaction then (s, invalidState)
  else if args ≠ [] then (s, .error "RSET command takes no arguments")
  else
    let s := s.resetDeletions
    (s, .reply (ascii "maildrop has " ++ decimal s.messageCount ++ ascii " messages") [])

def noop (args : List Bytes) : Response :=
  if args ≠ [] then .error "NOOP command takes no arguments" else .reply [] []

def capa (s : Session) (args : List Bytes) : Response :=
  if args ≠ [] then .error "CAPA command takes no arguments"
  else .reply (ascii "Capability list follows") s.capabilities

-- One Delete call for each UID; the first error is kept and the loop goes on.
def deleteAll (server : Process) : List Nat → Process × Option RpcError
  | [] => (server, none)
  | uid :: uids =>
    let (server, result) := MailboxServer.delete server uid
    let (server, later) := deleteAll server uids
    match result with
    | .error e => (server, some e)
    | .ok () => (server, later)

-- The UIDs come in the order in which the map of marks is iterated.
def commitDeletions (server : Process) (uids : List Nat) : Process × Option RpcError :=
  if uids = [] then (server, none)
  else
    let (server, firstErr) := deleteAll server uids
    match MailboxServer.expunge server [] with
    | (server, .error e) => (server, some (firstErr.getD e))
    | (server, .ok _) => (server, firstErr)

def quit (c : Connection) (args : List Bytes) (uids : List Nat) : Connection × Response :=
  if args ≠ [] then (c, .error "QUIT command takes no arguments")
  else match c.sess.state with
    | .transaction =>
      match commitDeletions c.server uids with
      | (server, some _) =>
        (⟨c.sess.enterUpdate, server⟩, .error "[SYS/TEMP] some deleted messages not removed")
      | (server, none) => (⟨c.sess.enterUpdate, server⟩, .reply (ascii "Logging out") [])
    | _ => (c, .reply (ascii "Goodbye") [])

-- The commands of a session after login. USER, PASS and AUTH are refused there,
-- and QUIT goes through quit above.
def execute (c : Connection) (cmd : Command) : Connection × Response :=
  match cmd.verb with
  | .stat => (c, stat c.sess cmd.args)
  | .list => (c, list c.sess cmd.args)
  | .uidl => (c, uidl c.sess cmd.args)
  | .retr => retr c cmd.args
  | .top => top c cmd.args
  | .dele => ({ c with sess := (dele c.sess cmd.args).1 }, (dele c.sess cmd.args).2)
  | .rset => ({ c with sess := (rset c.sess cmd.args).1 }, (rset c.sess cmd.args).2)
  | .noop => (c, noop cmd.args)
  | .capa => (c, capa c.sess cmd.args)
  | .stls => (c, if cmd.args ≠ [] then .error "STLS command takes no arguments" else invalidState)
  | .user | .pass | .auth => (c, invalidState)
  | .quit => quit c cmd.args c.sess.getDeletedUids

def initializeMailbox (s : Session) (server : Process) : Connection × Except RpcError Unit :=
  match MailboxServer.list server [] with
  | (server, .error e) => (⟨{ s with state := .transaction, deletedSet := [] }, server⟩, .error e)
  | (server, .ok msgs) =>
    (⟨{ s with
        state := .transaction
        deletedSet := []
        messageList := msgs.map fun m => ⟨m.uid, [], m.size, []⟩ }, server⟩, .ok ())

def run (c : Connection) (cmds : List Command) : Connection :=
  cmds.foldl (fun c cmd => (execute c cmd).1) c

end Maildancer.Pop3

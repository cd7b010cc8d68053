import Maildancer.MailSession

namespace Maildancer.Imap

open Text Maildir MailSession

-- The selected mailbox of an IMAP session: its in-memory message list and the
-- sequence numbers queued as EXPUNGE on the mailbox tracker.
structure Session where
  selectedMailbox : Bytes
  messages : List MessageInfo
  queuedExpunges : List Nat

structure Connection where
  sess : Session
  server : Process

-- A UID set; nil is the set of a plain EXPUNGE.
def uidsContain (uids : Option (Nat → Bool)) (uid : Nat) : Bool :=
  match uids with
  | none => true
  | some set => set uid

-- The adapter has separate methods for INBOX, which pass that spelling on.
def rpcFolder (mailbox : Bytes) : Bytes := if equalFold mailbox inbox then inbox else mailbox

-- The adapter copies UID, size and flags; the key stays empty.
def listMessages (server : Process) (mailbox : Bytes) : Process × Except RpcError (List MessageInfo) :=
  let (server, msgs) := MailboxServer.list server (rpcFolder mailbox)
  (server, msgs.map (List.map fun m => { m with key := [] }))

-- DeleteMessage replaces the whole flag set of the message.
def deleteMessage (server : Process) (mailbox : Bytes) (uid : Nat) : Process × Except RpcError Unit :=
  MailboxServer.setFlags server (rpcFolder mailbox) uid [.deleted]

def expungeMailbox (server : Process) (mailbox : Bytes) : Process × Except RpcError (List Nat) :=
  MailboxServer.expunge server (rpcFolder mailbox)

structure Sweep where
  server : Process
  queued : List Nat
  anyExpunged : Bool

-- One turn of the loop of Expunge; a failed delete is logged and skipped.
def expungeStep (mailbox : Bytes) (uids : Option (Nat → Bool)) (s : Sweep) (entry : MessageInfo × Nat) :
    Sweep :=
  if uidsContain uids entry.1.uid ∧ ImapFlag.deleted ∈ entry.1.flags then
    match deleteMessage s.server mailbox entry.1.uid with
    | (server, .error _) => { s with server := server }
    | (server, .ok ()) => ⟨server, s.queued ++ [entry.2], true⟩
  else s

-- The loop runs over the message list from its end.
def sweepMessages (c : Connection) (uids : Option (Nat → Bool)) : Sweep :=
  (c.sess.messages.zipIdx 1).reverse.foldl (expungeStep c.sess.selectedMailbox uids)
    ⟨c.server, c.sess.queuedExpunges, false⟩

def expunge (c : Connection) (uids : Option (Nat → Bool)) : Connection × Except RpcError Unit :=
  let swept := sweepMessages c uids
  let sess := { c.sess with queuedExpunges := swept.queued }
  if swept.anyExpunged then
    match expungeMailbox swept.server c.sess.selectedMailbox with
    | (server, .error e) => (⟨sess, server⟩, .error e)
    | (server, .ok _) =>
      match listMessages server c.sess.selectedMailbox with
      | (server, .error e) => (⟨sess, server⟩, .error e)
      | (server, .ok msgs) => (⟨{ sess with messages := msgs }, server⟩, .ok ())
  else (⟨sess, swept.server⟩, .ok ())

end Maildancer.Imap

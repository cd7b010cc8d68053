import Maildancer.Maildir.Store

namespace Maildancer.MailSession

open Text Maildir

-- The state of one mail-session process: the selected folder ("" before the
-- first selection), its cached listing and the POP3 deletion marks.
structure Session where
  selectedFolder : Bytes
  msgs : List MessageInfo
  deleted : List Nat

structure Process where
  sess : Session
  store : Store

inductive SessionError
  | messageNotFound
  | alreadyDeleted
  | notDeleted
  | sameFolder
  | store (cause : StoreError)
  | select (folder : Bytes) (cause : StoreError)
  | deleteIn (uid : Nat) (folder : Bytes) (cause : StoreError)
  | expunge (cause : StoreError)
  | expungeFolder (folder : Bytes) (cause : StoreError)
  | append (folder : Bytes) (cause : StoreError)
  | copy (uid : Nat) (folder destFolder : Bytes) (cause : StoreError)
deriving DecidableEq

def inbox : Bytes := ascii "INBOX"

-- The routing test of the session: the root mailbox or a named folder.
def isRoot (folder : Bytes) : Bool := folder = [] ∨ equalFold folder inbox

namespace Session

def stat (s : Session) : Nat × Nat := (s.msgs.length, (s.msgs.map MessageInfo.size).sum)

def getUid (s : Session) (uid : Nat) : Option MessageInfo := s.msgs.find? (·.uid = uid)

def delete (s : Session) (uid : Nat) : Session × Except SessionError Unit :=
  if s.getUid uid = none then (s, .error .messageNotFound)
  else if uid ∈ s.deleted then (s, .error .alreadyDeleted)
  else ({ s with deleted := uid :: s.deleted }, .ok ())

def undelete (s : Session) (uid : Nat) : Session × Except SessionError Unit :=
  if s.getUid uid = none then (s, .error .messageNotFound)
  else if uid ∉ s.deleted then (s, .error .notDeleted)
  else ({ s with deleted := s.deleted.filter (· ≠ uid) }, .ok ())

def updateFlags (s : Session) (uid : Nat) (flags : List ImapFlag) : Session :=
  { s with msgs := s.msgs.map fun m => if m.uid = uid then { m with flags := flags } else m }

end Session

namespace Process

def listFolder (st : Store) (folder : Bytes) : Store × Except StoreError (List MessageInfo) :=
  if equalFold folder inbox then
    let (st, msgs) := st.list
    (st, .ok msgs)
  else st.listInFolder folder

def select (p : Process) (folder : Bytes) : Process × Except SessionError (List MessageInfo) :=
  match listFolder p.store folder with
  | (st, .error e) => (⟨p.sess, st⟩, .error (.select folder e))
  | (st, .ok msgs) => (⟨{ p.sess with selectedFolder := folder, msgs := msgs }, st⟩, .ok msgs)

def rescan (p : Process) : Process × Except SessionError (List MessageInfo) :=
  let folder := if p.sess.selectedFolder = [] then inbox else p.sess.selectedFolder
  match listFolder p.store folder with
  | (st, .error e) => (⟨p.sess, st⟩, .error (.store e))
  | (st, .ok allMsgs) =>
    (⟨{ p.sess with msgs := allMsgs }, st⟩,
      .ok (allMsgs.filter fun m => m.uid ∉ p.sess.msgs.map MessageInfo.uid))

def retrieve (p : Process) (uid : Nat) : Process × Except SessionError Bytes :=
  let (st, data) := if isRoot p.sess.selectedFolder then p.store.retrieve uid
    else p.store.retrieveFromFolder p.sess.selectedFolder uid
  (⟨p.sess, st⟩, data.mapError .store)

-- Delete for each mark, then Expunge, both on the root mailbox.
def commit (p : Process) : Process × Except SessionError Unit :=
  let marked := p.sess.deleted.foldl Store.delete p.store
  if p.sess.deleted = [] then (⟨p.sess, marked⟩, .ok ())
  else
    let (st, result) := marked.expunge
    (⟨p.sess, st⟩, result.mapError .expunge)

def setFlags (p : Process) (uid : Nat) (flags : List ImapFlag) : Process × Except SessionError Unit :=
  let folder := if p.sess.selectedFolder = [] then inbox else p.sess.selectedFolder
  match p.store.setFlagsInFolder folder uid flags with
  | (st, .error e) => (⟨p.sess, st⟩, .error (.store e))
  | (st, .ok ()) => (⟨p.sess.updateFlags uid flags, st⟩, .ok ())

-- The marking loop of Expunge over the cached listing; it stops at an error.
def markDeleted (folder : Bytes) (st : Store) : List MessageInfo → Store × Except SessionError (List Nat)
  | [] => (st, .ok [])
  | m :: rest =>
    if ImapFlag.deleted ∈ m.flags then
      match if isRoot folder then (st.delete m.uid, Except.ok ()) else st.deleteInFolder folder m.uid with
      | (st, .error e) => (st, .error (.deleteIn m.uid folder e))
      | (st, .ok ()) =>
        let (st, expelled) := markDeleted folder st rest
        (st, expelled.map (m.uid :: ·))
    else markDeleted folder st rest

def expunge (p : Process) : Process × Except SessionError (List Nat) :=
  let folder := p.sess.selectedFolder
  match markDeleted folder p.store p.sess.msgs with
  | (st, .error e) => (⟨p.sess, st⟩, .error e)
  | (st, .ok expelled) =>
    if expelled = [] then (⟨p.sess, st⟩, .ok [])
    else
      match if isRoot folder then st.expunge else st.expungeFolder folder with
      | (st, .error e) =>
        (⟨p.sess, st⟩, .error (if isRoot folder then .expunge e else .expungeFolder folder e))
      | (st, .ok ()) =>
        match select ⟨p.sess, st⟩ folder with
        | (p, .error e) => (p, .error e)
        | (p, .ok _) => (p, .ok expelled)

def appendMessage (p : Process) (folder fresh data : Bytes) (flags : List ImapFlag) :
    Process × Except SessionError Nat :=
  let (st, uid) := p.store.appendToFolder folder fresh data flags
  (⟨p.sess, st⟩, uid.mapError (.append folder))

def copyMessage (p : Process) (uid : Nat) (destFolder fresh : Bytes) :
    Process × Except SessionError Nat :=
  let folder := if p.sess.selectedFolder = [] then inbox else p.sess.selectedFolder
  let (st, newUid) := p.store.copyMessage folder uid destFolder fresh
  (⟨p.sess, st⟩, newUid.mapError (.copy uid folder destFolder))

def moveMessage (p : Process) (uid : Nat) (srcFolder destFolder fresh : Bytes) :
    Process × Except SessionError Nat :=
  let srcFolder := if srcFolder = [] then inbox else srcFolder
  if equalFold srcFolder destFolder then (p, .error .sameFolder)
  else
    match p.store.copyMessage srcFolder uid destFolder fresh with
    | (st, .error e) => (⟨p.sess, st⟩, .error (.copy uid srcFolder destFolder e))
    | (st, .ok newUid) =>
      match if equalFold srcFolder inbox then (st.delete uid, Except.ok ())
          else st.deleteInFolder srcFolder uid with
      | (st, .error e) => (⟨p.sess, st⟩, .error (.deleteIn uid srcFolder e))
      | (st, .ok ()) =>
        match if equalFold srcFolder inbox then st.expunge else st.expungeFolder srcFolder with
        | (st, .error e) => (⟨p.sess, st⟩, .error (.expungeFolder srcFolder e))
        | (st, .ok ()) => (⟨p.sess, st⟩, .ok newUid)

end Process

-- The errors of the RPCs; the status code follows from the constructor.
inductive RpcError
  | select (folder : Bytes) (cause : SessionError)
  | retrieve (uid : Nat) (cause : SessionError)
  | append (cause : SessionError)
  | copy (cause : SessionError)
  | move (cause : SessionError)
  | setFlags (cause : SessionError)
  | expunge (cause : SessionError)
  | rescan (cause : SessionError)
  | delete (cause : SessionError)
  | undelete (cause : SessionError)
  | commit (cause : SessionError)
deriving DecidableEq

namespace MailboxServer

def folderOrInbox (folder : Bytes) : Bytes := if folder = [] then inbox else folder

def withFolder {α : Type} (p : Process) (folder : Bytes)
    (act : Process → Process × Except RpcError α) : Process × Except RpcError α :=
  match p.select (folderOrInbox folder) with
  | (p, .error e) => (p, .error (.select (folderOrInbox folder) e))
  | (p, .ok _) => act p

def lift {α : Type} (wrap : SessionError → RpcError) (r : Process × Except SessionError α) :
    Process × Except RpcError α := (r.1, r.2.mapError wrap)

def list (p : Process) (folder : Bytes) : Process × Except RpcError (List MessageInfo) :=
  withFolder p folder fun p => (p, .ok p.sess.msgs)

def stat (p : Process) (folder : Bytes) : Process × Except RpcError (Nat × Nat) :=
  withFolder p folder fun p => (p, .ok p.sess.stat)

def fetch (p : Process) (folder : Bytes) (uid : Nat) : Process × Except RpcError Bytes :=
  withFolder p folder fun p => lift (.retrieve uid) (p.retrieve uid)

def append (p : Process) (folder fresh data : Bytes) (flags : List ImapFlag) :
    Process × Except RpcError Nat := lift .append (p.appendMessage folder fresh data flags)

def copy (p : Process) (folder : Bytes) (uid : Nat) (destFolder fresh : Bytes) :
    Process × Except RpcError Nat :=
  withFolder p folder fun p => lift .copy (p.copyMessage uid destFolder fresh)

def move (p : Process) (srcFolder : Bytes) (uid : Nat) (destFolder fresh : Bytes) :
    Process × Except RpcError Nat := lift .move (p.moveMessage uid srcFolder destFolder fresh)

def setFlags (p : Process) (folder : Bytes) (uid : Nat) (flags : List ImapFlag) :
    Process × Except RpcError Unit :=
  withFolder p folder fun p => lift .setFlags (p.setFlags uid flags)

def expunge (p : Process) (folder : Bytes) : Process × Except RpcError (List Nat) :=
  withFolder p folder fun p => lift .expunge p.expunge

def rescan (p : Process) (folder : Bytes) : Process × Except RpcError (List MessageInfo) :=
  withFolder p folder fun p => lift .rescan p.rescan

def liftSession (wrap : SessionError → RpcError) (p : Process)
    (r : Session × Except SessionError Unit) : Process × Except RpcError Unit :=
  (⟨r.1, p.store⟩, r.2.mapError wrap)

def delete (p : Process) (uid : Nat) : Process × Except RpcError Unit :=
  liftSession .delete p (p.sess.delete uid)

def undelete (p : Process) (uid : Nat) : Process × Except RpcError Unit :=
  liftSession .undelete p (p.sess.undelete uid)

def commit (p : Process) : Process × Except RpcError Unit := lift .commit p.commit

end MailboxServer

end Maildancer.MailSession

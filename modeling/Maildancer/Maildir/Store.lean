import Maildancer.Maildir

namespace Maildancer.Maildir

open Text

inductive Loc
  | inbox
  | folder (name : Bytes)
deriving DecidableEq

-- deliveryFailed and noDirectory stand for the errors of go-maildir and the
-- file system that the store passes on.
inductive StoreError
  | mailboxNotFound
  | folderNotFound
  | folderExists
  | invalidFolderName
  | messageNotFound
  | messageDeleted
  | noSuchKey (key : Bytes)
  | deliveryFailed
  | noDirectory
deriving DecidableEq

structure MessageInfo where
  uid : Nat
  key : Bytes
  size : Nat
  flags : List ImapFlag
deriving DecidableEq

-- The MaildirStore of one process and the directories of one mailbox. A
-- location without cur/ is none; now is the clock the store reads.
structure Store where
  disk : Loc → Option Folder
  deleted : Loc → List Nat
  cache : Loc → Option UidList
  now : Nat

def isValidFolderChar (b : UInt8) : Bool :=
  (97 ≤ b ∧ b ≤ 122) ∨ (65 ≤ b ∧ b ≤ 90) ∨ (48 ≤ b ∧ b ≤ 57) ∨ b = 45 ∨ b = 95

-- A byte outside ASCII fails the character check, so case folding is that of ASCII.
def validateFolderName (folder : Bytes) : Bool :=
  folder ≠ [] ∧ folder.length ≤ 255 ∧ ¬ hasPrefix (ascii ".") folder ∧
    folder.map lowerByte ∉ [ascii "new", ascii "cur", ascii "tmp"] ∧ folder.all isValidFolderChar

def folderPath (folder : Bytes) : Except StoreError Loc :=
  if validateFolderName folder then .ok (.folder folder) else .error .invalidFolderName

def folderOrInboxPath (folder : Bytes) : Except StoreError Loc :=
  if equalFold folder (ascii "INBOX") then .ok .inbox else folderPath folder

def defaultFolders : List Bytes :=
  [ascii "Junk", ascii "Trash", ascii "Sent", ascii "Drafts", ascii "List", ascii "Bulk"]

def messageInfo (recentKeys : List Bytes) (d : Folder) (deleted : List Nat) (e : UidEntry) :
    Option MessageInfo :=
  if e.uid ∈ deleted then none
  else (d.messageByKey e.key).map fun f =>
    ⟨e.uid, e.key, f.data.length,
      (if e.key ∈ recentKeys then [ImapFlag.recent] else []) ++ convertFlags f.flags⟩

namespace Store

def setFolder (st : Store) (loc : Loc) (d : Folder) : Store :=
  { st with disk := Function.update st.disk loc (some d) }

def cacheUidList (st : Store) (loc : Loc) (ul : UidList) : Store :=
  { st with cache := Function.update st.cache loc (some ul) }

def invalidateUidListCache (st : Store) (loc : Loc) : Store :=
  { st with cache := Function.update st.cache loc none }

def addFolder (st : Store) (folder : Bytes) : Store :=
  match st.disk (.folder folder) with
  | some _ => st
  | none => st.setFolder (.folder folder) .empty

-- A missing INBOX is created together with the default folders.
def ensureMaildir (st : Store) : Store × Folder :=
  match st.disk .inbox with
  | some d => (st, d)
  | none => (defaultFolders.foldl addFolder (st.setFolder .inbox .empty), .empty)

def createFolder (st : Store) (folder : Bytes) : Store × Except StoreError Unit :=
  match folderPath folder with
  | .error e => (st, .error e)
  | .ok loc =>
    match st.disk loc with
    | some _ => (st, .error .folderExists)
    | none => (st.ensureMaildir.1.setFolder loc .empty, .ok ())

def listDir (st : Store) (loc : Loc) (d : Folder) : Store × List MessageInfo :=
  let recentKeys := d.maildirNewKeys
  let keys := d.unseen.curDirKeys
  let opened := d.unseen.loadUidList st.now keys
  ((st.setFolder loc opened.2).cacheUidList loc opened.1,
    opened.1.entries.filterMap (messageInfo recentKeys opened.2 (st.deleted loc)))

def list (st : Store) : Store × List MessageInfo :=
  let (st, d) := st.ensureMaildir
  st.listDir .inbox d

def listInFolder (st : Store) (folder : Bytes) : Store × Except StoreError (List MessageInfo) :=
  match folderPath folder with
  | .error e => (st, .error e)
  | .ok loc =>
    match st.disk loc with
    | none => (st, .error .folderNotFound)
    | some d =>
      let (st, msgs) := st.listDir loc d
      (st, .ok msgs)

def findKey (ul : UidList) (uid : Nat) : Except StoreError Bytes :=
  match ul.uidToKey uid with
  | some key => .ok key
  | none => .error .messageNotFound

def lookupKey (st : Store) (loc : Loc) (uid : Nat) : Store × Except StoreError Bytes :=
  match st.cache loc with
  | some ul => (st, findKey ul uid)
  | none =>
    match st.disk loc with
    | none => (st, .error .noDirectory)
    | some d =>
      let opened := d.loadUidList st.now d.curDirKeys
      ((st.setFolder loc opened.2).cacheUidList loc opened.1, findKey opened.1 uid)

def retrieveFromDir (st : Store) (loc : Loc) (key : Bytes) : Except StoreError Bytes :=
  match (st.disk loc).bind (·.messageByKey key) with
  | some f => .ok f.data
  | none => .error (.noSuchKey key)

-- Retrieve and RetrieveFromFolder after their path has been resolved.
def retrieveAt (st : Store) (loc : Loc) (missing : StoreError) (uid : Nat) :
    Store × Except StoreError Bytes :=
  if uid ∈ st.deleted loc then (st, .error .messageDeleted)
  else match st.disk loc with
    | none => (st, .error missing)
    | some _ =>
      let (st, key) := st.lookupKey loc uid
      match key with
      | .error e => (st, .error e)
      | .ok key => (st, st.retrieveFromDir loc key)

def retrieve (st : Store) (uid : Nat) : Store × Except StoreError Bytes :=
  st.retrieveAt .inbox .mailboxNotFound uid

def retrieveFromFolder (st : Store) (folder : Bytes) (uid : Nat) : Store × Except StoreError Bytes :=
  match folderPath folder with
  | .error e => (st, .error e)
  | .ok loc => st.retrieveAt loc .folderNotFound uid

def markDeleted (st : Store) (loc : Loc) (uid : Nat) : Store :=
  { st with deleted := Function.update st.deleted loc (st.deleted loc |>.insert uid) }

def delete (st : Store) (uid : Nat) : Store := st.markDeleted .inbox uid

def deleteInFolder (st : Store) (folder : Bytes) (uid : Nat) : Store × Except StoreError Unit :=
  match folderPath folder with
  | .error e => (st, .error e)
  | .ok loc => (st.markDeleted loc uid, .ok ())

-- The body of Expunge and ExpungeFolder, which differ in the path and in the
-- error for a missing directory. The marks are taken before anything can fail.
def expungeAt (st : Store) (loc : Loc) (missing : StoreError) : Store × Except StoreError Unit :=
  let deletedUids := st.deleted loc
  let st := { st with deleted := Function.update st.deleted loc [] }
  if deletedUids = [] then (st, .ok ())
  else match st.disk loc with
    | none => (st, .error missing)
    | some d =>
      let opened := d.loadUidList st.now d.curDirKeys
      let keysToRemove := deletedUids.filterMap opened.1.uidToKey
      let d := opened.2.expungeKeys opened.1 keysToRemove
      ((st.setFolder loc d).invalidateUidListCache loc, .ok ())

def expunge (st : Store) : Store × Except StoreError Unit := st.expungeAt .inbox .mailboxNotFound

def expungeFolder (st : Store) (folder : Bytes) : Store × Except StoreError Unit :=
  match folderPath folder with
  | .error e => (st, if st.deleted (.folder folder) = [] then .ok () else .error e)
  | .ok loc => st.expungeAt loc .folderNotFound

def setFlagsInFolder (st : Store) (folder : Bytes) (uid : Nat) (flags : List ImapFlag) :
    Store × Except StoreError Unit :=
  match folderOrInboxPath folder with
  | .error e => (st, .error e)
  | .ok loc =>
    let (st, key) := st.lookupKey loc uid
    match key, st.disk loc with
    | .error e, _ => (st, .error e)
    | .ok _, none => (st, .error .messageNotFound)
    | .ok key, some d =>
      let mdFlags := convertFlagsFromImap flags
      match d.messageByKey key with
      | some _ => (st.setFolder loc (d.setFlags key mdFlags), .ok ())
      | none =>
        match d.moveNewToCurWithFlags key mdFlags with
        | some d => (st.setFolder loc d, .ok ())
        | none => (st, .error .messageNotFound)

-- MkdirAll and Init of a destination directory.
def initDir (st : Store) (loc : Loc) : Store × Folder :=
  match st.disk loc with
  | some d => (st, d)
  | none => (st.setFolder loc .empty, .empty)

-- The UID step that ends AppendToFolder and CopyMessage.
def assignUid (st : Store) (loc : Loc) (d : Folder) : Store × UidList :=
  let opened := d.loadUidList st.now d.curDirKeys
  ((st.setFolder loc opened.2).invalidateUidListCache loc, opened.1)

-- AppendToFolder where no other process acts; the key is the one go-maildir gives the delivery.
def appendToFolder (st : Store) (folder : Bytes) (fresh data : Bytes) (flags : List ImapFlag) :
    Store × Except StoreError Nat :=
  match folderOrInboxPath folder with
  | .error e => (st, .error e)
  | .ok loc =>
    let (st, d) := st.initDir loc
    let beforeKeys := d.maildirNewKeys
    if hfresh : fresh ∉ d.keys then
      let delivered := d.deliver ⟨fresh, data⟩ hfresh
      let st := st.setFolder loc delivered
      match delivered.maildirNewKey beforeKeys with
      | none => (st, .error .messageNotFound)
      | some key =>
        match delivered.moveNewToCurWithFlags key (convertFlagsFromImap flags) with
        | none => (st, .error .deliveryFailed)
        | some d =>
          let (st, ul) := st.assignUid loc d
          match ul.keyToUid key with
          | some uid => (st, .ok uid)
          | none => (st, .error .messageNotFound)
    else (st, .error .deliveryFailed)

-- Where the copy lands: in cur/ with the flags of the source, or in new/
-- where the source itself is still in new/.
def copyInto (src dest : Folder) (srcKey fresh : Bytes) : Except StoreError Folder :=
  if hfresh : fresh ∉ dest.keys then
    match src.messageByKey srcKey with
    | some f => .ok (dest.addCopy { f with key := fresh } hfresh)
    | none =>
      match src.new.find? (·.key = srcKey) with
      | some f => .ok (dest.deliver ⟨fresh, f.data⟩ hfresh)
      | none => .error .messageNotFound
  else .error .deliveryFailed

-- CopyMessage where no other process acts.
def copyMessage (st : Store) (srcFolder : Bytes) (uid : Nat) (destFolder fresh : Bytes) :
    Store × Except StoreError Nat :=
  match folderOrInboxPath srcFolder, folderOrInboxPath destFolder with
  | .error e, _ => (st, .error e)
  | _, .error e => (st, .error e)
  | .ok srcLoc, .ok destLoc =>
    let (st, srcKey) := st.lookupKey srcLoc uid
    match srcKey with
    | .error e => (st, .error e)
    | .ok srcKey =>
      let (st, dest) := st.initDir destLoc
      match st.disk srcLoc with
      | none => (st, .error .messageNotFound)
      | some src =>
        match copyInto src dest srcKey fresh with
        | .error e => (st, .error e)
        | .ok dest =>
          let (st, ul) := st.assignUid destLoc dest
          (st, .ok (uint32 (ul.uidNext + (2 ^ 32 - 1))))

end Store

end Maildancer.Maildir

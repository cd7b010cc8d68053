import Maildancer.Maildir
import Maildancer.Transition

namespace Maildancer.Maildir

open Text

-- How far a process is in a call on the folder, or the UID that its last call has returned. listDir reads
-- cur/ before it takes the lock of .uidlist; the other calls read it under the lock.
inductive Call
  | idle (result : Option Nat)
  | listing
  | listed (keys : List Bytes)
  | appending (beforeKeys : List Bytes) (flags : List Flag)
  | delivered (beforeKeys : List Bytes) (flags : List Flag)
  | found (key : Bytes) (flags : List Flag)
  | appended (key : Bytes)
  | copied
deriving DecidableEq

structure Shared where
  folder : Folder
  calls : Nat → Call

-- One access to the folder, or one section under the lock. The last four lock: list ends listDir, assign ends
-- AppendToFolder and CopyMessage, and lookup is lookupKey without a cached list, UIDNext or UIDValidity. The
-- expunge takes the marked UIDs of its process.
inductive Access
  | deliver (f : NewFile)
  | unseen (p : Nat)
  | readCur (p : Nat)
  | readNew (p : Nat) (flags : List ImapFlag)
  | appendFile (p : Nat) (f : NewFile)
  | findKey (p : Nat)
  | moveToCur (p : Nat)
  | copyCur (p : Nat) (f : MsgFile)
  | copyNew (p : Nat) (f : NewFile)
  | list (p now : Nat)
  | assign (p now : Nat)
  | lookup (p now : Nat)
  | expunge (p now : Nat) (deletedUids : List Nat)

namespace Shared

def start (d : Folder) : Shared := ⟨d, fun _ => .idle none⟩

variable (s : Shared)

def set (p : Nat) (call : Call) (d : Folder) : Shared := ⟨d, Function.update s.calls p call⟩

-- A file can only be placed under a key that names no file.
def place (p : Nat) (call : Call) (f : NewFile) : Option Shared :=
  if hfresh : f.key ∉ s.folder.keys then some (s.set p call (s.folder.deliver f hfresh)) else none

def locked (p now : Nat) (keys : List Bytes) (result : UidList → Option Nat) : Shared :=
  let opened := s.folder.loadUidList now keys
  s.set p (.idle (result opened.1)) opened.2

def step : Access → Option Shared
  | .deliver f =>
    if hfresh : f.key ∉ s.folder.keys then some { s with folder := s.folder.deliver f hfresh }
    else none
  | .unseen p =>
    match s.calls p with
    | .idle _ => some (s.set p .listing s.folder.unseen)
    | _ => none
  | .readCur p =>
    match s.calls p with
    | .listing => some (s.set p (.listed s.folder.curDirKeys) s.folder)
    | _ => none
  | .readNew p flags =>
    match s.calls p with
    | .idle _ =>
      some (s.set p (.appending s.folder.maildirNewKeys (convertFlagsFromImap flags)) s.folder)
    | _ => none
  | .appendFile p f =>
    match s.calls p with
    | .appending beforeKeys flags => s.place p (.delivered beforeKeys flags) f
    | _ => none
  | .findKey p =>
    match s.calls p with
    | .delivered beforeKeys flags =>
      match s.folder.maildirNewKey beforeKeys with
      | some key => some (s.set p (.found key flags) s.folder)
      | none => some (s.set p (.idle none) s.folder)
    | _ => none
  | .moveToCur p =>
    match s.calls p with
    | .found key flags =>
      match s.folder.moveNewToCurWithFlags key flags with
      | some d => some (s.set p (.appended key) d)
      | none => some (s.set p (.idle none) s.folder)
    | _ => none
  | .copyCur p f =>
    match s.calls p with
    | .idle _ =>
      if hfresh : f.key ∉ s.folder.keys then some (s.set p .copied (s.folder.addCopy f hfresh))
      else none
    | _ => none
  | .copyNew p f =>
    match s.calls p with
    | .idle _ => s.place p .copied f
    | _ => none
  | .list p now =>
    match s.calls p with
    | .listed keys => some (s.locked p now keys fun _ => none)
    | _ => none
  | .assign p now =>
    match s.calls p with
    | .appended key => some (s.locked p now s.folder.curDirKeys fun ul => ul.keyToUid key)
    | .copied =>
      -- uidNext - 1 in uint32
      some (s.locked p now s.folder.curDirKeys fun ul =>
        some (uint32 (ul.uidNext + (2 ^ 32 - 1))))
    | _ => none
  | .lookup p now =>
    match s.calls p with
    | .idle _ => some (s.locked p now s.folder.curDirKeys fun _ => none)
    | _ => none
  | .expunge p now deletedUids =>
    match s.calls p with
    | .idle _ =>
      let opened := s.folder.loadUidList now s.folder.curDirKeys
      let keysToRemove := deletedUids.filterMap opened.1.uidToKey
      some (s.set p (.idle none) (opened.2.expungeKeys opened.1 keysToRemove))
    | _ => none

-- CopyMessage goes on where it finds the source: in cur/, or else in new/.
def copyAccess (p : Nat) (src : Folder) (srcKey fresh : Bytes) : Option Access :=
  match src.messageByKey srcKey with
  | some f => some (.copyCur p { f with key := fresh })
  | none => (src.new.find? (·.key = srcKey)).map fun f => .copyNew p ⟨fresh, f.data⟩

def lockedKeys : Access → Option (List Bytes)
  | .list p _ =>
    match s.calls p with
    | .listed keys => some keys
    | _ => none
  | .assign _ _ | .lookup _ _ | .expunge _ _ _ => some s.folder.curDirKeys
  | _ => none

end Shared

end Maildancer.Maildir

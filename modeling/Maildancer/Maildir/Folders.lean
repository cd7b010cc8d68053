import Maildancer.Maildir.Store
import Maildancer.UidList.Load

namespace Maildancer.Maildir

open Text UidList

namespace Store

def deleteFolder (st : Store) (folder : Bytes) : Store × Except StoreError Unit :=
  match folderPath folder with
  | .error e => (st, .error e)
  | .ok loc =>
    match st.disk loc with
    | none => (st, .error .folderNotFound)
    | some _ =>
      ({ st with
          disk := Function.update st.disk loc none
          deleted := Function.update st.deleted loc [] }, .ok ())

-- os.Rename takes the directory with its .uidlist to the new path.
def renameFolder (st : Store) (oldName newName : Bytes) : Store × Except StoreError Unit :=
  match folderPath oldName, folderPath newName with
  | .error e, _ => (st, .error e)
  | _, .error e => (st, .error e)
  | .ok oldLoc, .ok newLoc =>
    match st.disk oldLoc, st.disk newLoc with
    | none, _ => (st, .error .folderNotFound)
    | _, some _ => (st, .error .folderExists)
    | some d, none =>
      ({ st with
          disk := Function.update (Function.update st.disk newLoc (some d)) oldLoc none
          deleted := Function.update st.deleted oldLoc [] }, .ok ())

def uidValidityAt (st : Store) (loc : Loc) (d : Folder) : Store × Nat :=
  let opened := d.loadUidList st.now d.curDirKeys
  (st.setFolder loc opened.2, opened.1.uidValidity)

def uidValidity (st : Store) (folder : Bytes) : Store × Except StoreError Nat :=
  let (st, inbox) := st.ensureMaildir
  if equalFold folder (ascii "INBOX") then
    let (st, validity) := st.uidValidityAt .inbox inbox
    (st, .ok validity)
  else match folderPath folder with
    | .error e => (st, .error e)
    | .ok loc =>
      let (st, d) := st.initDir loc
      let (st, validity) := st.uidValidityAt loc d
      (st, .ok validity)

end Store

def readable (file : Option Bytes) : Bool :=
  match readUidList file with
  | .ok (some _) => true
  | _ => false

-- What happens to the folders of a mailbox, by whatever process. Message files
-- come, go and change their flags; .uidlist is lost or spoilt; a section under
-- its lock works with the keys handed to it, which may have been read before.
inductive Event
  | tick (now : Nat)
  | create (folder : Bytes)
  | delete (folder : Bytes)
  | rename (oldName newName : Bytes)
  | touch (loc : Loc) (d : Folder)
  | damage (loc : Loc) (file : Option Bytes)
  | load (loc : Loc) (keys : List Bytes)
  | expunge (loc : Loc) (gone : List Bytes)

-- The store, and for each .uidlist the bootstrap it goes back to, with the
-- seconds of the bootstraps so far. Nothing in the code keeps the last two.
structure History where
  store : Store
  origin : Loc → Option Nat
  births : List Nat

namespace History

def start (now : Nat) : History := ⟨⟨fun _ => none, fun _ => [], fun _ => none, now⟩, fun _ => none, []⟩

variable (s : History)

def loaded (loc : Loc) (d e : Folder) : History :=
  if readable d.uidlist then { s with store := s.store.setFolder loc e }
  else
    { store := s.store.setFolder loc e
      origin := Function.update s.origin loc (some s.births.length)
      births := s.births ++ [s.store.now] }

def step : Event → Option History
  | .tick now => some { s with store := { s.store with now := now } }
  | .create folder => some { s with store := (s.store.createFolder folder).1 }
  | .delete folder =>
    match s.store.deleteFolder folder with
    | (_, .error _) => none
    | (st, .ok ()) => some { s with store := st, origin := Function.update s.origin (.folder folder) none }
  | .rename oldName newName =>
    match s.store.renameFolder oldName newName with
    | (_, .error _) => none
    | (st, .ok ()) =>
      some { s with
        store := st
        origin := Function.update (Function.update s.origin (.folder newName) (s.origin (.folder oldName)))
          (.folder oldName) none }
  | .touch loc e =>
    match s.store.disk loc with
    | none => none
    | some d => if e.uidlist = d.uidlist then some { s with store := s.store.setFolder loc e } else none
  | .damage loc file =>
    match s.store.disk loc with
    | none => none
    | some d =>
      if readable file then none
      else
        some { s with
          store := s.store.setFolder loc { d with uidlist := file }
          origin := Function.update s.origin loc none }
  | .load loc keys =>
    match s.store.disk loc with
    | none => none
    | some d => some (s.loaded loc d (d.loadUidList s.store.now keys).2)
  | .expunge loc gone =>
    match s.store.disk loc with
    | none => none
    | some d =>
      let opened := d.loadUidList s.store.now d.curDirKeys
      some (s.loaded loc d (opened.2.expungeKeys opened.1 gone))

def bornAt (loc : Loc) : Option Nat := (s.origin loc).bind fun i => s.births[i]?

def Maps (loc : Loc) (uid : Nat) (key : Bytes) : Prop :=
  ∃ d, s.store.disk loc = some d ∧ uidIn d.uidlist key = some uid

end History

end Maildancer.Maildir

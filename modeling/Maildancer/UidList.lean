import Maildancer.Text.Decimal
import Maildancer.Text.Lines

namespace Maildancer

open Text

def uint32 (n : Nat) : Nat := n % 2 ^ 32

structure UidEntry where
  uid : Nat
  key : Bytes
deriving DecidableEq

-- The persistent UID-to-key mapping of one Maildir folder: a slice in the
-- order of assignment and the two lookup maps.
@[ext]
structure UidList where
  version : Int
  uidValidity : Nat
  uidNext : Nat
  entries : List UidEntry
  keyToUid : Bytes → Option Nat
  uidToKey : Nat → Option Bytes

namespace UidList

def uidlistVersion : Int := 3

def keys (u : UidList) : List Bytes := u.entries.map UidEntry.key

-- One turn of the assignment loops of reconcile and bootstrapUIDList.
def addKey (u : UidList) (key : Bytes) : UidList :=
  { u with
    entries := u.entries ++ [⟨u.uidNext, key⟩]
    keyToUid := Function.update u.keyToUid key (some u.uidNext)
    uidToKey := Function.update u.uidToKey u.uidNext (some key)
    uidNext := uint32 (u.uidNext + 1) }

def dropEntry (u : UidList) (e : UidEntry) : UidList :=
  { u with
    keyToUid := Function.update u.keyToUid e.key none
    uidToKey := Function.update u.uidToKey e.uid none }

-- The first loop of reconcile: remove the entries whose keys left cur/.
def sweep (u : UidList) (curKeys : List Bytes) : UidList :=
  { (u.entries.filter (·.key ∉ curKeys)).foldl dropEntry u with
    entries := u.entries.filter (·.key ∈ curKeys) }

def newKeys (u : UidList) (curKeys : List Bytes) : List Bytes :=
  curKeys.filter fun key => u.keyToUid key = none

-- The list updated against the keys in cur/, and whether anything changed.
def reconcile (u : UidList) (curKeys : List Bytes) : UidList × Bool :=
  let swept := u.sweep curKeys
  let added := sortStrings (swept.newKeys curKeys)
  (added.foldl addKey swept, decide (∃ e ∈ u.entries, e.key ∉ curKeys) || !added.isEmpty)

def empty (now : Nat) : UidList where
  version := uidlistVersion
  uidValidity := uint32 now
  uidNext := 1
  entries := []
  keyToUid := fun _ => none
  uidToKey := fun _ => none

def bootstrapUidList (now : Nat) (curKeys : List Bytes) : UidList :=
  (sortStrings curKeys).foldl addKey (empty now)

def headerLine (u : UidList) : Bytes :=
  decimalInt u.version ++ ascii " V" ++ decimal u.uidValidity ++ ascii " N" ++ decimal u.uidNext

def entryLine (e : UidEntry) : Bytes := decimal e.uid ++ space :: e.key

-- What write leaves in .uidlist after the rename.
def write (u : UidList) : Bytes := unlines (u.headerLine :: u.entries.map entryLine)

-- Each error keeps the text that its message quotes.
inductive ReadError
  | emptyFile
  | invalidHeader (line : Bytes)
  | invalidVersion (field : Bytes)
  | invalidValidityField (field : Bytes)
  | invalidValidityValue (field : Bytes)
  | invalidNextField (field : Bytes)
  | invalidNextValue (field : Bytes)
  | invalidEntry (line : Bytes)
  | invalidUid (line : Bytes)
  | emptyKey (line : Bytes)
  | tooLong
deriving DecidableEq

-- The tagged number of a header field, such as V1741824000.
def parseTagged (tag field : Bytes) (badField badValue : ReadError) : Except ReadError Nat :=
  if hasPrefix tag field then
    match parseUint 32 (field.drop 1) with
    | some n => .ok n
    | none => .error badValue
  else .error badField

def parseHeader (line : Bytes) : Except ReadError UidList :=
  match fields line with
  | [version, validity, next] =>
    match atoi version with
    | none => .error (.invalidVersion version)
    | some v => do
        let uidValidity ← parseTagged (ascii "V") validity (.invalidValidityField validity)
          (.invalidValidityValue validity)
        let uidNext ← parseTagged (ascii "N") next (.invalidNextField next)
          (.invalidNextValue next)
        return ⟨v, uidValidity, uidNext, [], fun _ => none, fun _ => none⟩
  | _ => .error (.invalidHeader line)

def parseEntry (line : Bytes) : Except ReadError UidEntry :=
  match cut space line with
  | none => .error (.invalidEntry line)
  | some (number, key) =>
    match parseUint 32 number with
    | none => .error (.invalidUid line)
    | some uid => if key = [] then .error (.emptyKey line) else .ok ⟨uid, key⟩

def addEntry (u : UidList) (e : UidEntry) : UidList :=
  { u with
    entries := u.entries ++ [e]
    keyToUid := Function.update u.keyToUid e.key (some e.uid)
    uidToKey := Function.update u.uidToKey e.uid (some e.key) }

def readEntries (u : UidList) : List Bytes → Except ReadError UidList
  | [] => .ok u
  | [] :: lines => readEntries u lines
  | line :: lines => do
      let e ← parseEntry line
      readEntries (u.addEntry e) lines

-- The outcome is none where the file does not exist.
def readUidList : Option Bytes → Except ReadError (Option UidList)
  | none => .ok none
  | some data =>
    let scan := scanLines data
    match scan.lines with
    | [] => .error .emptyFile
    | header :: lines => do
        let u ← parseHeader header
        let u ← readEntries u lines
        if scan.tooLong then .error .tooLong else return some u

-- The list for the keys in cur/ and the .uidlist file afterwards. An unreadable
-- file is removed and rebuilt like a missing one.
def loadOrBootstrapUidList (now : Nat) (file : Option Bytes) (curKeys : List Bytes) :
    UidList × Option Bytes :=
  match readUidList file with
  | .ok (some u) =>
    let (v, changed) := u.reconcile curKeys
    (v, if changed then some v.write else file)
  | _ =>
    let u := bootstrapUidList now curKeys
    (u, some u.write)

end UidList

end Maildancer

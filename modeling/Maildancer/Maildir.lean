import Maildancer.UidList

namespace Maildancer.Maildir

open Text

-- The flag characters of the info part of a file name in cur/.
inductive Flag
  | draft | flagged | passed | replied | seen | trashed
  | other (char : UInt8)
deriving DecidableEq

def Flag.char : Flag → UInt8
  | draft => 68
  | flagged => 70
  | passed => 80
  | replied => 82
  | seen => 83
  | trashed => 84
  | other char => char

inductive ImapFlag
  | recent | seen | answered | flagged | draft | deleted
  | keyword (name : Bytes)
deriving DecidableEq

def convertFlag : Flag → Option ImapFlag
  | .seen => some .seen
  | .replied => some .answered
  | .flagged => some .flagged
  | .draft => some .draft
  | .trashed => some .deleted
  | _ => none

def convertFlags (flags : List Flag) : List ImapFlag := flags.filterMap convertFlag

def convertFlagFromImap : ImapFlag → Option Flag
  | .seen => some .seen
  | .answered => some .replied
  | .flagged => some .flagged
  | .draft => some .draft
  | .deleted => some .trashed
  | _ => none

def convertFlagsFromImap (flags : List ImapFlag) : List Flag := flags.filterMap convertFlagFromImap

def infoFromFlags (flags : List Flag) : List Flag :=
  flags.insertionSort fun f g => f.char ≤ g.char

-- A file in new/ has no info part.
structure NewFile where
  key : Bytes
  data : Bytes
deriving DecidableEq

structure MsgFile where
  key : Bytes
  flags : List Flag
  data : Bytes
deriving DecidableEq

def NewFile.toCur (f : NewFile) (flags : List Flag) : MsgFile := ⟨f.key, flags, f.data⟩

-- One maildir directory. A key names at most one file of new/ and cur/.
@[ext]
structure Folder where
  new : List NewFile
  cur : List MsgFile
  uidlist : Option Bytes
  distinct : (new.map NewFile.key ++ cur.map MsgFile.key).Nodup

namespace Folder

def empty : Folder := ⟨[], [], none, List.nodup_nil⟩

def curDirKeys (d : Folder) : List Bytes := d.cur.map MsgFile.key

def maildirNewKeys (d : Folder) : List Bytes := d.new.map NewFile.key

def keys (d : Folder) : List Bytes := d.maildirNewKeys ++ d.curDirKeys

lemma curDirKeys_nodup (d : Folder) : d.curDirKeys.Nodup := (List.nodup_append.mp d.distinct).2.1

-- dir.Unseen: every file of new/ is renamed into cur/ with the empty info 2,.
def unseen (d : Folder) : Folder where
  new := []
  cur := d.cur ++ d.new.map (·.toCur [])
  uidlist := d.uidlist
  distinct := by
    have hkeys : (d.new.map (·.toCur [])).map MsgFile.key = d.new.map NewFile.key := by
      rw [List.map_map]
      rfl
    rw [List.map_append, hkeys, List.map_nil, List.nil_append]
    exact List.perm_append_comm.nodup_iff.mp d.distinct

-- dir.MessageByKey looks in cur/ only.
def messageByKey (d : Folder) (key : Bytes) : Option MsgFile := d.cur.find? (·.key = key)

-- msg.SetFlags of go-maildir sorts the flags and drops repetitions.
def setFlags (d : Folder) (key : Bytes) (flags : List Flag) : Folder where
  new := d.new
  cur := d.cur.map fun f => if f.key = key then { f with flags := infoFromFlags flags.dedup } else f
  uidlist := d.uidlist
  distinct := by
    rw [List.map_map]
    convert d.distinct using 3
    funext f
    simp only [Function.comp_apply]
    split <;> rfl

def removeMessages (d : Folder) (gone : List Bytes) : Folder where
  new := d.new
  cur := d.cur.filter (·.key ∉ gone)
  uidlist := d.uidlist
  distinct := d.distinct.sublist ((List.Sublist.refl _).append (List.filter_sublist.map _))

-- The delivery of a file under a fresh key, closed by a rename into new/.
def deliver (d : Folder) (f : NewFile) (hfresh : f.key ∉ d.keys) : Folder where
  new := d.new ++ [f]
  cur := d.cur
  uidlist := d.uidlist
  distinct := by
    rw [List.map_append, List.append_assoc]
    refine (List.perm_middle.nodup_iff).mpr (List.nodup_cons.mpr ⟨hfresh, d.distinct⟩)

-- msg.CopyTo places the copy in cur/ of the destination under a fresh key.
def addCopy (d : Folder) (f : MsgFile) (hfresh : f.key ∉ d.keys) : Folder where
  new := d.new
  cur := d.cur ++ [f]
  uidlist := d.uidlist
  distinct := by
    rw [List.map_append, ← List.append_assoc]
    exact (List.perm_append_singleton _ _).nodup_iff.mpr (List.nodup_cons.mpr ⟨hfresh, d.distinct⟩)

def moveToCur (d : Folder) (f : NewFile) (hf : f ∈ d.new) (flags : List Flag) : Folder where
  new := d.new.filter (·.key ≠ f.key)
  cur := d.cur ++ [f.toCur flags]
  uidlist := d.uidlist
  distinct := by
    rw [List.map_append, ← List.append_assoc]
    refine (List.perm_append_singleton _ _).nodup_iff.mpr (List.nodup_cons.mpr ⟨?_, ?_⟩)
    · rw [List.mem_append]
      rintro (hnew | hcur)
      · obtain ⟨g, hg, hkey⟩ := List.mem_map.mp hnew
        exact of_decide_eq_true (List.mem_filter.mp hg).2 hkey
      · exact (List.nodup_append.mp d.distinct).2.2 _ (List.mem_map_of_mem hf) _ hcur rfl
    · exact d.distinct.sublist ((List.filter_sublist.map _).append (List.Sublist.refl _))

-- moveNewToCurWithFlags renames one file; it fails where new/ has no such file.
def moveNewToCurWithFlags (d : Folder) (key : Bytes) (flags : List Flag) : Option Folder :=
  match h : d.new.find? (·.key = key) with
  | none => none
  | some f => some (d.moveToCur f (List.mem_of_find?_eq_some h) (infoFromFlags flags))

-- maildirNewKey: the first name in directory order that was not there before.
def maildirNewKey (d : Folder) (beforeKeys : List Bytes) : Option Bytes :=
  (sortStrings d.maildirNewKeys).find? (· ∉ beforeKeys)

-- The section between lockUIDList and unlockUIDList with the keys handed to it.
def loadUidList (d : Folder) (now : Nat) (curKeys : List Bytes) : UidList × Folder :=
  let (ul, file) := UidList.loadOrBootstrapUidList now d.uidlist curKeys
  (ul, { d with uidlist := file })

-- removeMessages with the reconcile and the write that end an expunge.
def expungeKeys (d : Folder) (ul : UidList) (gone : List Bytes) : Folder :=
  let rest := d.removeMessages gone
  { rest with uidlist := some (ul.reconcile rest.curDirKeys).1.write }

end Folder

end Maildancer.Maildir

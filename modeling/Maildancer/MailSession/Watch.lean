import Maildancer.MailSession

namespace Maildancer.MailSession

open Text Maildir

-- A delivery by another process into a directory that is there. It is one
-- rename into new/, which no listing under way can miss or see in part.
def deliverTo (st : Store) (loc : Loc) (f : NewFile) : Option Store :=
  match st.disk loc with
  | none => none
  | some d =>
    if hfresh : f.key ∉ d.keys then some (st.setFolder loc (d.deliver f hfresh)) else none

def deliverAll (loc : Loc) : Store → List NewFile → Option Store
  | st, [] => some st
  | st, f :: files => (deliverTo st loc f).bind fun st => deliverAll loc st files

-- The body of the Rescan call and of a tick of Watch, with the deliveries that
-- arrive between its two listings. The lock keeps out other calls only.
def selectAndRescan (p : Process) (folder : Bytes) (loc : Loc) (during : List NewFile) :
    Option (Process × Except RpcError (List MessageInfo)) :=
  match p.select folder with
  | (p, .error e) => some (p, .error (.select folder e))
  | (p, .ok _) => (deliverAll loc p.store during).map fun st =>
    MailboxServer.lift .rescan (Process.rescan ⟨p.sess, st⟩)

structure Tick where
  before : List NewFile
  during : List NewFile

-- A tick that fails is skipped.
def watchTick (p : Process) (folder : Bytes) (loc : Loc) (t : Tick) :
    Option (Process × List MessageInfo) :=
  (deliverAll loc p.store t.before).bind fun st =>
    (selectAndRescan ⟨p.sess, st⟩ folder loc t.during).map fun r =>
      match r with
      | (p, .error _) => (p, [])
      | (p, .ok newMsgs) => (p, newMsgs)

def watchLoop (folder : Bytes) (loc : Loc) :
    Process → List Tick → Option (Process × List (List MessageInfo))
  | p, [] => some (p, [])
  | p, t :: ticks =>
    (watchTick p folder loc t).bind fun (p, newMsgs) =>
      (watchLoop folder loc p ticks).map fun (p, events) =>
        (p, if newMsgs = [] then events else newMsgs :: events)

def watch (p : Process) (folder : Bytes) (loc : Loc) (ticks : List Tick) :
    Option (Process × Except RpcError (List (List MessageInfo))) :=
  let folder := MailboxServer.folderOrInbox folder
  match p.select folder with
  | (p, .error e) => some (p, .error (.select folder e))
  | (p, .ok _) => (watchLoop folder loc p ticks).map fun (p, events) => (p, .ok events)

end Maildancer.MailSession

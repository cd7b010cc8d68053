import Maildancer.Imap
import Maildancer.Transition

namespace Maildancer.Imap

open Text Maildir MailSession

-- The store interfaces as the session uses them, over the states of what stands
-- behind them. A store without MoveMessage has none.
structure FolderStore (σ ε : Type) where
  list : σ → Bytes → σ × Except ε (List MessageInfo)
  retrieve : σ → Bytes → Nat → σ × Except ε Bytes
  delete : σ → Bytes → Nat → σ × Except ε Unit
  expunge : σ → Bytes → σ × Except ε Unit
  setFlags : σ → Bytes → Nat → List ImapFlag → σ × Except ε Unit
  copy : σ → Bytes → Nat → Bytes → σ × Except ε Nat
  move : Option (σ → Bytes → Nat → Bytes → σ × Except ε Nat)

-- The selected state. The tracker counts the messages it has announced; here it
-- also keeps which ones they are, by UID.
structure View where
  selectedMailbox : Bytes
  readOnly : Bool
  messages : List MessageInfo
  announced : List Nat

structure Selected (σ : Type) where
  server : σ
  view : View

structure LearnConfig where
  folding : Folding
  junkFolder : Bytes
  learner : Bool

-- QueueExpunge panics where the sequence number is out of range.
def queueExpunge (announced : List Nat) (seqNum : Nat) : Option (List Nat) :=
  if seqNum = 0 ∨ announced.length < seqNum then none else some (announced.eraseIdx (seqNum - 1))

def queueExpunges (announced : List Nat) (seqNums : List Nat) : Option (List Nat) :=
  seqNums.foldlM queueExpunge announced

-- QueueNumMessages panics where the number decreases. The messages it adds are
-- those that stand in the list behind the known ones.
def queueNumMessages (announced : List Nat) (messages : List MessageInfo) : Option (List Nat) :=
  if messages.length < announced.length then none
  else some (announced ++ (messages.drop announced.length).map MessageInfo.uid)

-- The numbers of a set without "*", which go-imap keeps in order.
structure Numbers where
  nums : List Nat
  sorted : nums.Pairwise (· < ·)
  positive : ∀ n ∈ nums, 0 < n

inductive NumSet
  | seq (set : Numbers)
  | seqDynamic (contains : Nat → Bool)
  | uid (set : Numbers)
  | uidDynamic (contains : Nat → Bool)

-- The index that is built from the message list; a later message wins.
def uidIndex (messages : List MessageInfo) (uid : Nat) : Option Nat :=
  (messages.zipIdx.reverse.find? fun entry => entry.1.uid = uid).map Prod.snd

-- A range with "*" always has the last message.
def resolveNumSet (messages : List MessageInfo) : NumSet → List Nat
  | .seq set => set.nums.map (· - 1)
  | .seqDynamic contains =>
    (List.range messages.length).filter fun i => contains (i + 1) || i + 1 = messages.length
  | .uid set => set.nums.filterMap (uidIndex messages)
  | .uidDynamic contains =>
    (messages.zipIdx.filter fun entry => contains entry.1.uid || entry.2 + 1 = messages.length).map Prod.snd

inductive StoreOp
  | set | add | del
deriving DecidableEq

structure StoreFlags where
  op : StoreOp
  flags : List ImapFlag
  silent : Bool

def applyStoreFlags (current : List ImapFlag) (store : StoreFlags) : List ImapFlag :=
  match store.op with
  | .set => store.flags
  | .add => store.flags.foldl (fun result f => if f ∈ result then result else result ++ [f]) current
  | .del => current.filter (· ∉ store.flags)

-- The other tests of the source all need a slash.
def isValidMailboxName (name : Bytes) : Bool :=
  name ≠ [] ∧ (47 : UInt8) ∉ name ∧ (92 : UInt8) ∉ name ∧ name ≠ ascii ".."

def View.setFlagsAt (v : View) (idx : Nat) (flags : List ImapFlag) : View :=
  { v with messages := v.messages.modify idx fun m => { m with flags := flags } }

-- What a FETCH asks for: the content, and a section that sets \Seen.
structure FetchOptions where
  needContent : Bool
  markSeen : Bool

section Commands

variable {σ ε : Type} (store : FolderStore σ ε) (cfg : LearnConfig)

def select (server : σ) (mailbox : Bytes) (readOnly : Bool) : Option (Selected σ) :=
  match store.list server (rpcFolder mailbox) with
  | (_, .error _) => none
  | (server, .ok msgs) => some ⟨server, ⟨mailbox, readOnly, msgs, msgs.map MessageInfo.uid⟩⟩

-- The loop of Store. It ends early where the flags cannot be set or the response cannot be written.
def storeLoop (flags : StoreFlags) (writes : Nat → Bool) : List Nat → Selected σ → Selected σ
  | [], s => s
  | idx :: rest, s =>
    match s.view.messages[idx]? with
    | none => storeLoop flags writes rest s
    | some info =>
      let newFlags := applyStoreFlags info.flags flags
      match store.setFlags s.server s.view.selectedMailbox info.uid newFlags with
      | (server, .error _) => ⟨server, s.view⟩
      | (server, .ok ()) =>
        if flags.silent || writes (idx + 1) then
          storeLoop flags writes rest ⟨server, s.view.setFlagsAt idx newFlags⟩
        else ⟨server, s.view.setFlagsAt idx newFlags⟩

-- The error of SetFlags is ignored; the flags in memory change anyway.
def markSeen (s : Selected σ) (info : MessageInfo) : Selected σ :=
  if s.view.readOnly ∨ ImapFlag.seen ∈ info.flags then s
  else
    let newFlags := applyStoreFlags info.flags ⟨.add, [.seen], false⟩
    ⟨(store.setFlags s.server s.view.selectedMailbox info.uid newFlags).1,
      s.view.setFlagsAt (s.view.messages.findIdx fun m => m.uid = info.uid) newFlags⟩

def fetchMessage (opts : FetchOptions) (s : Selected σ) (info : MessageInfo) : Selected σ × Except ε Unit :=
  match if opts.needContent then store.retrieve s.server (rpcFolder s.view.selectedMailbox) info.uid
      else (s.server, .ok []) with
  | (server, .error e) => (⟨server, s.view⟩, .error e)
  | (server, .ok _) => (if opts.markSeen then markSeen store ⟨server, s.view⟩ info else ⟨server, s.view⟩, .ok ())

def fetchLoop (opts : FetchOptions) (writes : Nat → Bool) : List Nat → Selected σ → Selected σ
  | [], s => s
  | idx :: rest, s =>
    match s.view.messages[idx]? with
    | none => fetchLoop opts writes rest s
    | some info =>
      match fetchMessage store opts s info with
      | (s, .error _) => s
      | (s, .ok ()) => if writes (idx + 1) then fetchLoop opts writes rest s else s

-- A message that crosses the border of the junk folder is read for learning.
def triggerLearn (server : σ) (srcFolder : Bytes) (uid : Nat) (dest : Bytes) : σ :=
  if cfg.learner ∧ cfg.folding.foldEq srcFolder cfg.junkFolder ≠ cfg.folding.foldEq dest cfg.junkFolder then
    (store.retrieve server (rpcFolder srcFolder) uid).1
  else server

def copyAll (srcFolder dest : Bytes) : List MessageInfo → σ → σ
  | [], server => server
  | info :: rest, server =>
    match store.copy (triggerLearn store cfg server srcFolder info.uid dest) srcFolder info.uid dest with
    | (server, .error _) => server
    | (server, .ok _) => copyAll srcFolder dest rest server

def moveOne (server : σ) (srcFolder : Bytes) (uid : Nat) (dest : Bytes) : σ × Except ε Unit :=
  match store.move with
  | some moveMessage =>
    match moveMessage server srcFolder uid dest with
    | (server, .error e) => (server, .error e)
    | (server, .ok _) => (server, .ok ())
  | none =>
    match store.copy server srcFolder uid dest with
    | (server, .error e) => (server, .error e)
    | (server, .ok _) => store.delete server (rpcFolder srcFolder) uid

def moveAll (srcFolder dest : Bytes) : List MessageInfo → σ → σ × Except ε Unit
  | [], server => (server, .ok ())
  | info :: rest, server =>
    match moveOne store (triggerLearn store cfg server srcFolder info.uid dest) srcFolder info.uid dest with
    | (server, .error e) => (server, .error e)
    | (server, .ok ()) => moveAll srcFolder dest rest server

def namedSeqNums (v : View) (set : NumSet) : List Nat :=
  (((resolveNumSet v.messages set).insertionSort (· ≤ ·)).filter (· < v.messages.length)).reverse.map (· + 1)

-- The list is replaced by a fresh one once the tracker has been told.
def relist (server : σ) (v : View) (announced : List Nat) : Selected σ :=
  match store.list server (rpcFolder v.selectedMailbox) with
  | (server, .error _) => ⟨server, { v with announced := announced }⟩
  | (server, .ok msgs) => ⟨server, { v with messages := msgs, announced := announced }⟩

-- The part of Move before the tracker is told, and whether it gets that far. The
-- last argument tells whether the COPYUID response can be written.
def movePart (s : Selected σ) (set : NumSet) (dest : Bytes) (written : Bool) : σ × Bool :=
  if ¬ equalFold dest inbox ∧ ¬ isValidMailboxName dest then (s.server, false)
  else
    let resolved := (resolveNumSet s.view.messages set).insertionSort (· ≤ ·)
    match moveAll store cfg s.view.selectedMailbox dest
        (resolved.filterMap fun idx => s.view.messages[idx]?) s.server with
    | (server, .error _) => (server, false)
    | (server, .ok ()) =>
      match if store.move.isNone ∧ resolved ≠ [] then
          store.expunge server (rpcFolder s.view.selectedMailbox) else (server, .ok ()) with
      | (server, .error _) => (server, false)
      | (server, .ok ()) => (server, written)

def moveMessages (s : Selected σ) (set : NumSet) (dest : Bytes) (written : Bool) : Option (Selected σ) :=
  match movePart store cfg s set dest written with
  | (server, false) => some ⟨server, s.view⟩
  | (server, true) =>
    (queueExpunges s.view.announced (namedSeqNums s.view set)).map (relist store server s.view)

structure Deletions (σ : Type) where
  server : σ
  queued : List Nat

-- One turn of the loop of Expunge; a failed delete is logged and skipped.
def deleteStep (mailbox : Bytes) (uids : Option (Nat → Bool)) (d : Deletions σ) (entry : MessageInfo × Nat) :
    Deletions σ :=
  if uidsContain uids entry.1.uid ∧ ImapFlag.deleted ∈ entry.1.flags then
    match store.delete d.server (rpcFolder mailbox) entry.1.uid with
    | (server, .error _) => ⟨server, d.queued⟩
    | (server, .ok ()) => ⟨server, d.queued ++ [entry.2]⟩
  else d

def deleteFlagged (s : Selected σ) (uids : Option (Nat → Bool)) : Deletions σ :=
  (s.view.messages.zipIdx 1).reverse.foldl (deleteStep store s.view.selectedMailbox uids) ⟨s.server, []⟩

def expungeMessages (s : Selected σ) (uids : Option (Nat → Bool)) : Option (Selected σ) :=
  let d := deleteFlagged store s uids
  (queueExpunges s.view.announced d.queued).map fun announced =>
    if d.queued = [] then ⟨d.server, s.view⟩
    else
      match store.expunge d.server (rpcFolder s.view.selectedMailbox) with
      | (server, .error _) => ⟨server, { s.view with announced := announced }⟩
      | (server, .ok ()) => relist store server s.view announced

-- A notification during IDLE. The messages that are not in the list are added.
def idleNotified (s : Selected σ) (payload : Bytes) : Option (Selected σ) :=
  if cfg.folding.foldEq payload s.view.selectedMailbox then
    match store.list s.server (rpcFolder s.view.selectedMailbox) with
    | (server, .error _) => some ⟨server, s.view⟩
    | (server, .ok all) =>
      let newMsgs := all.filter fun m => m.uid ∉ s.view.messages.map MessageInfo.uid
      if newMsgs = [] then some ⟨server, s.view⟩
      else
        (queueNumMessages s.view.announced (s.view.messages ++ newMsgs)).map fun announced =>
          ⟨server, { s.view with messages := s.view.messages ++ newMsgs, announced := announced }⟩
  else some s

inductive Event (σ : Type)
  | store (set : NumSet) (flags : StoreFlags) (writes : Nat → Bool)
  | fetch (set : NumSet) (opts : FetchOptions) (writes : Nat → Bool)
  | copy (set : NumSet) (dest : Bytes)
  | move (set : NumSet) (dest : Bytes) (written : Bool)
  | expunge (uids : Option (Nat → Bool))
  | notified (payload : Bytes)
  | others (act : σ → σ)

-- A panic ends the connection.
def step (s : Selected σ) : Event σ → Option (Selected σ)
  | .store set flags writes => some (storeLoop store flags writes (resolveNumSet s.view.messages set) s)
  | .fetch set opts writes => some (fetchLoop store opts writes (resolveNumSet s.view.messages set) s)
  | .copy set dest =>
    if ¬ equalFold dest inbox ∧ ¬ isValidMailboxName dest then some s
    else some ⟨copyAll store cfg s.view.selectedMailbox dest
      ((resolveNumSet s.view.messages set).filterMap fun idx => s.view.messages[idx]?) s.server, s.view⟩
  | .move set dest written => moveMessages store cfg s set dest written
  | .expunge uids => expungeMessages store s uids
  | .notified payload => idleNotified store cfg s payload
  | .others act => some ⟨act s.server, s.view⟩

end Commands

end Maildancer.Imap

import Maildancer.Address
import Maildancer.Attempt
import Maildancer.Text.Path
import Maildancer.Maildir.Store

namespace Maildancer.Deliver

open Text Queue Msgstore Maildir

structure DeliverRequest where
  recipient : Bytes
  forwarded : Bool

structure Domain where
  maxMessageSize : Int
  hasDeliveryAgent : Bool
  hasFolderStore : Bool

structure FileintoTarget where
  folder : Bytes
  flags : List Bytes

structure SieveOutcome where
  rejectReason : Bytes
  fileinto : List FileintoTarget
  keep : Bool
  keepFlags : List Bytes
  redirects : List Bytes

-- The actions of the interpreter. A reject and an ereject are told apart by their types only.
inductive Action
  | keep (flags : List Bytes)
  | fileInto (mailbox : Bytes) (flags : List Bytes)
  | redirect (address : Bytes)
  | reject (reason : Bytes)
  | discard

structure RuntimeData where
  appliedActions : List Action
  implicitKeep : Bool
  flags : List Bytes

-- sievePolicy.RedirectAllowed; what mail.ParseAddress takes is given.
def redirectAllowed (f : Folding) (parses : Bytes → Bool) (req : DeliverRequest) (addr : Bytes) : Bool :=
  !req.forwarded && !f.foldEq addr req.recipient && parses addr

-- A script as the interpreter runs it on a message, under a redirect policy.
-- There is no data where loading, parsing or executing it fails.
structure Script where
  execute : (Bytes → Bool) → Option RuntimeData
  obeys : ∀ allowed data addr, execute allowed = some data → .redirect addr ∈ data.appliedActions →
    allowed addr = true

def digestAction (outcome : SieveOutcome) : Action → SieveOutcome
  | .keep flags => { outcome with keep := true, keepFlags := flags }
  | .fileInto mailbox flags =>
    if equalFold mailbox (ascii "INBOX") then { outcome with keep := true, keepFlags := flags }
    else { outcome with fileinto := outcome.fileinto ++ [⟨mailbox, flags⟩] }
  | .redirect address => { outcome with redirects := outcome.redirects ++ [address] }
  | .reject reason => { outcome with rejectReason := reason }
  | .discard => outcome

def digestActions (data : RuntimeData) : SieveOutcome :=
  let outcome := data.appliedActions.foldl digestAction ⟨[], [], false, [], []⟩
  if data.implicitKeep && !outcome.keep then { outcome with keep := true, keepFlags := data.flags } else outcome

def dedupeFoldFrom (c : CaseMap) (seen : List Bytes) : List Bytes → List Bytes
  | [] => []
  | a :: rest =>
    if c.lower a ∈ seen then dedupeFoldFrom c seen rest
    else a :: dedupeFoldFrom c (c.lower a :: seen) rest

def dedupeFold (c : CaseMap) (addrs : List Bytes) : List Bytes := dedupeFoldFrom c [] addrs

structure Copy where
  mailbox : Bytes
  folder : Bytes
  flags : List Bytes
  data : Bytes
deriving DecidableEq

inductive Refusal
  | noRecipient
  | invalidRecipient
  | domainNotFound
  | tooLarge
  | noDeliveryAgent
  | encryptionUnavailable
  | script (reason : Bytes)

inductive DeliverResponse
  | delivered (folder : Bytes)
  | rejected (temporary : Bool) (reason : Refusal)
  | redirected (addresses : List Bytes)

structure Deliverer where
  folding : Folding
  storeBasePath : Bytes
  getDomain : Bytes → Option Domain
  parses : Bytes → Bool
  script : Option Script
  folderIfExists : Bytes → Bytes → Bool
  readFile : Bytes → ReadResult
  encryptMessage : Bytes → Bytes → Option Bytes

abbrev Outcome := List Copy × Option DeliverResponse

-- How each write ends, by its place in the order in which they are tried.
variable (d : Deliverer) (attempt : Nat → Attempt)

-- MaildirStore.DeliverToFolder and the write in Deliver: the message is moved into new/ last.
def write (n : Nat) (copy : Copy) : List Copy × Bool := (⟨some copy, false⟩ : Step Copy).run (attempt n)

-- MaildirStore.AppendToFolder goes on once the message is in new/.
def append (n : Nat) (copy : Copy) : List Copy × Bool := (⟨some copy, true⟩ : Step Copy).run (attempt n)

def subaddressFolder (r : Recipient) : Bytes :=
  if r.extension ≠ [] ∧ d.folderIfExists r.address r.extension then r.extension else ascii "INBOX"

def deliverLocal (n : Nat) (dom : Domain) (req : DeliverRequest) (msg : Bytes) : Outcome :=
  if !dom.hasDeliveryAgent then ([], some (.rejected true .noDeliveryAgent))
  else
    let r := parseRecipient req.recipient
    let folder := subaddressFolder d r
    match write attempt n ⟨r.address, folder, [], msg⟩ with
    | (copies, true) => (copies, some (.delivered folder))
    | (copies, false) => (copies, none)

-- The response of the normal delivery path is not looked at.
def deliverToFolder (n : Nat) (dom : Domain) (req : DeliverRequest) (mailbox : Bytes) (target : FileintoTarget)
    (msg : Bytes) : List Copy × Bool :=
  if !dom.hasFolderStore then
    let (copies, response) := deliverLocal d attempt n dom req msg
    (copies, response.isSome)
  else if target.flags ≠ [] then
    match folderOrInboxPath target.folder with
    | .error _ => ([], false)
    | .ok _ => append attempt n ⟨mailbox, target.folder, target.flags, msg⟩
  else if equalFold target.folder (ascii "INBOX") then
    let (copies, response) := deliverLocal d attempt n dom req msg
    (copies, response.isSome)
  else match folderPath target.folder with
    | .error _ => ([], false)
    | .ok _ => write attempt n ⟨mailbox, target.folder, [], msg⟩

def fileAll (n : Nat) (dom : Domain) (req : DeliverRequest) (mailbox msg : Bytes) :
    List FileintoTarget → Bytes → List Copy × Option Bytes
  | [], folder => ([], some folder)
  | target :: rest, _ =>
    match deliverToFolder d attempt n dom req mailbox target msg with
    | (copies, false) => (copies, none)
    | (copies, true) =>
      let (more, folder) := fileAll (n + 1) dom req mailbox msg rest target.folder
      (copies ++ more, folder)

def applyKeep (n : Nat) (dom : Domain) (req : DeliverRequest) (mailbox msg : Bytes) (outcome : SieveOutcome)
    (folder : Bytes) : Outcome :=
  if !outcome.keep then ([], some (.delivered folder))
  else if outcome.keepFlags ≠ [] then
    match deliverToFolder d attempt n dom req mailbox ⟨ascii "INBOX", outcome.keepFlags⟩ msg with
    | (copies, false) => (copies, none)
    | (copies, true) => (copies, some (.delivered (ascii "INBOX")))
  else deliverLocal d attempt n dom req msg

def applySieve (dom : Domain) (req : DeliverRequest) (outcome : SieveOutcome) (msg : Bytes) : Outcome :=
  if outcome.rejectReason ≠ [] then ([], some (.rejected false (.script outcome.rejectReason)))
  else
    let mailbox := (parseRecipient req.recipient).address
    match fileAll d attempt 0 dom req mailbox msg outcome.fileinto [] with
    | (copies, none) => (copies, none)
    | (copies, some folder) =>
      match applyKeep d attempt outcome.fileinto.length dom req mailbox msg outcome folder with
      | (more, some (.delivered folder)) =>
        (copies ++ more,
          some (if outcome.redirects ≠ [] then .redirected (dedupeFold d.folding.toCaseMap outcome.redirects)
            else .delivered folder))
      | (more, response) => (copies ++ more, response)

def keyringPubFile : Bytes := ascii "keyring.pub"

def keyringPath (storeBasePath recipient : Bytes) : Bytes :=
  joinPath [storeBasePath, (splitAddress (parseRecipient recipient).address).1, keyringPubFile]

def maybeEncrypt (req : DeliverRequest) (msg : Bytes) : Option Bytes :=
  if d.storeBasePath = [] then some msg
  else match d.readFile (keyringPath d.storeBasePath req.recipient) with
    | .notExist => some msg
    | .failed => none
    | .content pubKey => d.encryptMessage msg pubKey

def validRecipient (recipient : Bytes) : Bool :=
  let (localPart, domainName) := splitAddress recipient
  validAddressComponent localPart && validAddressComponent domainName

def runScript (req : DeliverRequest) : Option RuntimeData :=
  d.script.bind fun script => script.execute (redirectAllowed d.folding d.parses req)

def runSieve (req : DeliverRequest) : Option SieveOutcome := (runScript d req).map digestActions

def deliver (req : DeliverRequest) (msg : Bytes) : Outcome :=
  if req.recipient = [] then ([], some (.rejected false .noRecipient))
  else if !validRecipient req.recipient then ([], some (.rejected false .invalidRecipient))
  else match d.getDomain (splitAddress req.recipient).2 with
    | none => ([], some (.rejected true .domainNotFound))
    | some dom =>
      if 0 < dom.maxMessageSize ∧ dom.maxMessageSize < msg.length then ([], some (.rejected false .tooLarge))
      else match maybeEncrypt d req msg with
        | none => ([], some (.rejected true .encryptionUnavailable))
        | some stored =>
          match runSieve d req with
          | some outcome => applySieve d attempt dom req outcome stored
          | none => deliverLocal d attempt 0 dom req stored

end Maildancer.Deliver

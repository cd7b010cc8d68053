import Maildancer.Imap.View
import Maildancer.MailSession.Decrypting

namespace Maildancer.Imap

open Text Maildir MailSession

-- A time as its distance from the zero time.
structure Time where
  nanoseconds : Int
deriving DecidableEq

namespace Time

def zero : Time := ⟨0⟩

def isZero (t : Time) : Bool := t = zero

def before (t u : Time) : Bool := t.nanoseconds < u.nanoseconds

-- Truncate to 24 hours.
def day (t : Time) : Time := ⟨t.nanoseconds - t.nanoseconds % (24 * 60 * 60 * 1000000000)⟩

end Time

structure DatedInfo extends MessageInfo where
  internalDate : Time

structure ContentQuery where
  uids : List Nat
  bodyTerms : List Bytes
  textTerms : List Bytes
  needHeaders : Bool

structure ContentMatch where
  uid : Nat
  headers : Bytes
  bodyMatches : List Bool
  textMatches : List Bool

def index (sub s : Bytes) : Option Nat := s.tails.findIdx? (hasPrefix sub)

-- The header block with the blank line that ends it, and the body.
def splitMessage (data : Bytes) : Bytes × Bytes :=
  match index [13, 10, 13, 10] data with
  | some i => (data.take (i + 4), data.drop (i + 4))
  | none =>
    match index [10, 10] data with
    | some i => (data.take (i + 2), data.drop (i + 2))
    | none => (data, [])

def matchMessageContent (f : CaseMap) (data : Bytes) (uid : Nat) (q : ContentQuery) : ContentMatch :=
  let (header, body) := splitMessage data
  ⟨uid, if q.needHeaders then header else [],
    q.bodyTerms.map fun term => contains (f.lower term) (f.lower body),
    q.textTerms.map fun term => contains (f.lower term) (f.lower data)⟩

section Store

variable {σ ε : Type}

-- A message that cannot be retrieved is left out.
def scanContent (f : CaseMap) (q : ContentQuery) (retrieve : σ → Nat → σ × Except ε Bytes) :
    List Nat → σ → σ × List ContentMatch
  | [], s => (s, [])
  | uid :: rest, s =>
    match retrieve s uid with
    | (s, .error _) => scanContent f q retrieve rest s
    | (s, .ok data) =>
      let (s, found) := scanContent f q retrieve rest s
      (s, matchMessageContent f data uid q :: found)

-- The stores as SELECT, FETCH and SEARCH read them. An empty listing of some of them is nil.
structure Reader (σ ε : Type) where
  list : σ → Bytes → σ × Except ε (List DatedInfo)
  retrieve : σ → Bytes → Nat → σ × Except ε Bytes
  searchContent : σ → Bytes → ContentQuery → σ × Except ε (List ContentMatch)
  nilListing : Bool

end Store

def Box.searchContent (b : Box) (sessionKey : Option Bytes) (f : CaseMap) (p : Process) (folder : Bytes)
    (q : ContentQuery) : Process × Except RpcError (List ContentMatch) :=
  MailboxServer.withFolder p folder fun p =>
    let uids := if q.uids = [] then p.sess.msgs.map MessageInfo.uid else q.uids
    let (p, found) := scanContent f q (fun p uid => ((p.retrieve uid).1,
      (p.retrieve uid).2.map (b.decryptOrRaw sessionKey))) uids p
    (p, .ok found)

-- The adapter of the session manager. The messages of its listing have no date.
def sessionManagerReader (b : Box) (sessionKey : Option Bytes) (f : CaseMap) : Reader Process RpcError where
  list p mailbox := ((listMessages p mailbox).1, (listMessages p mailbox).2.map (List.map (⟨·, .zero⟩)))
  retrieve p mailbox uid := b.fetch sessionKey p (rpcFolder mailbox) uid
  searchContent p mailbox q := Box.searchContent b sessionKey f p mailbox q
  nilListing := false

-- SearchContentStore sends only these spellings to the root mailbox.
def searchRoot (folder : Bytes) : Bool := folder = [] ∨ folder = ascii "INBOX" ∨ folder = ascii "inbox"

def listStore (st : Store) (folder : Bytes) : Store × Except StoreError (List MessageInfo) :=
  if searchRoot folder then (st.list.1, .ok st.list.2) else st.listInFolder folder

def retrieveStore (st : Store) (folder : Bytes) (uid : Nat) : Store × Except StoreError Bytes :=
  if searchRoot folder then st.retrieve uid else st.retrieveFromFolder folder uid

def searchContentStore (b : Box) (sessionKey : Option Bytes) (f : CaseMap) (st : Store) (folder : Bytes)
    (q : ContentQuery) : Store × Except StoreError (List ContentMatch) :=
  let scan := scanContent f q fun st uid => ((retrieveStore st folder uid).1,
    (retrieveStore st folder uid).2.map (b.decryptOrRaw sessionKey))
  if q.uids = [] then
    match listStore st folder with
    | (st, .error e) => (st, .error e)
    | (st, .ok msgs) => ((scan (msgs.map MessageInfo.uid) st).1, .ok (scan (msgs.map MessageInfo.uid) st).2)
  else ((scan q.uids st).1, .ok (scan q.uids st).2)

-- The store itself, with the modification times of the files.
def storeReader (b : Box) (sessionKey : Option Bytes) (f : CaseMap) (modTime : Bytes → Bytes → Time) :
    Reader Store StoreError where
  list st mailbox := ((Process.listFolder st mailbox).1,
    (Process.listFolder st mailbox).2.map (List.map fun m => ⟨m, modTime mailbox m.key⟩))
  retrieve st mailbox uid :=
    let (st, data) := if equalFold mailbox inbox then st.retrieve uid else st.retrieveFromFolder mailbox uid
    (st, data.map (b.decryptOrRaw sessionKey))
  searchContent st mailbox q := searchContentStore b sessionKey f st mailbox q
  nilListing := true

-- What the mail libraries make of a message. A header that cannot be read has no
-- envelope; the lookup of a field that is missing is empty.
structure Library (Envelope Structure Section : Type) where
  readHeader : Bytes → Option (Bytes → Bytes)
  parseDate : Bytes → Option Time
  extractEnvelope : Bytes → Option Envelope
  extractBodyStructure : Bytes → Structure
  extractBodySection : Bytes → Section → Bytes

inductive FetchItem (Envelope Structure Section : Type)
  | uid (uid : Nat)
  | flags (flags : List ImapFlag)
  | rfc822Size (size : Nat)
  | internalDate (date : Time)
  | envelope (envelope : Envelope)
  | bodyStructure (value : Structure)
  | bodySection (part : Section) (data : Bytes)

structure FetchRequest (Section : Type) where
  uid : Bool
  flags : Bool
  rfc822Size : Bool
  internalDate : Bool
  envelope : Bool
  bodyStructure : Bool
  bodySection : List Section

def FetchRequest.needContent {Section : Type} (req : FetchRequest Section) : Bool :=
  req.envelope || req.rfc822Size || req.internalDate || !req.bodySection.isEmpty || req.bodyStructure

section Fetch

variable {Envelope Structure Section : Type} (lib : Library Envelope Structure Section)

def fetchItems (req : FetchRequest Section) (now : Time) (info : DatedInfo) (content : Bytes) :
    List (FetchItem Envelope Structure Section) :=
  (if req.uid then [.uid info.uid] else []) ++
  (if req.flags then [.flags info.flags] else []) ++
  (if req.rfc822Size then [.rfc822Size (if info.size = 0 then content.length else info.size)] else []) ++
  (if req.internalDate then [.internalDate (if info.internalDate.isZero then now else info.internalDate)] else []) ++
  (if req.envelope then (lib.extractEnvelope content).toList.map .envelope else []) ++
  (if req.bodyStructure then [.bodyStructure (lib.extractBodyStructure content)] else []) ++
  req.bodySection.map fun part => .bodySection part (lib.extractBodySection content part)

variable {σ ε : Type} (reader : Reader σ ε)

-- The loop of Fetch. Numbers that no message has are skipped; it ends where a
-- message cannot be retrieved, with the responses before it written.
def Reader.fetchLoop (req : FetchRequest Section) (clock : Nat → Time) (mailbox : Bytes) (messages : List DatedInfo) :
    List Nat → σ → List (Nat × List (FetchItem Envelope Structure Section)) × Option ε
  | [], _ => ([], none)
  | idx :: rest, s =>
    match messages[idx]? with
    | none => fetchLoop req clock mailbox messages rest s
    | some info =>
      match if req.needContent then reader.retrieve s mailbox info.uid else (s, .ok []) with
      | (_, .error e) => ([], some e)
      | (s, .ok content) =>
        let (responses, failed) := fetchLoop req clock mailbox messages rest s
        ((idx + 1, fetchItems lib req (clock idx) info content) :: responses, failed)

-- A FETCH right after the SELECT of a mailbox; none where it cannot be selected.
def Reader.fetchAfterSelect (req : FetchRequest Section) (clock : Nat → Time) (set : NumSet) (s : σ) (mailbox : Bytes) :
    Option (List (Nat × List (FetchItem Envelope Structure Section)) × Bool) :=
  match reader.list s mailbox with
  | (_, .error _) => none
  | (s, .ok messages) =>
    let indices := resolveNumSet (messages.map DatedInfo.toMessageInfo) set
    let (responses, failed) := reader.fetchLoop lib req clock mailbox messages indices s
    some (responses, failed.isSome)

end Fetch

-- One node of SearchCriteria without its branches. The sets are what their Contains answers.
structure Conditions where
  seqNum : List (Nat → Bool)
  uid : List (Nat → Bool)
  flag : List ImapFlag
  notFlag : List ImapFlag
  larger : Int
  smaller : Int
  since : Time
  before : Time
  sentSince : Time
  sentBefore : Time
  header : List (Bytes × Bytes)
  body : List Bytes
  text : List Bytes

inductive Criteria
  | node (here : Conditions) (nots : List Criteria) (ors : List (Criteria × Criteria))

structure ContentTerms where
  bodyTerms : List Bytes
  textTerms : List Bytes
  needHeaders : Bool
  hasContent : Bool

def addTerm (f : CaseMap) (terms : List Bytes) (term : Bytes) : List Bytes :=
  if terms.any (f.lower · = f.lower term) then terms else terms ++ [term]

namespace Conditions

variable (c : Conditions)

def usesInternalDate : Bool := !c.since.isZero || !c.before.isZero

def usesSentDate : Bool := !c.sentSince.isZero || !c.sentBefore.isZero

def collect (f : CaseMap) (terms : ContentTerms) : ContentTerms :=
  ⟨c.body.foldl (addTerm f) terms.bodyTerms, c.text.foldl (addTerm f) terms.textTerms,
    terms.needHeaders || !c.header.isEmpty || c.usesSentDate,
    terms.hasContent || !c.header.isEmpty || c.usesSentDate || !c.body.isEmpty || !c.text.isEmpty⟩

end Conditions

mutual

def Criteria.collectContentTerms (f : CaseMap) : Criteria → ContentTerms → ContentTerms
  | .node here nots ors, terms => collectOrs f ors (collectNots f nots (here.collect f terms))

def collectNots (f : CaseMap) : List Criteria → ContentTerms → ContentTerms
  | [], terms => terms
  | c :: rest, terms => collectNots f rest (c.collectContentTerms f terms)

def collectOrs (f : CaseMap) : List (Criteria × Criteria) → ContentTerms → ContentTerms
  | [], terms => terms
  | (c, d) :: rest, terms => collectOrs f rest (d.collectContentTerms f (c.collectContentTerms f terms))

end

structure ContentIndex where
  found : List ContentMatch
  bodyTerms : List Bytes
  textTerms : List Bytes

-- In the maps of the index a later entry replaces an earlier one.
def ContentIndex.byUid (cc : ContentIndex) (uid : Nat) : Option ContentMatch :=
  cc.found.reverse.find? (·.uid = uid)

def termMatches (f : CaseMap) (terms : List Bytes) (found : List Bool) (term : Bytes) : Bool :=
  match (terms.zipIdx.reverse.find? fun entry => f.lower entry.1 = f.lower term).map Prod.snd with
  | none => false
  | some pos => found[pos]? = some true

-- SINCE and BEFORE of a date, by days. A date that is not known is in no range.
def withinDays (since before date : Time) : Bool :=
  if since.isZero && before.isZero then true
  else if date.isZero then false
  else !(!since.isZero && date.day.before since.day) && !(!before.isZero && !date.day.before before.day)

section Search

variable {Envelope Structure Section : Type} (lib : Library Envelope Structure Section) (f : CaseMap)

def sentDate (headers : Bytes) : Time :=
  match lib.readHeader headers with
  | none => .zero
  | some get => if get (ascii "Date") = [] then .zero else (lib.parseDate (get (ascii "Date"))).getD .zero

def headerMatches (headers : Bytes) (field : Bytes × Bytes) : Bool :=
  match lib.readHeader headers with
  | none => false
  | some get => contains (f.lower field.2) (f.lower (get field.1))

def Conditions.contentMatches (c : Conditions) (cc : Option ContentIndex) (uid : Nat) : Bool :=
  if c.usesSentDate || !c.header.isEmpty || !c.body.isEmpty || !c.text.isEmpty then
    match cc with
    | none => false
    | some cc =>
      match cc.byUid uid with
      | none => false
      | some m =>
        withinDays c.sentSince c.sentBefore (sentDate lib m.headers) && c.header.all (headerMatches lib f m.headers) &&
          c.body.all (termMatches f cc.bodyTerms m.bodyMatches) && c.text.all (termMatches f cc.textTerms m.textMatches)
  else true

def Conditions.holds (c : Conditions) (cc : Option ContentIndex) (info : DatedInfo) (seqNum : Nat) : Bool :=
  c.seqNum.all (· seqNum) && c.uid.all (· info.uid) && c.flag.all (info.flags.contains ·) &&
    c.notFlag.all (!info.flags.contains ·) && !(0 < c.larger && info.size ≤ c.larger) &&
    !(0 < c.smaller && c.smaller ≤ info.size) && withinDays c.since c.before info.internalDate &&
    c.contentMatches lib f cc info.uid

mutual

def Criteria.matchesCriteria (cc : Option ContentIndex) (info : DatedInfo) (seqNum : Nat) : Criteria → Bool
  | .node here nots ors =>
    here.holds lib f cc info seqNum && matchesNone cc info seqNum nots && matchesEach cc info seqNum ors

def matchesNone (cc : Option ContentIndex) (info : DatedInfo) (seqNum : Nat) : List Criteria → Bool
  | [] => true
  | c :: rest => !c.matchesCriteria cc info seqNum && matchesNone cc info seqNum rest

def matchesEach (cc : Option ContentIndex) (info : DatedInfo) (seqNum : Nat) : List (Criteria × Criteria) → Bool
  | [] => true
  | (c, d) :: rest =>
    (c.matchesCriteria cc info seqNum || d.matchesCriteria cc info seqNum) && matchesEach cc info seqNum rest

end

variable {σ ε : Type} (reader : Reader σ ε)

def Reader.prefetchContent (criteria : Criteria) (mailbox : Bytes) (messages : List DatedInfo) (s : σ) :
    Except ε (Option ContentIndex) :=
  let terms := criteria.collectContentTerms f ⟨[], [], false, false⟩
  if !terms.hasContent then .ok none
  else
    let q : ContentQuery :=
      ⟨messages.map fun info => info.uid, terms.bodyTerms, terms.textTerms, terms.needHeaders⟩
    (reader.searchContent s mailbox q).2.map fun found => some ⟨found, terms.bodyTerms, terms.textTerms⟩

def matchedNumbers (byUid : Bool) (criteria : Criteria) (cc : Option ContentIndex)
    (messages : List DatedInfo) : List Nat :=
  (messages.zipIdx 1).filterMap fun entry =>
    if criteria.matchesCriteria lib f cc entry.1 entry.2 then some (if byUid then entry.1.uid else entry.2) else none

def Reader.search (byUid : Bool) (criteria : Criteria) (mailbox : Bytes) (messages : List DatedInfo) (s : σ) :
    Except ε (List Nat) :=
  if reader.nilListing && messages.isEmpty then .ok []
  else (reader.prefetchContent f criteria mailbox messages s).map
    fun cc => matchedNumbers lib f byUid criteria cc messages

-- A SEARCH right after the SELECT of a mailbox; none where it cannot be selected or the search fails.
def Reader.searchAfterSelect (byUid : Bool) (criteria : Criteria) (s : σ) (mailbox : Bytes) : Option (List Nat) :=
  match reader.list s mailbox with
  | (_, .error _) => none
  | (s, .ok messages) => (reader.search lib f byUid criteria mailbox messages s).toOption

end Search

end Maildancer.Imap

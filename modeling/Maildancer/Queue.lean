import Maildancer.Text.Decimal
import Maildancer.Text.Parts

namespace Maildancer.Queue

open Text

def atSign : UInt8 := 64

def dot : UInt8 := 46

def extractDomain (c : CaseMap) (addr : Bytes) : Bytes :=
  match cutLast atSign (unbracket addr) with
  | none => ascii "unknown"
  | some (_, []) => ascii "unknown"
  | some (_, domain) => c.lower domain

def splitAddress (c : CaseMap) (addr : Bytes) : Bytes × Bytes :=
  match cutLast atSign (unbracket addr) with
  | none => (unbracket addr, ascii "unknown")
  | some (localPart, domain) => (localPart, c.lower domain)

def splitDomainLabels (domain : Bytes) : Bytes × Bytes :=
  match (split dot domain).reverse with
  | tld :: sld :: _ => (tld, sld)
  | _ => (ascii "unknown", domain)

def validAddressComponent (s : Bytes) : Bool :=
  s ≠ [] && !s.any (fun b => b = 47 || b = 92) && !contains (ascii "..") s

def isHexDigit (b : UInt8) : Bool :=
  isDigit b || (65 ≤ b && b ≤ 70) || (97 ≤ b && b ≤ 102)

def validMsgIdHex (s : Bytes) : Bool := s.length = 32 && s.all isHexDigit

def verpAddress (c : CaseMap) (rcpt hostname : Bytes) : Bytes :=
  let (rcptLocal, rcptDomain) := splitAddress c rcpt
  ascii "bounces+" ++ rcptLocal ++ ascii "=" ++ rcptDomain ++ ascii "@" ++ hostname

-- filepath.Join leaves empty elements out, so a directory below msg/ or env/
-- is two levels deep only if both labels have text.
def labelDir (labels : Bytes × Bytes) : List Bytes := [labels.1, labels.2].filter (· ≠ [])

-- Times count from Go's zero time.
structure QueueEnvelope where
  ttl : Nat
  created : Nat
  sender : Bytes
  recipient : Bytes
  msgid : Bytes
  origin : Bytes
deriving DecidableEq

structure BodyFile where
  dir : List Bytes
  name : Bytes
  data : Bytes
deriving DecidableEq

def envName (localPart msgidHex : Bytes) (n : Nat) : Bytes :=
  localPart ++ atSign :: (msgidHex ++ dot :: decimal n)

def deliveringSuffix : Bytes := ascii ".delivering"

lemma envName_plain (localPart msgidHex : Bytes) (n : Nat) :
    hasSuffix deliveringSuffix (envName localPart msgidHex n) = false := by
  obtain ⟨front, last, hd⟩ := List.eq_nil_or_concat _ |>.resolve_left (decimal_ne_nil n)
  have hl := decimal_isDigit n last (by simp [hd])
  have hn : (envName localPart msgidHex n).getLast? = some last := by
    simp [envName, hd, List.getLast?_append, List.getLast?_cons]
  refine hasSuffix_eq_false (a := 103) (by decide) hn ?_
  rintro rfl
  exact absurd hl (by decide)

-- An envelope below env/. A claimed one bears its name with the suffix added.
-- Its content is what parses as JSON.
@[ext] structure EnvFile where
  dir : List Bytes
  name : Bytes
  delivering : Bool
  content : Option QueueEnvelope
  plain : hasSuffix deliveringSuffix name = false
deriving DecidableEq

namespace EnvFile

def fileName (f : EnvFile) : Bytes :=
  if f.delivering then f.name ++ deliveringSuffix else f.name

def path (f : EnvFile) : List Bytes × Bytes := (f.dir, f.name)

def claim (f : EnvFile) : EnvFile := { f with delivering := true }

def unclaim (f : EnvFile) : EnvFile := { f with delivering := false }

end EnvFile

structure Config where
  messageTtl : Nat
  hostname : Bytes
  dkimSign : Option (Bytes → Bytes → Option Bytes)

-- One call of Write. The fresh id stands for the random bytes in hex.
structure Request where
  origin : Bytes
  recipients : List Bytes
  presetMsgIdHex : Bytes
  freshMsgIdHex : { s : Bytes // validMsgIdHex s = true }
  body : Bytes
  now : Nat

-- A msgid as randomHexId draws it.
def sampleMsgIdHex : { s : Bytes // validMsgIdHex s = true } := ⟨List.replicate 32 97, by decide⟩

inductive WriteError
  | invalidSenderDomain (domain : Bytes)
  | invalidPresetMsgId (preset : Bytes)
  | dkimSign
  | invalidRecipient (rcpt : Bytes)
deriving DecidableEq

def Request.msgIdHex (req : Request) : Bytes :=
  if req.presetMsgIdHex = [] then req.freshMsgIdHex.val else req.presetMsgIdHex

def Request.msgId (c : CaseMap) (req : Request) : Bytes :=
  req.msgIdHex ++ ascii "@" ++ extractDomain c req.origin

def validRecipient (c : CaseMap) (rcpt : Bytes) : Bool :=
  validAddressComponent (splitAddress c rcpt).1 && validAddressComponent (splitAddress c rcpt).2

def recipientDir (c : CaseMap) (rcpt : Bytes) : List Bytes :=
  labelDir (splitDomainLabels (splitAddress c rcpt).2)

def envelope (c : CaseMap) (cfg : Config) (req : Request) (rcpt : Bytes) : QueueEnvelope where
  ttl := req.now + cfg.messageTtl
  created := req.now
  sender := verpAddress c rcpt cfg.hostname
  recipient := rcpt
  msgid := req.msgId c
  origin := req.origin

def envFile (c : CaseMap) (cfg : Config) (req : Request) (rcpt : Bytes) (n : Nat) : EnvFile where
  dir := recipientDir c rcpt
  name := envName (splitAddress c rcpt).1 req.msgIdHex n
  delivering := false
  content := some (envelope c cfg req rcpt)
  plain := envName_plain _ _ _

-- The loop over the recipients stops at the first one it refuses.
def envFiles (c : CaseMap) (cfg : Config) (req : Request) : List EnvFile :=
  (req.recipients.takeWhile (validRecipient c)).zipIdx.map fun (rcpt, n) => envFile c cfg req rcpt n

def messageIdHeader (msgid : Bytes) : Bytes := ascii "Message-ID: <" ++ msgid ++ ascii ">\r\n"

-- What Write puts on disk, in this order, and the error it returns after that.
structure Written where
  body : BodyFile
  envs : List EnvFile
  failure : Option WriteError

def signed (c : CaseMap) (cfg : Config) (req : Request) : Option Bytes :=
  let data := messageIdHeader (req.msgId c) ++ req.body
  match cfg.dkimSign with
  | none => some data
  | some sign => sign (extractDomain c req.origin) data

def write (c : CaseMap) (cfg : Config) (req : Request) : Except WriteError Written :=
  let fromDomain := extractDomain c req.origin
  if !validAddressComponent fromDomain then .error (.invalidSenderDomain fromDomain)
  else if req.presetMsgIdHex ≠ [] && !validMsgIdHex req.presetMsgIdHex then
    .error (.invalidPresetMsgId req.presetMsgIdHex)
  else match signed c cfg req with
    | none => .error .dkimSign
    | some data => .ok {
        body := ⟨labelDir (splitDomainLabels fromDomain), req.msgIdHex, data⟩
        envs := envFiles c cfg req
        failure := (req.recipients.find? fun rcpt => !validRecipient c rcpt).map .invalidRecipient }

def extractMsgId (name : Bytes) : Option Bytes :=
  if hasSuffix deliveringSuffix name then none
  else match cutLast atSign name with
    | none => none
    | some (_, rest) => (cutLast dot rest).map Prod.fst

-- The glob env/*/*/*@{msgid}.*
def bodyHasEnvelopes (envs : List EnvFile) (msgid : Bytes) : Bool :=
  envs.any fun f => f.dir.length = 2 && contains (atSign :: (msgid ++ [dot])) f.fileName

-- The glob msg/*/*/{msgid}; the first match is taken.
def resolveBody (bodies : List BodyFile) (msgid : Bytes) : Option BodyFile :=
  bodies.find? fun b => b.dir.length = 2 && b.name = msgid

end Maildancer.Queue

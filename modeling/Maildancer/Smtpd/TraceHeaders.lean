import Maildancer.Smtpd.AuthResults

namespace Maildancer.Smtpd

open Text

structure ReceivedInfo where
  helo : Bytes
  clientHostname : Bytes
  clientIp : Bytes
  hostname : Bytes
  proto : Bytes
  tlsComment : Bytes
  msgId : Bytes
  forRcpt : Bytes

def receivedProto (isTls authenticated : Bool) : Bytes :=
  match isTls, authenticated with
  | true, true => ascii "ESMTPSA"
  | true, false => ascii "ESMTPS"
  | false, true => ascii "ESMTPA"
  | false, false => ascii "ESMTP"

def tlsComment : Option (Bytes × Bytes) → Bytes
  | none => []
  | some (version, cipher) => ascii "(version=" ++ version ++ ascii " cipher=" ++ cipher ++ ascii ")"

def orUnknown (name : Bytes) : Bytes := if name = [] then ascii "unknown" else name

def receivedLines (info : ReceivedInfo) : List Bytes :=
  [ascii "Received: from " ++ orUnknown info.helo ++ ascii " (" ++ orUnknown info.clientHostname ++
      ascii " [" ++ info.clientIp ++ ascii "])",
    ascii "\tby " ++ info.hostname ++ ascii " with " ++ info.proto ++ ascii " id " ++ info.msgId] ++
  (if info.tlsComment = [] then [] else [ascii "\t" ++ info.tlsComment]) ++
  (if info.forRcpt = [] then [] else [ascii "\tfor <" ++ info.forRcpt ++ ascii ">"])

def buildReceivedHeader (info : ReceivedInfo) (now : Bytes) : Bytes :=
  (ascii "\r\n").intercalate (receivedLines info) ++ ascii ";\r\n\t" ++ now ++ ascii "\r\n"

def buildForwardReceivedHeader (hostname original msgid now : Bytes) : Bytes :=
  ascii "Received: by " ++ hostname ++ ascii " (forwarding for <" ++ original ++ ascii ">)\r\n\tid " ++
    msgid ++ ascii ";\r\n\t" ++ now ++ ascii "\r\nX-Original-To: " ++ original ++ ascii "\r\n"

def authResultsHeaderName : Bytes := ascii "Authentication-Results"

def buildAuthResultsHeader (value : Bytes) : Bytes :=
  if value = [] then [] else authResultsHeaderName ++ ascii ": " ++ value ++ ascii "\r\n"

structure HeaderMap where
  entries : List (Bytes × Bytes)
  distinct : (entries.map Prod.fst).Nodup

def leadingSpamHeaders : List Bytes :=
  [ascii "X-Spam-Flag", ascii "X-Spam-Value", ascii "X-Spam-Score", ascii "X-Spam-Status",
    ascii "X-Spam-Checker"]

-- A character outside ASCII is made of bytes above 126.
def sanitizeFieldName (name : Bytes) : Option Bytes :=
  if name = [] then none
  else if name.any (fun b => b < 33 ∨ 126 < b ∨ b = 58) then none
  else some name

def sanitizeFieldValue (value : Bytes) : Bytes :=
  trimSpace (value.filterMap fun b =>
    if b = carriageReturn ∨ b = newline then some space
    else if b ≠ 9 ∧ (b < 32 ∨ 126 < b) then none
    else some b)

def renderSpamHeader (headers : HeaderMap) (name : Bytes) : Bytes :=
  match headers.entries.find? (·.1 = name), sanitizeFieldName name with
  | some (_, value), some cleanName => cleanName ++ ascii ": " ++ sanitizeFieldValue value ++ ascii "\r\n"
  | _, _ => []

-- The known names come first and in their own order, the others sorted.
def buildSpamHeaders (headers : HeaderMap) : Bytes :=
  let rest := sortStrings ((headers.entries.map Prod.fst).filter (· ∉ leadingSpamHeaders))
  (leadingSpamHeaders ++ rest).flatMap (renderSpamHeader headers)

-- What rspamd answers: the options of each symbol and the headers it asks to
-- add, in the order in which the map is visited.
structure RspamdResult where
  symbols : List (Bytes × List Bytes)
  addHeaders : List (Bytes × Bytes)

structure CheckOptions where
  sender : Bytes
  helo : Bytes
  hostname : Bytes

structure MethodMapping where
  method : Bytes
  symbols : List (Bytes × Bytes)

def authMethods : List MethodMapping :=
  [⟨ascii "spf",
      [(ascii "R_SPF_ALLOW", ascii "pass"), (ascii "R_SPF_FAIL", ascii "fail"),
        (ascii "R_SPF_SOFTFAIL", ascii "softfail"), (ascii "R_SPF_NEUTRAL", ascii "neutral"),
        (ascii "R_SPF_DNSFAIL", ascii "temperror"), (ascii "R_SPF_PERMFAIL", ascii "permerror"),
        (ascii "R_SPF_NA", ascii "none")]⟩,
    ⟨ascii "dkim",
      [(ascii "R_DKIM_ALLOW", ascii "pass"), (ascii "R_DKIM_REJECT", ascii "fail"),
        (ascii "R_DKIM_TEMPFAIL", ascii "temperror"), (ascii "R_DKIM_PERMFAIL", ascii "permerror"),
        (ascii "R_DKIM_NA", ascii "none")]⟩,
    ⟨ascii "dmarc",
      [(ascii "DMARC_POLICY_ALLOW", ascii "pass"), (ascii "DMARC_POLICY_REJECT", ascii "fail"),
        (ascii "DMARC_POLICY_QUARANTINE", ascii "fail"), (ascii "DMARC_POLICY_SOFTFAIL", ascii "fail"),
        (ascii "DMARC_BAD_POLICY", ascii "permerror"), (ascii "DMARC_DNSFAIL", ascii "temperror"),
        (ascii "DMARC_NA", ascii "none")]⟩,
    ⟨ascii "arc",
      [(ascii "ARC_ALLOW", ascii "pass"), (ascii "ARC_REJECT", ascii "fail"),
        (ascii "ARC_INVALID", ascii "permerror"), (ascii "ARC_DNSFAIL", ascii "temperror"),
        (ascii "ARC_NA", ascii "none")]⟩]

def maxPropertyValue : Nat := 255

def sanitizeProperty (v : Bytes) : Bytes :=
  (v.filter fun b => ¬ (b < 33 ∨ 126 < b ∨ b = 59)).take maxPropertyValue

def sanitizeHeaderValue (v : Bytes) : Bytes :=
  trimSpace ((v.filter fun b => b ≠ carriageReturn ∧ b ≠ newline).filter fun b =>
    ¬ (b ≠ 9 ∧ (b < 32 ∨ 126 < b)))

-- The options of the first symbol of the method that is there.
def MethodMapping.evaluate (m : MethodMapping) (symbols : List (Bytes × List Bytes)) :
    Option (Bytes × List Bytes) :=
  m.symbols.findSome? fun (symbol, result) =>
    (symbols.find? (·.1 = symbol)).map fun (_, options) => (result, options)

def firstOption (options : List Bytes) : Bytes := options.headD []

def domainOf (addr : Bytes) : Bytes :=
  match cutLast 64 addr with
  | some (_, domain) => domain
  | none => []

-- strings.Replace for the first occurrence.
def replaceFirst (old new : Bytes) : Bytes → Bytes
  | [] => []
  | b :: rest => if hasPrefix old (b :: rest) then new ++ (b :: rest).drop old.length
      else b :: replaceFirst old new rest

def propertyFor (method : Bytes) (options : List Bytes) (opts : CheckOptions) : Bytes :=
  if method = ascii "spf" then
    if domainOf opts.sender ≠ [] then ascii "smtp.mailfrom=" ++ sanitizeProperty (domainOf opts.sender)
    else if sanitizeProperty opts.helo ≠ [] then ascii "smtp.helo=" ++ sanitizeProperty opts.helo
    else []
  else if method = ascii "dkim" then
    let d := sanitizeProperty (firstOption options)
    if d = [] then []
    else match cut 58 d with
      | none => ascii "header.d=" ++ d
      | some (domain, selector) => ascii "header.d=" ++ domain ++ ascii " " ++
          replaceFirst (ascii "s=") (ascii "header.s=") selector
  else if method = ascii "dmarc" then
    let d := sanitizeProperty (firstOption options)
    if d = [] then [] else ascii "header.from=" ++ d
  else []

def authClause (r : RspamdResult) (opts : CheckOptions) (m : MethodMapping) : Option Bytes :=
  (m.evaluate r.symbols).map fun (result, options) =>
    let prop := propertyFor m.method options opts
    m.method ++ ascii "=" ++ result ++ if prop = [] then [] else ascii " " ++ prop

-- The field that rspamd itself asks to add comes before the one put together from its symbols.
def buildAuthResults (fold : Folding) (r : RspamdResult) (opts : CheckOptions) : Bytes :=
  let authserv := sanitizeProperty opts.hostname
  if authserv = [] then []
  else
    let offered := (r.addHeaders.filter (fold.foldEq ·.1 authResultsHeaderName)).map
      fun (_, value) => sanitizeHeaderValue value
    match offered.find? (· ≠ []) with
    | some value => value
    | none =>
      let methods := authMethods.filterMap (authClause r opts)
      if methods = [] then []
      else authserv ++ ascii ";\r\n\t" ++ (ascii ";\r\n\t").intercalate methods

-- The verdict on a message: the answers of the checkers that answered and the
-- headers they ask for. The first checker with authentication results is heard.
structure SpamReport where
  results : List RspamdResult
  headers : HeaderMap

def SpamReport.authResults (fold : Folding) (report : SpamReport) (opts : CheckOptions) : Bytes :=
  ((report.results.map fun r => buildAuthResults fold r opts).find? (· ≠ [])).getD []

structure Ingress where
  sender : Bytes
  helo : Bytes
  clientHostname : Bytes
  clientIp : Bytes
  hostname : Bytes
  authUser : Bytes
  tls : Option (Bytes × Bytes)
  recipients : List Bytes
  remoteRecipients : List Bytes
  msgid : Bytes
  now : Bytes
  checkResult : Option SpamReport
  addHeaders : Bool

namespace Ingress

def forRcpt (i : Ingress) : Bytes :=
  match i.recipients, i.remoteRecipients with
  | [rcpt], [] => rcpt
  | [], [rcpt] => rcpt
  | _, _ => []

def received (i : Ingress) : Bytes :=
  buildReceivedHeader ⟨i.helo, i.clientHostname, i.clientIp, i.hostname,
    receivedProto i.tls.isSome (i.authUser ≠ []), tlsComment i.tls, i.msgid, i.forRcpt⟩ i.now

def authResults (fold : Folding) (i : Ingress) : Bytes :=
  match i.checkResult with
  | none => []
  | some report => buildAuthResultsHeader (report.authResults fold ⟨i.sender, i.helo, i.hostname⟩)

def spamHeaders (i : Ingress) : Bytes :=
  match i.checkResult with
  | none => []
  | some report => if i.addHeaders then buildSpamHeaders report.headers else []

end Ingress

-- Where the message goes: a local mailbox or the outbound queue, at once or by
-- a forward, which has its own date.
inductive Route
  | mailbox
  | queue
  | forwardMailbox (now : Bytes)
  | forwardQueue (now : Bytes)

def Ingress.forwarded (i : Ingress) (now : Bytes) : Bytes :=
  buildForwardReceivedHeader i.hostname (i.recipients.headD []) i.msgid now ++ i.received

def Ingress.headers (fold : Folding) (i : Ingress) : Route → Bytes
  | .mailbox => i.received ++ i.authResults fold ++ i.spamHeaders
  | .queue => i.received
  | .forwardMailbox now => i.forwarded now ++ i.authResults fold
  | .forwardQueue now => i.forwarded now

def withHeaders (headers body : Bytes) : Bytes := headers ++ body

def messageBody (fold : Folding) (hostname headers msg : Bytes) : Bytes :=
  withHeaders headers (stripAuthResults fold msg hostname)

end Maildancer.Smtpd

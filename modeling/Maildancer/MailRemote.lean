import Maildancer.Text.Decimal
import Mathlib.Data.List.AList

namespace Maildancer.MailRemote

open Text

-- An error from outside the package: an SMTP reply, one of the errors that mean a dead connection
-- (net.OpError, io.EOF, io.ErrUnexpectedEOF, net.ErrClosed), or anything else.
inductive Fault
  | reply (code : Nat) (text : Bytes)
  | lost (text : Bytes)
  | other (text : Bytes)
deriving DecidableEq

inductive Err
  | text (message : Bytes)
  | fault (f : Fault)
  | wrap (message : Bytes) (cause : Err)
  | permanent (cause : Err)
  | ambiguous (cause : Err)
  | mxPermanent (cause : Err)
deriving DecidableEq

namespace Err

-- The end of the chain, where errors.As finds the error of another package.
def root : Err → Option Fault
  | text _ => none
  | fault f => some f
  | wrap _ cause => cause.root
  | permanent cause => cause.root
  | ambiguous cause => cause.root
  | mxPermanent cause => cause.root

def isPermanent : Err → Bool
  | text _ => false
  | fault _ => false
  | wrap _ cause => cause.isPermanent
  | permanent _ => true
  | ambiguous cause => cause.isPermanent
  | mxPermanent cause => cause.isPermanent

def isAmbiguous : Err → Bool
  | text _ => false
  | fault _ => false
  | wrap _ cause => cause.isAmbiguous
  | permanent cause => cause.isAmbiguous
  | ambiguous _ => true
  | mxPermanent cause => cause.isAmbiguous

def isMxPermanent : Err → Bool
  | text _ => false
  | fault _ => false
  | wrap _ cause => cause.isMxPermanent
  | permanent cause => cause.isMxPermanent
  | ambiguous cause => cause.isMxPermanent
  | mxPermanent _ => true

end Err

def classifyError (err : Err) : Err :=
  match err.root with
  | some (.reply code _) => if 500 ≤ code then .permanent err else err
  | _ => err

def isConnectionError (err : Err) : Bool :=
  match err.root with
  | some (.lost _) => true
  | _ => false

structure Envelope where
  path : Bytes
  sender : Bytes
  recipient : Bytes
deriving DecidableEq

structure Answers where
  opened : Option Bytes
  mail : Option Fault
  rcpt : Option Fault
  data : Option Fault
  copy : Option Fault
  close : Option Fault
  reset : Option Fault
deriving DecidableEq

def deliver (bodyPath : Bytes) (a : Answers) (env : Envelope) : Option Err :=
  match a.opened with
  | some text => some (.wrap (ascii "open body " ++ bodyPath) (.fault (.other text)))
  | none =>
    match a.mail with
    | some f => some (classifyError (.wrap (ascii "MAIL FROM <" ++ env.sender ++ ascii ">") (.fault f)))
    | none =>
      match a.rcpt with
      | some f => some (classifyError (.wrap (ascii "RCPT TO <" ++ env.recipient ++ ascii ">") (.fault f)))
      | none =>
        match a.data with
        | some f => some (classifyError (.wrap (ascii "DATA") (.fault f)))
        | none =>
          match a.copy with
          | some f => some (.wrap (ascii "write body") (.fault f))
          | none =>
            match a.close with
            | some f =>
              if isConnectionError (.fault f) then
                some (.ambiguous (.wrap (ascii "DATA close") (.fault f)))
              else some (classifyError (.wrap (ascii "DATA close") (.fault f)))
            | none => none

-- The map from envelope paths to errors, none for a delivered envelope.
abbrev Results := AList (fun _ : Bytes => Option Err)

def recordAll (err : Err) (envs : List Envelope) (results : Results) : Results :=
  envs.foldl (fun results env => results.insert env.path (some err)) results

-- An SMTP client that has said EHLO: the advertised SIZE and what the
-- transactions of the connection meet, in their order.
structure Session where
  maxMessageSize : Option Nat
  answers : Nat → Envelope → Answers

def checkSize (s : Session) (bodyBytes : Nat) : Option Err :=
  match s.maxMessageSize with
  | none => none
  | some maxSize =>
    if maxSize = 0 then none
    else if maxSize < bodyBytes then
      some (.permanent (.text (ascii "message size " ++ decimal bodyBytes ++
        ascii " exceeds server limit " ++ decimal maxSize)))
    else none

structure Transmission where
  conn : Nat
  env : Envelope
  answers : Answers
deriving DecidableEq

def limitError (maxTxn : Int) : Err :=
  .text (ascii "transaction limit (" ++ decimalInt maxTxn ++ ascii ") reached; deferring")

structure Outcome where
  results : Results
  retryable : List Envelope
  cause : Option Err
  sent : List Transmission

def deliverAll (bodyPath : Bytes) (s : Session) (conn : Nat) (maxTxn : Int) :
    Nat → List Envelope → Results → Outcome
  | _, [], results => ⟨results, [], none, []⟩
  | i, env :: rest, results =>
    if 0 < maxTxn ∧ maxTxn ≤ i then ⟨recordAll (limitError maxTxn) (env :: rest) results, [], none, []⟩
    else
      let a := s.answers i env
      let err := deliver bodyPath a env
      if err.any isConnectionError then
        if err.any Err.isAmbiguous then ⟨results.insert env.path err, rest, err, [⟨conn, env, a⟩]⟩
        else ⟨results, env :: rest, err, [⟨conn, env, a⟩]⟩
      else
        -- RSET is skipped after the last envelope.
        match if rest = [] then none else a.reset.filter (isConnectionError <| .fault ·) with
        | some f => ⟨results.insert env.path err, rest,
            some (.wrap (ascii "connection lost during RSET") (.fault f)), [⟨conn, env, a⟩]⟩
        | none =>
          let out := deliverAll bodyPath s conn maxTxn (i + 1) rest (results.insert env.path err)
          { out with sent := ⟨conn, env, a⟩ :: out.sent }

inductive Ending
  | accepted
  | verdict (code : Nat)
  | ambiguous
  | lost
  | aborted
deriving DecidableEq

def Fault.ending : Fault → Ending
  | reply code _ => .verdict code
  | lost _ => .lost
  | other _ => .aborted

def Answers.ending (a : Answers) : Ending :=
  if a.opened.isSome then .aborted
  else
    match a.mail <|> a.rcpt <|> a.data with
    | some f => f.ending
    | none =>
      match a.copy, a.close with
      | some (.lost _), _ => .lost
      | some _, _ => .aborted
      | none, some (.lost _) => .ambiguous
      | none, some f => f.ending
      | none, none => .accepted

-- Whether the terminator of the data can have been sent. A body that could not
-- be read to its end leaves the data open, and the next command ends them.
def Answers.terminated (a : Answers) : Bool :=
  a.opened.isNone && (a.mail <|> a.rcpt <|> a.data).isNone &&
    !a.copy.any (isConnectionError <| .fault ·)

end Maildancer.MailRemote

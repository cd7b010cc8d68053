import Maildancer.Text.Decimal

namespace Maildancer.MailRemote

open Text

-- The mode of a policy, which a cache file holds as a string.
inductive Mode
  | enforce
  | testing
  | none
  | unknown (text : Bytes)
deriving DecidableEq

structure Policy where
  mode : Mode
  mxs : List Bytes
  maxAge : Int
deriving DecidableEq

def maxMaxAge : Int := 31557600

def dot : UInt8 := 46

-- A leading "*." stands for exactly one more label.
def patternMatches (host pattern : Bytes) : Bool :=
  if hasPrefix (ascii "*.") pattern then
    let suffix := dot :: pattern.drop 2
    let label := host.take (host.length - suffix.length)
    hasSuffix suffix host && label ≠ [] && !label.contains dot
  else host = pattern

def Policy.mxMatches (c : CaseMap) (p : Policy) (host : Bytes) : Bool :=
  p.mxs.any fun pattern =>
    patternMatches (c.lower (trimSuffix [dot] host)) (c.lower (trimSuffix [dot] pattern))

-- strings.ReplaceAll(body, "\r\n", "\n").
def joinLineEnds : Bytes → Bytes
  | 13 :: 10 :: rest => newline :: joinLineEnds rest
  | b :: rest => b :: joinLineEnds rest
  | [] => []

inductive PolicyError
  | maxAge (value : Bytes)
  | version (value : Bytes)
  | mode (value : Bytes)
  | noPatterns
  | noMaxAge
deriving DecidableEq

-- The fields read so far. A negative age stands for a missing one.
structure PolicyFields where
  version : Bytes
  mode : Bytes
  mxs : List Bytes
  maxAge : Int

def parsePolicyLine (p : PolicyFields) (line : Bytes) : Except PolicyError PolicyFields :=
  match cut 58 line with
  | none => .ok p
  | some (key, value) =>
    let key := trimSpace key
    let value := trimSpace value
    if key = ascii "version" then .ok { p with version := value }
    else if key = ascii "mode" then .ok { p with mode := value }
    else if key = ascii "mx" then .ok { p with mxs := p.mxs ++ [value] }
    else if key = ascii "max_age" then
      match atoi value with
      | none => .error (.maxAge value)
      | some n =>
        if n < 0 then .error (.maxAge value)
        else .ok { p with maxAge := if maxMaxAge < n then maxMaxAge else n }
    else .ok p

def parseMode (text : Bytes) : Option Mode :=
  if text = ascii "enforce" then some .enforce
  else if text = ascii "testing" then some .testing
  else if text = ascii "none" then some .none
  else Option.none

def parsePolicy (body : Bytes) : Except PolicyError Policy := do
  let p ← (split newline (joinLineEnds body)).foldlM parsePolicyLine ⟨[], [], [], -1⟩
  if p.version ≠ ascii "STSv1" then .error (.version p.version)
  else
    match parseMode p.mode with
    | Option.none => .error (.mode p.mode)
    | some mode =>
      if mode = .enforce ∧ p.mxs = [] then .error .noPatterns
      else if p.maxAge < 0 then .error .noMaxAge
      else .ok ⟨mode, p.mxs, p.maxAge⟩

def parseId (id field : Bytes) : Bytes :=
  if hasPrefix (ascii "id=") (trimSpace field) then trimSpace ((trimSpace field).drop 3) else id

def parseRecord (found : Nat × Bytes) (rec : Bytes) : Nat × Bytes :=
  match split 59 rec with
  | [] => found
  | version :: rest =>
    if trimSpace version = ascii "v=STSv1" then (found.1 + 1, rest.foldl parseId found.2) else found

def parseTXT (records : List Bytes) : Option Bytes :=
  let found := records.foldl parseRecord (0, [])
  if found.1 ≠ 1 ∨ found.2 = [] then Option.none else some found.2

end Maildancer.MailRemote

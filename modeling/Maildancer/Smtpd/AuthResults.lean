import Maildancer.Text.Header
import Mathlib.Data.List.DropRight

namespace Maildancer.Smtpd

open Text

def authResultsFieldName : Bytes := ascii "authentication-results:"

-- How much of one header line is looked at in one go.
def authResultsChunk : Nat := 8 * 2 ^ 10

-- The leading token of a field value, which ends at the first space, tab, semicolon or line ending.
def authservIdOf (value : Bytes) : Bytes :=
  let token := value.takeWhile (· ∉ ascii " \t;\r\n")
  if token.length < value.length then token else trimSpace value

-- The field name is compared over as many bytes as it has, so no character
-- outside ASCII can fold to one of its letters.
def isOwnAuthResults (fold : Folding) (authserv line : Bytes) : Bool :=
  if line.length < authResultsFieldName.length then false
  else if !equalFold (line.take authResultsFieldName.length) authResultsFieldName then false
  else
    let value := (line.drop authResultsFieldName.length).dropWhile (· ∈ ascii " \t")
    fold.foldEq (authservIdOf value) authserv

-- bufio.Reader.ReadSlice: up to the first newline or as much as the buffer
-- holds, whether the buffer was full, and what is left.
def readSlice (br : Bytes) : Bytes × Bool × Bytes :=
  match cut newline (br.take authResultsChunk) with
  | some (line, _) => (line ++ [newline], false, br.drop (line.length + 1))
  | none => (br.take authResultsChunk, authResultsChunk ≤ br.length, br.drop authResultsChunk)

structure AuthResultsFilter where
  br : Bytes
  authserv : Bytes
  pending : Bytes
  inHeaders : Bool
  lineStart : Bool
  dropping : Bool

namespace AuthResultsFilter

def fill (fold : Folding) (f : AuthResultsFilter) : AuthResultsFilter :=
  let (chunk, full, br) := readSlice f.br
  if chunk = [] then { f with br := br }
  else
    let atLineStart := f.lineStart
    let f := { f with br := br, lineStart := !full }
    let f :=
      if atLineStart && isBlankLine chunk then { f with inHeaders := false, dropping := false }
      else if atLineStart && !isFoldedContinuation chunk then
        { f with dropping := isOwnAuthResults fold f.authserv chunk }
      else f
    -- A folded line and the tail of a long one keep the decision on their field.
    if f.dropping then f else { f with pending := chunk }

lemma readSlice_length (br : Bytes) (hne : br ≠ []) : (readSlice br).2.2.length < br.length := by
  have hp := List.length_pos_iff.mpr hne
  unfold readSlice
  split
  · simp only [List.length_drop]
    omega
  · simp only [List.length_drop, authResultsChunk]
    omega

lemma fill_br (fold : Folding) (f : AuthResultsFilter) : (f.fill fold).br = (readSlice f.br).2.2 := by
  unfold fill
  simp only
  split_ifs <;> rfl

-- What the callers of Read get together, however large their buffers are.
def readAll (fold : Folding) (f : AuthResultsFilter) : Bytes :=
  if f.inHeaders = false then f.br
  else if f.br = [] then []
  else (f.fill fold).pending ++ readAll fold { f.fill fold with pending := [] }
termination_by f.br.length
decreasing_by
  rename_i hne
  simp only [fill_br]
  exact readSlice_length f.br hne

end AuthResultsFilter

def stripAuthResults (fold : Folding) (msg authservId : Bytes) : Bytes :=
  if authservId = [] then msg
  else AuthResultsFilter.readAll fold ⟨msg, fold.lower authservId, [], true, true, false⟩

-- RFC 5322 takes a field name up to the colon and allows white space before it.
def fieldName (field : Bytes) : Option Bytes :=
  (cut 58 field).map fun (name, _) => name.rdropWhile (· ∈ ascii " \t")

-- The token of RFC 2045, which is the authserv-id of RFC 8601.
def isTokenByte (b : UInt8) : Bool := 33 ≤ b ∧ b ≤ 126 ∧ b ∉ ascii "()<>@,;:\\\"/[]?="

-- What stands between a quotation mark and the one that closes it.
def quotedText : Bytes → Option Bytes
  | [] => none
  | 34 :: _ => some []
  | 92 :: b :: rest => (quotedText rest).map (b :: ·)
  | b :: rest => (quotedText rest).map (b :: ·)

-- The value starts with the hostname, and the token ends there. RFC 8601 ends it
-- also at a comment, and allows a quoted string in its place.
def startsWithHost (hostname value : Bytes) : Bool :=
  match value.dropWhile (· ∈ ascii " \t") with
  | 34 :: quoted => (quotedText quoted).any (equalFold · hostname)
  | token => equalFold (token.take hostname.length) hostname && !(token.drop hostname.length).head?.any isTokenByte

def claimsOurs (hostname : Bytes) (f : HeaderField) : Bool :=
  (fieldName f.unfolded).any (equalFold · (ascii "Authentication-Results")) &&
    (cut 58 f.unfolded).any fun (_, value) => startsWithHost hostname value

end Maildancer.Smtpd

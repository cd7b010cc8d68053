import Maildancer.Smtpd.Stamping
import Maildancer.Text.Parts

namespace Maildancer.Smtpd

open Option List Text

-- The words and signs of RFC 8601, with comments and folding white space left out.
inductive Tok where
  | word (w : Bytes)
  | quoted (s : Bytes)
  | semicolon
  | equals
  | slash
  | atSign
  | other (b : UInt8)
deriving DecidableEq

-- A word that has been read so far, a comment with the comments around it, or a quoted string.
inductive LexMode where
  | plain (w : Bytes)
  | comment (depth : Nat) (escaped : Bool)
  | quoted (s : Bytes) (escaped : Bool)

def isFolding (b : UInt8) : Bool := b ∈ ascii " \t\r\n"

def signOf (b : UInt8) : Tok :=
  if b = 59 then .semicolon
  else if b = 61 then .equals
  else if b = 47 then .slash
  else if b = 64 then .atSign
  else .other b

def flush (w : Bytes) (toks : List Tok) : List Tok := if w = [] then toks else .word w :: toks

namespace LexMode

def next : LexMode → UInt8 → LexMode
  | .plain w, b =>
    if isTokenByte b then .plain (w ++ [b])
    else if b = 40 then .comment 0 false
    else if b = 34 then .quoted [] false
    else .plain []
  | .comment depth true, _ => .comment depth false
  | .comment depth false, b =>
    if b = 92 then .comment depth true
    else if b = 40 then .comment (depth + 1) false
    else if b = 41 then
      match depth with
      | 0 => .plain []
      | depth + 1 => .comment depth false
    else .comment depth false
  | .quoted s true, b => .quoted (s ++ [b]) false
  | .quoted s false, b =>
    if b = 92 then .quoted s true else if b = 34 then .plain [] else .quoted (s ++ [b]) false

def emits : LexMode → UInt8 → List Tok
  | .plain w, b =>
    if isTokenByte b then []
    else if isFolding b ∨ b = 40 ∨ b = 34 then flush w []
    else flush w [signOf b]
  | .quoted s false, b => if b = 34 then [.quoted s] else []
  | _, _ => []

-- A comment or quoted string that is left open has no reading.
def close : LexMode → Option (List Tok)
  | .plain w => some (flush w [])
  | _ => none

end LexMode

def lexFrom : LexMode → Bytes → Option (List Tok)
  | mode, [] => mode.close
  | mode, b :: rest => (lexFrom (mode.next b) rest).map (mode.emits b ++ ·)

def lex (text : Bytes) : Option (List Tok) := lexFrom (.plain []) text

def Tok.value : Tok → Option Bytes
  | .word w => some w
  | .quoted s => some s
  | _ => none

structure AuthResult where
  method : Bytes
  result : Bytes
  properties : List (Bytes × Bytes)
deriving DecidableEq

def isLetDig (b : UInt8) : Bool := (48 ≤ b ∧ b ≤ 57) ∨ (65 ≤ b ∧ b ≤ 90) ∨ (97 ≤ b ∧ b ≤ 122)

def isKeyword (w : Bytes) : Bool := w.all (fun b => isLetDig b ∨ b = 45) ∧ w.getLast?.any isLetDig

def isPropertyName (name : Bytes) : Bool :=
  (cut 46 name).any fun (ptype, property) => isKeyword ptype ∧ isKeyword property

def withProperty (name value : Bytes) (rest : Option (List (Bytes × Bytes))) : Option (List (Bytes × Bytes)) :=
  if isPropertyName name then rest.map ((name, value) :: ·) else none

-- White space may stand around the dot of a name, so a name is put together
-- from the words before the equals sign.
def parseProperties : Bytes → List Tok → Option (List (Bytes × Bytes))
  | name, [] => if name = [] then some [] else none
  | name, .word w :: toks =>
    if name = [] ∨ name.getLast? = some 46 ∨ w.head? = some 46 then parseProperties (name ++ w) toks else none
  | name, .equals :: .atSign :: .word domain :: toks =>
    withProperty name (64 :: domain) (parseProperties [] toks)
  | name, .equals :: v :: .atSign :: .word domain :: toks =>
    v.value.bind fun localPart => withProperty name (localPart ++ 64 :: domain) (parseProperties [] toks)
  | name, .equals :: v :: toks => v.value.bind fun value => withProperty name value (parseProperties [] toks)
  | _, _ => none

def parseDetails : List Tok → Option (List (Bytes × Bytes))
  | .word w :: .equals :: v :: toks =>
    if w = ascii "reason" ∧ v.value.isSome then parseProperties [] toks
    else parseProperties [] (.word w :: .equals :: v :: toks)
  | toks => parseProperties [] toks

def parseMethod (method result : Bytes) (toks : List Tok) : Option AuthResult :=
  if isKeyword method ∧ isKeyword result then (parseDetails toks).map (⟨method, result, ·⟩) else none

def isVersion (w : Bytes) : Bool := w.all fun b => 48 ≤ b ∧ b ≤ 57

def parseResult : List Tok → Option AuthResult
  | .word method :: .equals :: .word result :: toks => parseMethod method result toks
  | .word method :: .slash :: .word version :: .equals :: .word result :: toks =>
    if isVersion version then parseMethod method result toks else none
  | _ => none

def parseAuthserv : List Tok → Option Bytes
  | [v] => v.value
  | [v, .word version] => if isVersion version then v.value else none
  | _ => none

def parseSegments : List (List Tok) → Option (Bytes × List AuthResult)
  | first :: segment :: segments =>
    (parseAuthserv first).bind fun authserv =>
      if segment :: segments = [[.word (ascii "none")]] then some (authserv, [])
      else ((segment :: segments).mapM parseResult).map (authserv, ·)
  | _ => none

def parseAuthResults (value : Bytes) : Option (Bytes × List AuthResult) :=
  (lex value).bind fun toks => parseSegments (toks.splitOn .semicolon)

-- What is derived from the symbols for a method, with the text of its properties.
structure AuthVerdict where
  method : Bytes
  result : Bytes
  text : Bytes
deriving DecidableEq

def authVerdicts (r : RspamdResult) (opts : CheckOptions) : List AuthVerdict :=
  authMethods.filterMap fun m => (m.evaluate r.symbols).map fun (result, options) =>
    ⟨m.method, result, propertyFor m.method options opts⟩

-- A text of properties as the grammar has it where it stands alone.
def readProperties (text : Bytes) : Option (List (Bytes × Bytes)) := (lex text).bind parseDetails

-- The result of a method, with the properties of its own text and no others.
def AuthVerdict.Gives (v : AuthVerdict) (result : AuthResult) : Prop :=
  (readProperties v.text).map (⟨v.method, v.result, ·⟩) = some result

-- What may follow the equals sign of a property: its value, and then other properties.
def parseValue : List Tok → Option (Bytes × List (Bytes × Bytes))
  | .atSign :: .word domain :: toks => (parseProperties [] toks).map (64 :: domain, ·)
  | v :: .atSign :: .word domain :: toks =>
    v.value.bind fun localPart => (parseProperties [] toks).map (localPart ++ 64 :: domain, ·)
  | v :: toks => v.value.bind fun value => (parseProperties [] toks).map (value, ·)
  | [] => none

def ReadsAsValue (text : Bytes) : Prop := ((lex text).bind parseValue).isSome = true

instance (text : Bytes) : Decidable (ReadsAsValue text) := inferInstanceAs (Decidable (_ = true))

-- The options of the symbol that decides the method.
def Decides (r : RspamdResult) (method : Bytes) (options : List Bytes) : Prop :=
  ∃ m ∈ authMethods, m.method = method ∧ ∃ result, m.evaluate r.symbols = some (result, options)

-- The domain and the selector that an option of a DKIM symbol names.
def signerText (option : Bytes) : Bytes :=
  match cut 58 option with
  | none => option
  | some (domain, selector) => domain ++ ascii " " ++ replaceFirst (ascii "s=") (ascii "header.s=") selector

-- What stands as a value in the text of a method and comes from outside: the
-- envelope sender or the HELO name, or the first option of the symbol.
inductive Given (opts : CheckOptions) : Bytes → List Bytes → Bytes → Prop
  | sender {options} (h : domainOf opts.sender ≠ []) :
    Given opts (ascii "spf") options (sanitizeProperty (domainOf opts.sender))
  | helo {options} (h : domainOf opts.sender = []) (hh : sanitizeProperty opts.helo ≠ []) :
    Given opts (ascii "spf") options (sanitizeProperty opts.helo)
  | signer {options} (h : sanitizeProperty (firstOption options) ≠ []) :
    Given opts (ascii "dkim") options (signerText (sanitizeProperty (firstOption options)))
  | author {options} (h : sanitizeProperty (firstOption options) ≠ []) :
    Given opts (ascii "dmarc") options (sanitizeProperty (firstOption options))

-- The hostname reads as itself, and what a method that is reported is given reads as a value.
structure Readable (r : RspamdResult) (opts : CheckOptions) : Prop where
  hostname : (lex (sanitizeProperty opts.hostname)).bind parseAuthserv = some opts.hostname
  values : ∀ method options text, Decides r method options → Given opts method options text → ReadsAsValue text

section Lexing

variable {mode : LexMode} {text front rest : Bytes} {toks first : List Tok} {b : UInt8}

lemma semicolon_notMem_flush {w : Bytes} (h : Tok.semicolon ∉ toks) : Tok.semicolon ∉ flush w toks := by
  unfold flush
  split_ifs
  · exact h
  · simpa using h

lemma semicolon_notMem_emits (hb : b ≠ 59) : Tok.semicolon ∉ mode.emits b := by
  have hs : signOf b ≠ .semicolon := by
    unfold signOf
    rw [if_neg hb]
    split_ifs <;> simp
  unfold LexMode.emits
  split
  · split_ifs
    · exact not_mem_nil
    · exact semicolon_notMem_flush not_mem_nil
    · exact semicolon_notMem_flush (by simpa using hs.symm)
  · split_ifs <;> simp
  · exact not_mem_nil

-- A semicolon is a sign only where no comment and no quoted string is open.
lemma emits_semicolon (mode : LexMode) :
    (∃ w, mode = .plain w ∧ mode.emits 59 = flush w [] ++ [.semicolon] ∧ mode.next 59 = .plain []) ∨
      mode.close = none ∧ mode.emits 59 = [] := by
  cases mode with
  | plain w =>
    refine .inl ⟨w, rfl, ?_, rfl⟩
    have he : (LexMode.plain w).emits 59 = flush w [.semicolon] := rfl
    rw [he, flush, flush]
    split_ifs <;> rfl
  | comment depth escaped => exact .inr ⟨rfl, by cases escaped <;> rfl⟩
  | quoted s escaped => exact .inr ⟨rfl, by cases escaped <;> rfl⟩

lemma count_lexFrom_le (h : lexFrom mode text = some toks) : toks.count .semicolon ≤ text.count 59 := by
  induction text generalizing mode toks with
  | nil =>
    cases mode with
    | plain w =>
      obtain rfl := Option.some.inj h
      exact (count_eq_zero.mpr (semicolon_notMem_flush not_mem_nil)).le
    | comment depth escaped | quoted s escaped => cases h
  | cons b text ih =>
    obtain ⟨more, hm, rfl⟩ := map_eq_some_iff.mp h
    have hle := ih hm
    rw [count_append]
    by_cases hb : b = 59
    · subst hb
      rw [count_cons_self]
      obtain ⟨w, -, he, -⟩ | ⟨-, he⟩ := emits_semicolon mode
      · rw [he, count_append, count_eq_zero.mpr (semicolon_notMem_flush not_mem_nil), count_singleton_self]
        omega
      · rw [he, count_nil]
        omega
    · rw [count_eq_zero.mpr (semicolon_notMem_emits hb), count_cons_of_ne hb]
      omega

lemma semicolon_notMem (hn : 59 ∉ text) (h : lexFrom mode text = some toks) : Tok.semicolon ∉ toks := by
  have hle := count_lexFrom_le h
  rw [count_eq_zero.mpr hn] at hle
  exact count_eq_zero.mp (Nat.le_zero.mp hle)

lemma lexFrom_before (h : lexFrom mode front = some first) (rest : Bytes) :
    lexFrom mode (front ++ 59 :: rest) = (lex rest).map (first ++ .semicolon :: ·) := by
  induction front generalizing mode first with
  | nil =>
    obtain ⟨w, rfl, he, hn⟩ | ⟨hc, -⟩ := emits_semicolon mode
    · obtain rfl := Option.some.inj h
      rw [nil_append, lexFrom, he, hn]
      simp [lex]
    · cases hc.symm.trans h
  | cons b front ih =>
    obtain ⟨more, hm, rfl⟩ := map_eq_some_iff.mp h
    rw [cons_append, lexFrom, ih hm, Option.map_map]
    congr 1
    funext others
    simp

-- As many semicolons are read as there are, so none of them stands in a comment or a quoted string.
lemma lexFrom_split (hn : 59 ∉ front) (h : lexFrom mode (front ++ 59 :: rest) = some toks)
    (hc : rest.count 59 < toks.count .semicolon) :
    ∃ first others, lexFrom mode front = some first ∧ lex rest = some others ∧
      toks = first ++ .semicolon :: others := by
  induction front generalizing mode toks with
  | nil =>
    obtain ⟨more, hm, rfl⟩ := map_eq_some_iff.mp h
    obtain ⟨w, rfl, he, hnx⟩ | ⟨-, he⟩ := emits_semicolon mode
    · rw [hnx] at hm
      exact ⟨flush w [], more, rfl, hm, by rw [he]; simp⟩
    · have hle := count_lexFrom_le hm
      rw [he, nil_append] at hc
      omega
  | cons b front ih =>
    obtain ⟨more, hm, rfl⟩ := map_eq_some_iff.mp h
    obtain ⟨hb, hf⟩ := not_or.mp (mem_cons.not.mp hn)
    rw [count_append, count_eq_zero.mpr (semicolon_notMem_emits (Ne.symm hb)), Nat.zero_add] at hc
    obtain ⟨first, others, hfi, hr, rfl⟩ := ih hf hm hc
    exact ⟨mode.emits b ++ first, others, by rw [lexFrom, hfi, map_some], hr, by simp⟩

lemma lex_folding (rest : Bytes) : lex (ascii "\r\n\t" ++ rest) = lex rest := by
  have hf : ∀ b, isTokenByte b = false → isFolding b = true → b ≠ 40 → b ≠ 34 → ∀ rest, lex (b :: rest) = lex rest := by
    intro b ht hfo ho hq rest
    simp [lex, lexFrom, LexMode.next, LexMode.emits, flush, ht, hfo, ho, hq]
  show lex (13 :: 10 :: 9 :: rest) = lex rest
  rw [hf 13 (by decide) (by decide) (by decide) (by decide), hf 10 (by decide) (by decide) (by decide) (by decide),
    hf 9 (by decide) (by decide) (by decide) (by decide)]

def separator : Bytes := ascii ";\r\n\t"

lemma separator_append (rest : Bytes) : separator ++ rest = 59 :: (ascii "\r\n\t" ++ rest) := rfl

lemma count_separators {parts : List Bytes} (hn : ∀ part ∈ parts, 59 ∉ part) :
    (separator.intercalate parts).count 59 = parts.length - 1 := by
  induction parts with
  | nil => rfl
  | cons part parts ih =>
    obtain ⟨hp, hps⟩ := forall_mem_cons.mp hn
    have hpc := count_eq_zero.mpr hp
    rcases parts with _ | ⟨next, parts⟩
    · simpa using hpc
    · have hsep : separator.count 59 = 1 := by decide
      rw [intercalate_cons_cons, count_append, count_append, hpc, hsep, ih hps]
      simp only [length_cons]
      omega

lemma lex_parts {parts : List Bytes} {segments : List (List Tok)} (hne : parts ≠ [])
    (h : List.Forall₂ (fun part segment => lex part = some segment) parts segments) :
    lex (separator.intercalate parts) = some ([Tok.semicolon].intercalate segments) := by
  induction h with
  | nil => exact absurd rfl hne
  | @cons part segment parts segments hp hpa ih =>
    rcases hpa with _ | ⟨hn, hm⟩
    · simpa using hp
    rw [intercalate_cons_cons, intercalate_cons_cons, append_assoc, separator_append, lex, lexFrom_before hp,
      lex_folding, ih (cons_ne_nil _ _)]
    simp

lemma segments_of_lex {parts : List Bytes} (hn : ∀ part ∈ parts, 59 ∉ part)
    (h : lex (separator.intercalate parts) = some toks) (hc : parts.length ≤ toks.count .semicolon + 1)
    (hne : parts ≠ []) : ∃ segments, List.Forall₂ (fun part segment => lex part = some segment) parts segments ∧
      toks = [Tok.semicolon].intercalate segments := by
  induction parts generalizing toks with
  | nil => exact absurd rfl hne
  | cons part parts ih =>
    obtain ⟨hp, hps⟩ := forall_mem_cons.mp hn
    rcases parts with _ | ⟨next, parts⟩
    · exact ⟨[toks], .cons (by simpa using h) .nil, by simp⟩
    have hco := count_separators hps
    rw [intercalate_cons_cons, append_assoc, separator_append] at h
    simp only [length_cons] at hc hco
    obtain ⟨first, others, hf, ho, rfl⟩ := lexFrom_split hp h (by
      rw [count_append, show (ascii "\r\n\t").count 59 = 0 by decide, hco]
      omega)
    rw [count_append, count_eq_zero.mpr (semicolon_notMem hp hf), count_cons_self] at hc
    rw [lex_folding] at ho
    obtain ⟨segments, hs, rfl⟩ := ih hps ho (by simp only [length_cons]; omega) (cons_ne_nil _ _)
    refine ⟨first :: segments, .cons hf hs, ?_⟩
    rcases hs with _ | ⟨_, _⟩
    rw [intercalate_cons_cons]
    simp

end Lexing

section Parsing

variable {authserv : Bytes} {segments : List (List Tok)} {results : List AuthResult}

lemma mapM_eq_some_iff {α β : Type} {f : α → Option β} {l : List α} {values : List β} :
    l.mapM f = some values ↔ List.Forall₂ (fun a value => f a = some value) l values := by
  induction l generalizing values with
  | nil =>
    rw [mapM_nil, forall₂_nil_left_iff]
    exact ⟨fun h => (Option.some.inj h).symm, fun h => congrArg some h.symm⟩
  | cons a l ih =>
    rw [mapM_cons]
    constructor
    · intro h
      obtain ⟨value, ha, h⟩ := bind_eq_some_iff.mp h
      obtain ⟨more, hl, h⟩ := bind_eq_some_iff.mp h
      obtain rfl := Option.some.inj h
      exact .cons ha (ih.mp hl)
    · rintro (_ | ⟨ha, hl⟩)
      rw [ha, ih.mpr hl]
      rfl

lemma forall₂_bind_iff {α β γ : Type} {f : α → Option β} {g : β → Option γ} {l : List α} {values : List γ} :
    List.Forall₂ (fun a value => (f a).bind g = some value) l values ↔
      ∃ middle, List.Forall₂ (fun a b => f a = some b) l middle ∧
        List.Forall₂ (fun b value => g b = some value) middle values := by
  constructor
  · intro h
    induction h with
    | nil => exact ⟨[], .nil, .nil⟩
    | cons ha hl ih =>
      obtain ⟨b, hf, hg⟩ := bind_eq_some_iff.mp ha
      obtain ⟨middle, hm, hv⟩ := ih
      exact ⟨b :: middle, .cons hf hm, .cons hg hv⟩
  · rintro ⟨middle, hm, hv⟩
    induction hm generalizing values with
    | nil => cases hv; exact .nil
    | cons hf hm ih =>
      rcases hv with _ | ⟨hg, hv⟩
      exact .cons (bind_eq_some_iff.mpr ⟨_, hf, hg⟩) (ih hv)

lemma parseSegments_some (h : parseSegments segments = some (authserv, results)) (hne : results ≠ []) :
    ∃ first rest, segments = first :: rest ∧ parseAuthserv first = some authserv ∧
      List.Forall₂ (fun segment result => parseResult segment = some result) rest results := by
  rcases segments with _ | ⟨first, _ | ⟨segment, segments⟩⟩
  · cases h
  · cases h
  obtain ⟨name, hn, h⟩ := bind_eq_some_iff.mp h
  by_cases hs : segment :: segments = [[.word (ascii "none")]]
  · rw [if_pos hs] at h
    cases h
    exact absurd rfl hne
  · rw [if_neg hs] at h
    obtain ⟨values, hv, heq⟩ := map_eq_some_iff.mp h
    cases heq
    exact ⟨first, segment :: segments, rfl, hn, mapM_eq_some_iff.mp hv⟩

lemma parseSegments_cons {first : List Tok} (hf : parseAuthserv first = some authserv) (hne : results ≠ [])
    (h : List.Forall₂ (fun segment result => parseResult segment = some result) segments results) :
    parseSegments (first :: segments) = some (authserv, results) := by
  rcases h with _ | ⟨hs, hss⟩
  · exact absurd rfl hne
  rename_i segment result segments results
  have hno : segment :: segments ≠ [[.word (ascii "none")]] := by
    intro heq
    obtain ⟨rfl, -⟩ := List.cons.inj heq
    cases hs
  rw [parseSegments, hf, bind_some, if_neg hno, mapM_eq_some_iff.mpr (.cons hs hss), map_some]

lemma length_le_count (segments : List (List Tok)) :
    segments.length ≤ ([Tok.semicolon].intercalate segments).count .semicolon + 1 := by
  induction segments with
  | nil => exact Nat.zero_le _
  | cons segment segments ih =>
    rcases segments with _ | ⟨next, segments⟩
    · exact Nat.le_add_left 1 _
    · rw [intercalate_cons_cons, count_append, count_append, count_singleton_self]
      simp only [length_cons] at ih ⊢
      omega

lemma semicolon_notMem_segments {parts : List Bytes} (hn : ∀ part ∈ parts, 59 ∉ part)
    (h : List.Forall₂ (fun part segment => lex part = some segment) parts segments) :
    ∀ segment ∈ segments, Tok.semicolon ∉ segment := by
  induction h with
  | nil => exact fun segment hm => absurd hm not_mem_nil
  | cons hp hps ih =>
    obtain ⟨hpn, hpsn⟩ := forall_mem_cons.mp hn
    exact forall_mem_cons.mpr ⟨semicolon_notMem hpn hp, ih hpsn⟩

-- Where as many results are read as there are clauses, each clause is read by itself.
lemma parseAuthResults_iff {host : Bytes} {clauses : List Bytes} (hh : 59 ∉ host)
    (hc : ∀ clause ∈ clauses, 59 ∉ clause) (hne : results ≠ []) (hl : results.length = clauses.length) :
    parseAuthResults (separator.intercalate (host :: clauses)) = some (authserv, results) ↔
      (lex host).bind parseAuthserv = some authserv ∧
        List.Forall₂ (fun clause result => (lex clause).bind parseResult = some result) clauses results := by
  have hn : ∀ part ∈ host :: clauses, 59 ∉ part := forall_mem_cons.mpr ⟨hh, hc⟩
  constructor
  · intro h
    obtain ⟨toks, ht, hp⟩ := bind_eq_some_iff.mp h
    obtain ⟨first, rest, hs, ha, hr⟩ := parseSegments_some hp hne
    -- there are as many semicolons as in the text, so each of them was read as one
    have hcount : (host :: clauses).length ≤ toks.count .semicolon + 1 := by
      have hle := length_le_count (toks.splitOn .semicolon)
      rw [intercalate_splitOn, hs, length_cons, hr.length_eq, hl] at hle
      exact hle
    obtain ⟨segments, hse, rfl⟩ := segments_of_lex hn ht hcount (cons_ne_nil _ _)
    rw [splitOn_intercalate _ (semicolon_notMem_segments hn hse) (by rintro rfl; cases hse)] at hs
    subst hs
    obtain ⟨_, _⟩ | ⟨hf, hcl⟩ := hse
    exact ⟨bind_eq_some_iff.mpr ⟨first, hf, ha⟩, forall₂_bind_iff.mpr ⟨rest, hcl, hr⟩⟩
  · rintro ⟨ha, hr⟩
    obtain ⟨first, hf, ha⟩ := bind_eq_some_iff.mp ha
    obtain ⟨segments, hcl, hr⟩ := forall₂_bind_iff.mp hr
    have hse : List.Forall₂ (fun part segment => lex part = some segment) (host :: clauses) (first :: segments) :=
      .cons hf hcl
    rw [parseAuthResults, lex_parts (cons_ne_nil _ _) hse, bind_some,
      splitOn_intercalate _ (semicolon_notMem_segments hn hse) (cons_ne_nil _ _), parseSegments_cons ha hne hr]

end Parsing

section Clauses

variable {w rest text : Bytes} {r : RspamdResult} {opts : CheckOptions} {v : AuthVerdict}

def IsToken (w : Bytes) : Prop := w ≠ [] ∧ ∀ b ∈ w, isTokenByte b = true

instance (w : Bytes) : Decidable (IsToken w) := inferInstanceAs (Decidable (_ ∧ _))

lemma lexFrom_token (front : Bytes) (hw : ∀ b ∈ w, isTokenByte b = true) (rest : Bytes) :
    lexFrom (.plain front) (w ++ rest) = lexFrom (.plain (front ++ w)) rest := by
  induction w generalizing front with
  | nil => rw [nil_append, append_nil]
  | cons b w ih =>
    obtain ⟨hb, hw⟩ := forall_mem_cons.mp hw
    rw [cons_append, lexFrom, LexMode.next, LexMode.emits, if_pos hb, if_pos hb, ih _ hw, append_assoc]
    simp

lemma lex_token (hw : IsToken w) : lex w = some [.word w] := by
  have h := lexFrom_token [] hw.2 []
  rw [append_nil, nil_append] at h
  rw [lex, h, lexFrom, LexMode.close, flush, if_neg hw.1]

-- A token ends at a byte after which nothing is open.
lemma lex_ended {b : UInt8} {signs : List Tok} (hw : IsToken w) (hn : (LexMode.plain w).next b = .plain [])
    (he : (LexMode.plain w).emits b = flush w signs) (rest : Bytes) :
    lex (w ++ b :: rest) = (lex rest).map (.word w :: signs ++ ·) := by
  rw [lex, lexFrom_token [] hw.2, nil_append, lexFrom, hn, he, flush, if_neg hw.1]
  rfl

lemma lex_assign (hw : IsToken w) (rest : Bytes) :
    lex (w ++ ascii "=" ++ rest) = (lex rest).map ([.word w, .equals] ++ ·) := by
  rw [append_assoc]
  exact lex_ended hw rfl rfl rest

lemma lex_spaced (hw : IsToken w) (rest : Bytes) :
    lex (w ++ (ascii " " ++ rest)) = (lex rest).map ([.word w] ++ ·) :=
  lex_ended hw rfl rfl rest

def AuthVerdict.clause (v : AuthVerdict) : Bytes :=
  v.method ++ ascii "=" ++ v.result ++ if v.text = [] then [] else ascii " " ++ v.text

lemma filterMap_authClause (r : RspamdResult) (opts : CheckOptions) :
    authMethods.filterMap (authClause r opts) = (authVerdicts r opts).map AuthVerdict.clause := by
  rw [authVerdicts, map_filterMap]
  refine filterMap_congr fun m _ => ?_
  rw [authClause, Option.map_map]
  rfl

lemma keywords_methods : ∀ m ∈ authMethods, (IsToken m.method ∧ isKeyword m.method = true) ∧
    ∀ symbol ∈ m.symbols, IsToken symbol.2 ∧ isKeyword symbol.2 = true := by
  decide +kernel

lemma mem_authVerdicts (h : v ∈ authVerdicts r opts) : ∃ m ∈ authMethods, ∃ options,
    m.evaluate r.symbols = some (v.result, options) ∧ v.method = m.method ∧
      v.text = propertyFor m.method options opts := by
  obtain ⟨m, hm, he⟩ := mem_filterMap.mp h
  obtain ⟨⟨result, options⟩, ha, rfl⟩ := map_eq_some_iff.mp he
  exact ⟨m, hm, options, ha, rfl, rfl⟩

lemma lex_clause (hm : IsToken v.method) (hr : IsToken v.result) :
    lex v.clause = (lex v.text).map ([.word v.method, .equals, .word v.result] ++ ·) := by
  have hc : v.clause = v.method ++ ascii "=" ++ (v.result ++ if v.text = [] then [] else ascii " " ++ v.text) := by
    rw [AuthVerdict.clause]
    simp
  rw [hc, lex_assign hm]
  by_cases ht : v.text = []
  · rw [if_pos ht, append_nil, lex_token hr, ht]
    rfl
  · rw [if_neg ht, lex_spaced hr, Option.map_map]
    rfl

lemma read_clause (hv : v ∈ authVerdicts r opts) :
    (lex v.clause).bind parseResult = (readProperties v.text).map (⟨v.method, v.result, ·⟩) := by
  obtain ⟨m, hm, options, he, hme, -⟩ := mem_authVerdicts hv
  obtain ⟨symbol, hs, hsr⟩ := mem_of_evaluate he
  obtain ⟨⟨hmt, hmk⟩, hsy⟩ := keywords_methods m hm
  obtain ⟨hrt, hrk⟩ := hsy symbol hs
  rw [← hme] at hmt hmk
  rw [hsr] at hrt hrk
  rw [lex_clause hmt hrt, readProperties, Option.bind_map, Option.map_bind]
  congr 1
  funext toks
  exact if_pos ⟨hmk, hrk⟩

lemma semicolon_notMem_clause (hv : v ∈ authVerdicts r opts) : 59 ∉ v.clause := by
  have hc : v.clause ∈ authMethods.filterMap (authClause r opts) := by
    rw [filterMap_authClause]
    exact mem_map_of_mem hv
  obtain ⟨m, hm, he⟩ := mem_filterMap.mp hc
  exact fun h => ((authClause_plain hm he).2 _ h).2 rfl

end Clauses

section Values

variable {name value : Bytes} {toks : List Tok} {r : RspamdResult} {opts : CheckOptions}

lemma parseProperties_equals (hn : isPropertyName name = true) (toks : List Tok) :
    parseProperties name (.equals :: toks) = (parseValue toks).map fun (value, rest) => (name, value) :: rest := by
  fun_cases parseValue toks <;> simp_all [parseProperties, withProperty, Function.comp_def]

lemma parseDetails_assign (hr : name ≠ ascii "reason") (toks : List Tok) :
    parseDetails (.word name :: .equals :: toks) = parseProperties name (.equals :: toks) := by
  have hp : parseProperties [] (.word name :: .equals :: toks) = parseProperties name (.equals :: toks) := by
    rw [parseProperties, if_pos (Or.inl rfl), nil_append]
  cases toks with
  | nil => exact hp
  | cons v toks =>
    rw [parseDetails, if_neg (fun h => hr h.1)]
    exact hp

lemma readProperties_assign (name : Bytes) (hw : IsToken name) (hn : isPropertyName name = true)
    (hr : name ≠ ascii "reason") (text : Bytes) :
    (readProperties (name ++ ascii "=" ++ text)).isSome = true ↔ ReadsAsValue text := by
  have he : readProperties (name ++ ascii "=" ++ text) =
      ((lex text).bind parseValue).map fun (value, rest) => (name, value) :: rest := by
    rw [readProperties, lex_assign hw, Option.bind_map, Option.map_bind]
    congr 1
    funext toks
    exact (parseDetails_assign hr toks).trans (parseProperties_equals hn toks)
  rw [he, Option.isSome_map]
  exact Iff.rfl

def givenNames : List Bytes := [ascii "smtp.mailfrom", ascii "smtp.helo", ascii "header.d", ascii "header.from"]

lemma read_given (hn : name ∈ givenNames) (text : Bytes) :
    (readProperties (name ++ ascii "=" ++ text)).isSome = true ↔ ReadsAsValue text := by
  have hnames : ∀ name ∈ givenNames, IsToken name ∧ isPropertyName name = true ∧ name ≠ ascii "reason" := by
    decide +kernel
  obtain ⟨hw, hp, hr⟩ := hnames name hn
  exact readProperties_assign name hw hp hr text

lemma propertyFor_dkim {options : List Bytes} (h : sanitizeProperty (firstOption options) ≠ []) :
    propertyFor (ascii "dkim") options opts =
      ascii "header.d" ++ ascii "=" ++ signerText (sanitizeProperty (firstOption options)) := by
  rw [propertyFor, if_neg (by decide), if_pos rfl]
  dsimp only
  rw [if_neg h, signerText]
  cases cut 58 (sanitizeProperty (firstOption options)) with
  | none => rfl
  | some parts =>
    show ascii "header.d=" ++ parts.1 ++ ascii " " ++ _ = ascii "header.d=" ++ (parts.1 ++ ascii " " ++ _)
    simp only [append_assoc]

variable {method text : Bytes} {options : List Bytes}

lemma Given.propertyFor (h : Given opts method options text) :
    ∃ name ∈ givenNames, propertyFor method options opts = name ++ ascii "=" ++ text := by
  have hdm : ascii "dmarc" ≠ ascii "spf" ∧ ascii "dmarc" ≠ ascii "dkim" := by decide
  cases h with
  | sender h =>
    refine ⟨ascii "smtp.mailfrom", by decide, ?_⟩
    rw [Smtpd.propertyFor, if_pos rfl, if_pos h]
    rfl
  | helo h hh =>
    refine ⟨ascii "smtp.helo", by decide, ?_⟩
    rw [Smtpd.propertyFor, if_pos rfl, if_neg (not_not.mpr h), if_pos hh]
    rfl
  | signer h => exact ⟨ascii "header.d", by decide, propertyFor_dkim h⟩
  | author h =>
    refine ⟨ascii "header.from", by decide, ?_⟩
    rw [Smtpd.propertyFor, if_neg hdm.1, if_neg hdm.2, if_pos rfl]
    dsimp only
    rw [if_neg h]
    rfl

lemma propertyFor_given (method : Bytes) (options : List Bytes) (opts : CheckOptions) :
    propertyFor method options opts = [] ∨ ∃ text, Given opts method options text := by
  unfold propertyFor
  dsimp only
  split_ifs with hs hd hh hk ho hm ho
  · subst hs
    exact .inr ⟨_, .sender hd⟩
  · subst hs
    exact .inr ⟨_, .helo (not_not.mp hd) hh⟩
  · exact .inl rfl
  · exact .inl rfl
  · subst hk
    exact .inr ⟨_, .signer ho⟩
  · exact .inl rfl
  · subst hm
    exact .inr ⟨_, .author ho⟩
  · exact .inl rfl

lemma read_propertyFor : (readProperties (propertyFor method options opts)).isSome = true ↔
    ∀ text, Given opts method options text → ReadsAsValue text := by
  constructor
  · intro h text hg
    obtain ⟨name, hn, he⟩ := hg.propertyFor
    rw [he] at h
    exact (read_given hn text).mp h
  · intro h
    obtain he | ⟨text, hg⟩ := propertyFor_given method options opts
    · rw [he]
      rfl
    · obtain ⟨name, hn, he⟩ := hg.propertyFor
      rw [he]
      exact (read_given hn text).mpr (h text hg)

lemma readable_iff : Readable r opts ↔
    (lex (sanitizeProperty opts.hostname)).bind parseAuthserv = some opts.hostname ∧
      ∀ v ∈ authVerdicts r opts, (readProperties v.text).isSome = true := by
  constructor
  · rintro ⟨hh, hv⟩
    refine ⟨hh, fun v hm => ?_⟩
    obtain ⟨m, hm, options, he, -, ht⟩ := mem_authVerdicts hm
    rw [ht]
    exact read_propertyFor.mpr fun text hg => hv m.method options text ⟨m, hm, rfl, v.result, he⟩ hg
  · rintro ⟨hh, hv⟩
    refine ⟨hh, ?_⟩
    rintro _ options text ⟨m, hm, rfl, result, he⟩ hg
    have hmem : ⟨m.method, result, propertyFor m.method options opts⟩ ∈ authVerdicts r opts :=
      mem_filterMap.mpr ⟨m, hm, by rw [he]; rfl⟩
    exact read_propertyFor.mp (hv _ hmem) text hg

end Values

section Results

variable {r : RspamdResult} {opts : CheckOptions} {results : List AuthResult}

lemma forall_isSome_iff {α β : Type} {f : α → Option β} {l : List α} :
    (∀ a ∈ l, (f a).isSome = true) ↔ ∃ values, List.Forall₂ (fun a value => f a = some value) l values := by
  induction l with
  | nil => exact ⟨fun _ => ⟨[], .nil⟩, fun _ _ h => absurd h not_mem_nil⟩
  | cons a l ih =>
    rw [forall_mem_cons, ih]
    constructor
    · rintro ⟨ha, values, hv⟩
      obtain ⟨value, ha⟩ := isSome_iff_exists.mp ha
      exact ⟨value :: values, .cons ha hv⟩
    · rintro ⟨_, _ | ⟨ha, hv⟩⟩
      exact ⟨isSome_iff_exists.mpr ⟨_, ha⟩, _, hv⟩

lemma names_of_gives {vs : List AuthVerdict} (h : List.Forall₂ AuthVerdict.Gives vs results) :
    results.map (fun result => (result.method, result.result)) = vs.map (fun v => (v.method, v.result)) := by
  induction h with
  | nil => rfl
  | cons hv _ ih =>
    obtain ⟨properties, -, rfl⟩ := map_eq_some_iff.mp hv
    rw [map_cons, map_cons, ih]

lemma buildAuthResults_verdicts (fold : Folding)
    (hmilter : ∀ header ∈ r.addHeaders, fold.foldEq header.1 authResultsHeaderName = false) :
    buildAuthResults fold r opts =
      if sanitizeProperty opts.hostname = [] ∨ authVerdicts r opts = [] then []
      else separator.intercalate (sanitizeProperty opts.hostname :: (authVerdicts r opts).map AuthVerdict.clause) := by
  have ho : r.addHeaders.filter (fold.foldEq ·.1 authResultsHeaderName) = [] :=
    filter_eq_nil_iff.mpr fun header hh => by simp [hmilter header hh]
  by_cases hh : sanitizeProperty opts.hostname = []
  · rw [if_pos (Or.inl hh)]
    exact if_pos hh
  simp only [buildAuthResults, if_neg hh, ho, map_nil, find?_nil, filterMap_authClause, map_eq_nil_iff]
  by_cases hv : authVerdicts r opts = []
  · rw [if_pos hv, if_pos (Or.inr hv)]
  · rw [if_neg hv, if_neg (not_or.mpr ⟨hh, hv⟩), ← intercalate_cons_of_ne_nil (by simpa using hv)]
    rfl

-- Whatever is read with the methods and results derived is read clause by clause.
lemma parse_gives (fold : Folding)
    (hmilter : ∀ header ∈ r.addHeaders, fold.foldEq header.1 authResultsHeaderName = false)
    (hne : results ≠ []) (hl : results.length = (authVerdicts r opts).length) :
    parseAuthResults (buildAuthResults fold r opts) = some (opts.hostname, results) ↔
      (lex (sanitizeProperty opts.hostname)).bind parseAuthserv = some opts.hostname ∧
        List.Forall₂ AuthVerdict.Gives (authVerdicts r opts) results := by
  have hv : authVerdicts r opts ≠ [] := by
    rintro hn
    rw [hn] at hl
    exact hne (length_eq_zero_iff.mp hl)
  have hplain : 59 ∉ sanitizeProperty opts.hostname := fun h => (plain_sanitizeProperty _ _ h).2 rfl
  have hg : List.Forall₂ (fun clause result => (lex clause).bind parseResult = some result)
      ((authVerdicts r opts).map AuthVerdict.clause) results ↔
        List.Forall₂ AuthVerdict.Gives (authVerdicts r opts) results := by
    have hall : ∀ v ∈ authVerdicts r opts, (lex v.clause).bind parseResult = _ := fun v => read_clause
    rw [forall₂_map_left_iff]
    constructor
    · intro h
      exact ((forall₂_and_left _ _).mpr ⟨hall, h⟩).imp fun v result h => h.1.symm.trans h.2
    · intro h
      exact ((forall₂_and_left _ _).mpr ⟨hall, h⟩).imp fun v result h => h.1.trans h.2
  rw [buildAuthResults_verdicts fold hmilter]
  by_cases hh : sanitizeProperty opts.hostname = []
  · rw [if_pos (Or.inl hh), hh]
    exact ⟨fun h => absurd h nofun, fun h => absurd h.1 nofun⟩
  · rw [if_neg (not_or.mpr ⟨hh, hv⟩), parseAuthResults_iff hplain ?_ hne (by rw [length_map, hl]), hg]
    intro clause hc
    obtain ⟨v, hv, rfl⟩ := mem_map.mp hc
    exact semicolon_notMem_clause hv

end Results

theorem auth_results_read_iff (fold : Folding) (r : RspamdResult) (opts : CheckOptions)
    (hmilter : ∀ header ∈ r.addHeaders, fold.foldEq header.1 authResultsHeaderName = false) :
    (authVerdicts r opts = [] → buildAuthResults fold r opts = []) ∧
      (authVerdicts r opts ≠ [] →
        ((∃ results, parseAuthResults (buildAuthResults fold r opts) = some (opts.hostname, results) ∧
            results.map (fun result => (result.method, result.result)) =
              (authVerdicts r opts).map (fun v => (v.method, v.result))) ↔ Readable r opts) ∧
          (Readable r opts → ∃ results,
            parseAuthResults (buildAuthResults fold r opts) = some (opts.hostname, results) ∧
              List.Forall₂ AuthVerdict.Gives (authVerdicts r opts) results)) := by
  have hread (h : authVerdicts r opts ≠ []) (hr : Readable r opts) : ∃ results,
      parseAuthResults (buildAuthResults fold r opts) = some (opts.hostname, results) ∧
        List.Forall₂ AuthVerdict.Gives (authVerdicts r opts) results := by
    obtain ⟨hh, ht⟩ := readable_iff.mp hr
    obtain ⟨results, hg⟩ := forall_isSome_iff.mp
      fun v hv => Option.isSome_map.trans (ht v hv)
    have hne : results ≠ [] := by
      rintro rfl
      exact h (forall₂_nil_right_iff.mp hg)
    exact ⟨results, (parse_gives fold hmilter hne hg.length_eq.symm).mpr ⟨hh, hg⟩, hg⟩
  refine ⟨fun h => ?_, fun h => ⟨⟨?_, fun hr => ?_⟩, hread h⟩⟩
  · rw [buildAuthResults_verdicts fold hmilter, if_pos (Or.inr h)]
  · rintro ⟨results, hp, hn⟩
    have hl : results.length = (authVerdicts r opts).length := by simpa using congrArg length hn
    have hne : results ≠ [] := by
      rintro rfl
      exact h (length_eq_zero_iff.mp hl.symm)
    obtain ⟨hh, hg⟩ := (parse_gives fold hmilter hne hl).mp hp
    refine readable_iff.mpr ⟨hh, fun v hv => ?_⟩
    have hs := forall_isSome_iff.mpr ⟨results, hg⟩ v hv
    rwa [Option.isSome_map] at hs
  · obtain ⟨results, hp, hg⟩ := hread h hr
    exact ⟨results, hp, names_of_gives hg⟩

def signedAnswer : RspamdResult where
  symbols := [(ascii "R_SPF_FAIL", []), (ascii "R_DKIM_ALLOW", [ascii "a.example:s=mail"]),
    (ascii "DMARC_POLICY_ALLOW", [ascii "a.example(strict)"])]
  addHeaders := [(ascii "X-Spamd-Bar", ascii "+")]

def signedResults : List AuthResult :=
  [⟨ascii "spf", ascii "fail", [(ascii "smtp.mailfrom", ascii "b.example")]⟩,
    ⟨ascii "dkim", ascii "pass", [(ascii "header.d", ascii "a.example"), (ascii "header.s", ascii "mail")]⟩,
    ⟨ascii "dmarc", ascii "pass", [(ascii "header.from", ascii "a.example")]⟩]

theorem auth_results_read_iff_signed :
    Readable signedAnswer ⟨ascii "x@b.example", [], ascii "mx.example"⟩ ∧ ∃ results,
      parseAuthResults (buildAuthResults Folding.asciiOnly signedAnswer
        ⟨ascii "x@b.example", [], ascii "mx.example"⟩) = some (ascii "mx.example", results) ∧
      List.Forall₂ AuthVerdict.Gives (authVerdicts signedAnswer ⟨ascii "x@b.example", [], ascii "mx.example"⟩)
        results := by
  obtain ⟨hiff, hread⟩ := (auth_results_read_iff Folding.asciiOnly signedAnswer
    ⟨ascii "x@b.example", [], ascii "mx.example"⟩ (by decide +kernel)).2 (by decide +kernel)
  have hr := hiff.mp ⟨signedResults, by decide +kernel, by decide +kernel⟩
  exact ⟨hr, hread hr⟩

-- A sender's open parenthesis and a signer's closing one put the failed signature inside a comment.
def hidingAnswer : RspamdResult where
  symbols := [(ascii "R_SPF_ALLOW", []), (ascii "R_DKIM_REJECT", [ascii "c)"]),
    (ascii "DMARC_POLICY_ALLOW", [ascii "a.example"])]
  addHeaders := []

theorem comment_hides_result :
    (authVerdicts hidingAnswer ⟨ascii "x@b(", [], ascii "mx"⟩).map (fun v => (v.method, v.result)) =
        [(ascii "spf", ascii "pass"), (ascii "dkim", ascii "fail"), (ascii "dmarc", ascii "pass")] ∧
      parseAuthResults (buildAuthResults Folding.asciiOnly hidingAnswer ⟨ascii "x@b(", [], ascii "mx"⟩) =
        some (ascii "mx", [⟨ascii "spf", ascii "pass", [(ascii "smtp.mailfrom", ascii "b")]⟩,
          ⟨ascii "dmarc", ascii "pass", [(ascii "header.from", ascii "a.example")]⟩]) := by
  decide +kernel

end Maildancer.Smtpd

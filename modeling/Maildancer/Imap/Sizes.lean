import Maildancer.Imap.Serving
import Maildancer.Pop3.Sizes
import Maildancer.Text.Header
import Mathlib.Data.List.DropRight

namespace Maildancer.Imap

open List Text Maildir MailSession

-- How go-message reads a header and go-imap writes it back.
section Header

-- The lines of a field as they are written back.
def rawField (f : HeaderField) : Bytes := f.lines.flatMap fun line => dropTerminator line ++ Pop3.crlf

def trimBlanks (s : Bytes) : Bytes := (s.dropWhile (· ∈ ascii " \t")).rdropWhile (· ∈ ascii " \t")

def fieldKey (f : HeaderField) : Option Bytes := (cut 58 (rawField f)).map fun (key, _) => trimBlanks key

-- The lines of the value that are not empty, with a space between them.
def fieldValue (f : HeaderField) : Bytes :=
  ((cut 58 (rawField f)).map fun (_, value) => List.intercalate [space]
    (((split newline value).map fun line => trimBlanks (dropCR line)).filter (· ≠ []))).getD []

-- A field without a colon, or with other characters in its name, ends the reading with an error.
def legible (f : HeaderField) : Bool := (fieldKey f).any (·.all fun b => 33 ≤ b ∧ b ≤ 126)

-- A field with an empty name is skipped.
def named (f : HeaderField) : Bool := fieldKey f ≠ some []

def Readable (msg : Bytes) : Prop := isFoldedContinuation msg = false ∧ ∀ f ∈ headerFields msg, legible f = true

instance (msg : Bytes) : Decidable (Readable msg) := inferInstanceAs (Decidable (_ ∧ _))

-- The blank line and the body, or nothing.
def afterHeader (msg : Bytes) : List Bytes := (physicalLines msg).dropWhile (!isBlankLine ·)

def readFields (block : Bytes) : Option (List (Bytes × Bytes)) :=
  if Readable block then
    some (((headerFields block).filter named).map fun f => ((fieldKey f).getD [], fieldValue f))
  else none

-- Get of the header: the first field of the name.
def headerGet (fields : List (Bytes × Bytes)) (key : Bytes) : Bytes :=
  ((fields.find? fun field => equalFold field.1 key).map Prod.snd).getD []

-- BODY[]: the header is read and written again with CRLF, the body is copied.
def wholeSection (msg : Bytes) : Bytes :=
  if Readable msg then
    ((headerFields msg).filter named).flatMap rawField ++ Pop3.crlf ++ (afterHeader msg).tail.flatten
  else []

def gain (line : Bytes) : Nat :=
  if line.getLast? ≠ some newline then 2 else if line.dropLast.getLast? = some carriageReturn then 0 else 1

-- What the fields that stay gain, with the blank line, which is written also if there is none.
def gained (msg : Bytes) : Nat :=
  ((((headerFields msg).filter named).flatMap HeaderField.lines).map gain).sum + gain ((afterHeader msg).headD [])

def skipped (msg : Bytes) : Nat := (((headerFields msg).filter (!named ·)).flatMap HeaderField.lines).flatten.length

lemma length_dropTerminator (line : Bytes) : (dropTerminator line).length + 2 = line.length + gain line := by
  unfold dropTerminator gain
  by_cases hl : line.getLast? = some newline
  · obtain ⟨text, rfl⟩ := getLast?_eq_some_iff.mp hl
    rw [if_pos hl, if_neg (not_not_intro hl), dropLast_concat, dropCR]
    by_cases hr : text.getLast? = some carriageReturn
    · obtain ⟨word, rfl⟩ := getLast?_eq_some_iff.mp hr
      simp
    · simp [hr]
  · rw [if_neg hl, if_pos hl]

lemma flatMap_lines_groupFields (lines : List Bytes) : (groupFields lines).flatMap HeaderField.lines = lines := by
  induction lines with
  | nil => rfl
  | cons line lines ih =>
    rw [groupFields_cons]
    rcases hg : groupFields lines with _ | ⟨f, fields⟩
    · rw [hg] at ih
      rw [← ih]
      rfl
    · rw [hg] at ih
      rw [← ih, Text.attach]
      split_ifs <;> rfl

lemma length_rawField (f : HeaderField) : (rawField f).length = f.lines.flatten.length + (f.lines.map gain).sum := by
  rw [rawField]
  generalize f.lines = lines
  induction lines with
  | nil => rfl
  | cons line lines ih =>
    have hd := length_dropTerminator line
    rw [flatMap_cons, length_append, length_append, ih, flatten_cons, length_append, map_cons, sum_cons]
    simp only [Pop3.crlf, length_cons, length_nil]
    omega

lemma length_fields (fields : List HeaderField) :
    ((fields.filter named).flatMap rawField).length +
        ((fields.filter (!named ·)).flatMap HeaderField.lines).flatten.length =
      (fields.flatMap HeaderField.lines).flatten.length +
        (((fields.filter named).flatMap HeaderField.lines).map gain).sum := by
  induction fields with
  | nil => rfl
  | cons f fields ih =>
    by_cases hf : named f = true
    · simp only [filter_cons, hf, Bool.not_true, Bool.false_eq_true, ↓reduceIte, flatMap_cons, length_append,
        length_rawField, flatten_append, map_append, sum_append]
      omega
    · simp only [filter_cons, hf, Bool.not_false, Bool.false_eq_true, ↓reduceIte, flatMap_cons, length_append,
        flatten_append]
      omega

lemma length_wholeSection {msg : Bytes} (h : Readable msg) :
    (wholeSection msg).length + skipped msg = msg.length + gained msg := by
  have hf := length_fields (headerFields msg)
  have hm : msg.length = (headerLines msg).flatten.length + (afterHeader msg).flatten.length := by
    rw [← length_append, ← flatten_append, headerLines, afterHeader, takeWhile_append_dropWhile, flatten_physicalLines]
  have hb : (afterHeader msg).flatten.length + gain ((afterHeader msg).headD []) =
      (afterHeader msg).tail.flatten.length + 2 := by
    have hh := head?_dropWhile_not (!isBlankLine ·) (physicalLines msg)
    rcases ha : afterHeader msg with _ | ⟨blank, rest⟩
    · rfl
    rw [← afterHeader, ha] at hh
    have hbl : blank = [carriageReturn, newline] ∨ blank = [newline] := by
      simpa [isBlankLine, ← or_iff_not_imp_left] using hh
    rcases hbl with rfl | rfl <;> simp [gain]
  rw [headerFields, flatMap_lines_groupFields, ← headerFields] at hf
  simp only [wholeSection, if_pos h, length_append, Pop3.crlf, length_cons, length_nil, gained, skipped]
  omega

end Header

section Sizes

variable {Envelope Structure Section : Type} (b : Box) (sessionKey : Option Bytes) (f : CaseMap)
  (lib : Library Envelope Structure Section) (whole : Section)

def sizeRequest : FetchRequest Section := ⟨false, false, true, false, false, false, [whole]⟩

def SizesAgree (server : Process) (mailbox : Bytes) : Prop :=
  ∀ clock set responses failed,
    (sessionManagerReader b sessionKey f).fetchAfterSelect lib (sizeRequest whole) clock set server mailbox =
      some (responses, failed) →
    ∀ response ∈ responses, ∀ size data,
      response.2 = [FetchItem.rfc822Size size, .bodySection whole data] → size = data.length

-- What is taken off when the message is opened.
def sealing (data : Bytes) : Nat :=
  if (b.unsealed sessionKey data).isSome then Deliver.publicKeySize + Deliver.nonceSize + Deliver.overhead else 0

-- The octets that the header gains make up for those that are taken off and skipped.
def SectionFits (m : Message) : Prop :=
  Readable (served b sessionKey m) ∧
    gained (served b sessionKey m) = sealing b sessionKey m.file.data + skipped (served b sessionKey m)

variable {b sessionKey f lib whole}

lemma fetchItems_sizeRequest (now : Time) (info : DatedInfo) (content : Bytes) :
    fetchItems lib (sizeRequest whole) now info content =
      [.rfc822Size (if info.size = 0 then content.length else info.size),
        .bodySection whole (lib.extractBodySection content whole)] := rfl

lemma length_served (m : Message) :
    (served b sessionKey m).length + sealing b sessionKey m.file.data = m.file.data.length :=
  b.decryptOrRaw_length sessionKey m.file.data

lemma size_eq_length_iff (m : Message) :
    (if m.file.data.length = 0 then (served b sessionKey m).length else m.file.data.length) =
        (wholeSection (served b sessionKey m)).length ↔ SectionFits b sessionKey m := by
  have hl := @length_served b sessionKey m
  unfold SectionFits
  by_cases hr : Readable (served b sessionKey m)
  · have hw := length_wholeSection hr
    simp only [hr, true_and]
    split_ifs <;> omega
  · have hne : (served b sessionKey m).length ≠ 0 := fun hn =>
      hr (eq_nil_of_length_eq_zero hn ▸ ⟨rfl, by simp [headerFields, headerLines, physicalLines, groupFields]⟩)
    refine iff_of_false ?_ fun h => hr h.1
    rw [wholeSection, if_neg hr, length_nil]
    split_ifs <;> omega

lemma sizesAgree_iff {server : Process} (hg : server.store.Good) {mailbox : Bytes} {loc : Loc}
    (hpa : folderOrInboxPath mailbox = .ok loc)
    (hw : ∀ content, lib.extractBodySection content whole = wholeSection content) :
    SizesAgree b sessionKey f lib whole server mailbox ↔
      ∀ m ∈ server.store.contents loc, SectionFits b sessionKey m := by
  have hs := sessionManagerReader_serves b sessionKey f hpa (server.store.contents loc)
  obtain ⟨p, st, e, e', hl, -, hnil⟩ | ⟨p, st, recentKeys, hl, -, hp, -⟩ :=
    list_cases b sessionKey f hg hpa fun _ _ => .zero
  · refine iff_of_true (fun clock set responses failed hf => ?_) (by simp [hnil])
    simp only [Reader.fetchAfterSelect, hl] at hf
    cases hf
  have hf : ∀ clock set, (sessionManagerReader b sessionKey f).fetchAfterSelect lib (sizeRequest whole) clock set
      server mailbox = some ((resolveNumSet (((server.store.contents loc).map (adapterInfo recentKeys)).map
        DatedInfo.toMessageInfo) set).filterMap (fun idx => (server.store.contents loc)[idx]?.map fun m =>
          (idx + 1, fetchItems lib (sizeRequest whole) (clock idx) (adapterInfo recentKeys m) (served b sessionKey m))),
        false) := by
    intro clock set
    simp only [Reader.fetchAfterSelect, hl]
    rw [hs.fetchLoop_eq lib (adapterInfo recentKeys) (fun _ => rfl) (sizeRequest whole) clock _ hp]
    rfl
  have hi : ∀ m ∈ server.store.contents loc, ∀ now size data,
      fetchItems lib (sizeRequest whole) now (adapterInfo recentKeys m) (served b sessionKey m) =
        [FetchItem.rfc822Size size, .bodySection whole data] →
      (size = data.length ↔ SectionFits b sessionKey m) := by
    intro m _ now size data heq
    rw [fetchItems_sizeRequest, hw] at heq
    cases heq
    exact size_eq_length_iff m
  constructor
  · intro ha m hm
    obtain ⟨idx, hidx⟩ := mem_iff_getElem?.mp hm
    have hlt := (List.getElem?_eq_some_iff.mp hidx).1
    refine (hi m hm .zero _ _ rfl).mp (ha (fun _ => .zero) (.seqDynamic fun _ => true) _ _ (hf _ _) _
      (mem_filterMap.mpr ⟨idx, ?_, by rw [hidx, Option.map_some]⟩) _ _ rfl)
    simpa [resolveNumSet] using hlt
  · intro hn clock set responses failed hc response hr size data heq
    rw [hf clock set, Option.some.injEq, Prod.mk.injEq] at hc
    obtain ⟨rfl, -⟩ := hc
    obtain ⟨idx, -, hidx⟩ := mem_filterMap.mp hr
    obtain ⟨m, hm, rfl⟩ := Option.map_eq_some_iff.mp hidx
    have hmem := mem_of_getElem? hm
    exact (hi m hmem _ _ _ heq).mpr (hn m hmem)

end Sizes

-- RETR sends a line without CRLF with one, and go-imap does so in the header.
theorem announced_sizes_iff {Envelope Structure Section : Type} {server : Process} (hgood : server.store.Good) (b : Box)
    (sessionKey : Option Bytes) (f : CaseMap) (lib : Library Envelope Structure Section) (whole : Section)
    (hwhole : ∀ content, lib.extractBodySection content whole = wholeSection content) :
    ((∀ s c, Pop3.initializeMailbox s server = (c, .ok ()) → Pop3.SizesAgree b sessionKey c) ∧
        ∀ mailbox loc, folderOrInboxPath mailbox = .ok loc → SizesAgree b sessionKey f lib whole server mailbox) ↔
      (∀ m ∈ server.store.contents .inbox,
        Pop3.addedOctets (served b sessionKey m) = sealing b sessionKey m.file.data) ∧
      ∀ mailbox loc, folderOrInboxPath mailbox = .ok loc → ∀ m ∈ server.store.contents loc,
        SectionFits b sessionKey m := by
  refine and_congr ?_ (forall_congr' fun mailbox => forall_congr' fun loc => forall_congr' fun hpa =>
    sizesAgree_iff hgood hpa hwhole)
  have hs (m : Message) : (Pop3.transmitted (b.decryptOrRaw sessionKey m.file.data)).length = m.file.data.length ↔
      Pop3.addedOctets (served b sessionKey m) = sealing b sessionKey m.file.data := by
    have hl := @length_served b sessionKey m
    rw [← served, Pop3.length_transmitted]
    omega
  constructor
  · intro hp m hm
    obtain ⟨c, hl⟩ := Pop3.login_exists hgood hm Pop3.newSession
    exact (hs m).mp (((Pop3.fresh_login hgood hl).sizesAgree_iff b sessionKey).mp (hp _ c hl) m hm)
  · intro hc s c hl
    exact ((Pop3.fresh_login hgood hl).sizesAgree_iff b sessionKey).mpr fun m hm => (hs m).mpr (hc m hm)

def openZeroTag (ciphertext _nonce _peerKey _privateKey : Bytes) : Option Bytes :=
  if hasPrefix (List.replicate Deliver.overhead 0) ciphertext then some (ciphertext.drop Deliver.overhead) else none

lemma openZeroTag_length (ciphertext nonce peerKey privateKey plain : Bytes)
    (h : openZeroTag ciphertext nonce peerKey privateKey = some plain) :
    ciphertext.length = plain.length + Deliver.overhead := by
  unfold openZeroTag at h
  split_ifs at h with ht
  have hpr := isPrefixOf_iff_prefix.mp ht
  have hle := hpr.length_le
  rw [length_replicate] at hle
  rw [← Option.some.inj h, length_drop]
  omega

def zeroTagBox : Box := ⟨openZeroTag, openZeroTag_length⟩

def sealedMessage (plain : Bytes) : Bytes :=
  List.replicate (Deliver.publicKeySize + Deliver.nonceSize + Deliver.overhead) 0 ++ plain

def sampleKey : Bytes := List.replicate Deliver.publicKeySize 0

def maildrop (data : Bytes) : Process where
  sess := ⟨[], [], []⟩
  store := { Pop3.oneMessage.store with
    disk := fun loc => match loc with
      | .inbox => some ⟨[⟨ascii "k1", data⟩], [], none, List.nodup_singleton _⟩
      | .folder _ => none }

lemma maildrop_good (data : Bytes) : (maildrop data).store.Good := by
  refine Store.good_of_inbox rfl (fun _ => rfl) (fun _ => rfl) (Folder.sound_of_no_uidlist rfl ?_ ?_)
  · show 1 + 1 < 2 ^ 32
    decide
  have hv : UidList.ValidKey (ascii "k1") := ⟨by decide, by decide, by decide, by decide⟩
  simpa [Folder.unseen, Folder.curDirKeys, NewFile.toCur] using hv

-- The libraries, with ParseDate as it is on the texts at hand.
def goLibrary (parseDate : Bytes → Option Time) : Library Unit Unit Unit where
  readHeader block := (readFields block).map headerGet
  parseDate := parseDate
  extractEnvelope content := (readFields content).map fun _ => ()
  extractBodyStructure _ := ()
  extractBodySection content _ := wholeSection content

-- No message with a Date is read.
def undatedLibrary : Library Unit Unit Unit := goLibrary fun _ => none

def bareMessage : Bytes := ascii "A: 1\n\nb\n"

def crlfMessage : Bytes := ascii "A: 1\r\n\r\nb\r\n"

-- RETR sends three octets more than LIST says of a message with bare LF, and BODY[] has two more than
-- RFC822.SIZE. Of an encrypted message both are 72 octets less.
theorem announced_size_differs :
    ((Pop3.list (Pop3.initializeMailbox Pop3.newSession (maildrop bareMessage)).1.sess []).lines =
        [Pop3.twoNumbers 1 8] ∧
      Pop3.sentSize zeroTagBox none (Pop3.initializeMailbox Pop3.newSession (maildrop bareMessage)).1 1 = 11 ∧
      (sessionManagerReader zeroTagBox none .asciiOnly).fetchAfterSelect undatedLibrary (sizeRequest ())
          (fun _ => .zero) (.seqDynamic fun _ => true) (maildrop bareMessage) inbox =
        some ([(1, [.rfc822Size 8, .bodySection () (ascii "A: 1\r\n\r\nb\n")])], false)) ∧
    (Pop3.list (Pop3.initializeMailbox Pop3.newSession (maildrop (sealedMessage crlfMessage))).1.sess []).lines =
        [Pop3.twoNumbers 1 83] ∧
      Pop3.sentSize zeroTagBox (some sampleKey)
        (Pop3.initializeMailbox Pop3.newSession (maildrop (sealedMessage crlfMessage))).1 1 = 11 ∧
      (sessionManagerReader zeroTagBox (some sampleKey) .asciiOnly).fetchAfterSelect undatedLibrary
          (sizeRequest ()) (fun _ => .zero) (.seqDynamic fun _ => true) (maildrop (sealedMessage crlfMessage)) inbox =
        some ([(1, [.rfc822Size 83, .bodySection () crlfMessage])], false) := by
  refine ⟨⟨by decide +kernel, by decide +kernel, ?_⟩, by decide +kernel, by decide +kernel, ?_⟩
  · rfl
  · rfl

lemma maildrop_contents (data : Bytes) (loc : Loc) :
    ∀ m ∈ (maildrop data).store.contents loc, m.file.data = data := by
  rcases loc with _ | name
  · intro m hm
    obtain rfl := mem_singleton.mp hm
    rfl
  · exact fun m hm => absurd hm not_mem_nil

theorem announced_sizes_iff_crlf :
    (∀ s c, Pop3.initializeMailbox s (maildrop crlfMessage) = (c, .ok ()) → Pop3.SizesAgree zeroTagBox none c) ∧
      ∀ mailbox loc, folderOrInboxPath mailbox = .ok loc →
        SizesAgree zeroTagBox none .asciiOnly undatedLibrary () (maildrop crlfMessage) mailbox := by
  refine (announced_sizes_iff (maildrop_good _) zeroTagBox none .asciiOnly undatedLibrary ()
    fun _ => rfl).mpr ⟨fun m hm => ?_, fun _ loc _ m hm => ?_⟩
  · have hs : served zeroTagBox none m = crlfMessage := maildrop_contents _ _ m hm
    rw [hs]
    exact (by decide : Pop3.addedOctets crlfMessage = 0)
  · have hs : served zeroTagBox none m = crlfMessage := maildrop_contents _ _ m hm
    have hg : gained crlfMessage = 0 ∧ skipped crlfMessage = 0 := by decide +kernel
    rw [SectionFits, hs, hg.1, hg.2]
    exact ⟨by decide +kernel, rfl⟩

end Maildancer.Imap

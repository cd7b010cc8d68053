import Maildancer.Pop3.Sizes

namespace Maildancer.Pop3

open List Text Maildir MailSession

-- A client behind the status line, with the bytes of the line under way: the lines
-- up to the one that is a single dot, and what is left in the stream after that.
def readLines (line : Bytes) : Bytes → Option (List Bytes × Bytes)
  | [] => none
  | b :: rest =>
    if b ≠ newline then readLines (line ++ [b]) rest
    else if line = ascii "." ++ [carriageReturn] then some ([], rest)
    else (readLines [] rest).map fun (lines, left) => (dropCR (trimPrefix (ascii ".") line) :: lines, left)

def clientReads (wire : Bytes) : Option (List Bytes × Bytes) :=
  (cut newline wire).bind fun (_, body) => readLines [] body

lemma readLines_line {word : Bytes} (h : newline ∉ word) (line rest : Bytes) :
    readLines line (word ++ newline :: rest) =
      if line ++ word = ascii "." ++ [carriageReturn] then some ([], rest)
      else (readLines [] rest).map fun (lines, left) =>
        (dropCR (trimPrefix (ascii ".") (line ++ word)) :: lines, left) := by
  induction word generalizing line with
  | nil => simp [readLines]
  | cons b word ih =>
    obtain ⟨hb, hw⟩ := not_or.mp (mt mem_cons.mpr h)
    rw [cons_append, readLines, if_pos (Ne.symm hb), ih hw, append_assoc, singleton_append]

lemma readLines_lines {lines : List Bytes} (h : ∀ line ∈ lines, newline ∉ line) (left : Bytes) :
    readLines [] ((lines.flatMap fun line => stuffLine line ++ crlf) ++ (ascii "." ++ crlf ++ left)) =
      some (lines, left) := by
  have hc : ∀ front rest : Bytes, front ++ crlf ++ rest = (front ++ [carriageReturn]) ++ newline :: rest := by
    simp [crlf]
  induction lines with
  | nil =>
    rw [flatMap_nil, nil_append, hc, readLines_line (by decide), nil_append, if_pos rfl]
  | cons line lines ih =>
    obtain ⟨hl, hli⟩ := forall_mem_cons.mp h
    have hs : newline ∉ stuffLine line ++ [carriageReturn] := by
      rw [mem_append, not_or]
      exact ⟨notMem_stuffLine hl, by decide⟩
    rw [flatMap_cons, append_assoc, hc, readLines_line hs, nil_append,
      if_neg (stuffLine_ne_dot line), ih hli, trimPrefix_stuffLine]
    simp [dropCR]

structure Response.OneLine (r : Response) : Prop where
  message : newline ∉ r.message
  lines : ∀ line ∈ r.lines, newline ∉ line

lemma clientReads_wire {r : Response} (h : r.OneLine) : clientReads r.wire = some (r.lines, []) ↔ r.lines ≠ [] := by
  obtain ⟨status, hs, hw⟩ := wire_eq h.message
  rw [clientReads, cut_eq_some.mpr ⟨hw, hs⟩]
  simp only [Option.bind_some]
  by_cases hn : r.lines = []
  · simp [hn, readLines]
  have hr := readLines_lines h.lines []
  rw [append_nil, ← append_assoc] at hr
  rw [if_neg hn, hr]
  simp [hn]

-- The commands that are answered +OK with lines.
def MultiLine (cmd : Command) : Prop :=
  match cmd.verb with
  | .list | .uidl => cmd.args = []
  | .retr | .top | .capa => True
  | _ => False

-- The content of the message with a number.
def contentOf (c : Connection) (arg : Bytes) : Option Bytes :=
  (atoi arg).bind fun msgNum => (c.sess.getMessage msgNum).toOption.bind fun info =>
    (MailboxServer.fetch c.server [] info.uid).2.toOption

-- The lines of a content, with the line under way: each ends with CRLF, CR or LF.
def contentLines (line : Bytes) : Bytes → List Bytes
  | [] => flushWord line
  | 13 :: 10 :: rest => line :: contentLines [] rest
  | b :: rest =>
    if b = carriageReturn ∨ b = newline then line :: contentLines [] rest else contentLines (line ++ [b]) rest

-- The lines up to the first empty one, which ends the header, and n more.
def headAndLines (n : Nat) (lines : List Bytes) : List Bytes :=
  let head := lines.takeWhile (· ≠ [])
  head ++ (lines.drop head.length).take (n + 1)

def intended (c : Connection) (cmd : Command) : List Bytes :=
  match cmd.verb, cmd.args with
  | .list, _ => c.sess.allMessages.map fun (info, n) => twoNumbers n info.size
  | .uidl, _ => c.sess.allMessages.map fun (info, n) => twoNumbers n info.uid
  | .retr, [arg] => contentLines [] ((contentOf c arg).getD [])
  | .top, [arg, count] => headAndLines ((atoi count).getD 0).toNat (scanLines ((contentOf c arg).getD [])).lines
  | .capa, _ => c.sess.capabilities
  | _, _ => []

-- A message is left that is not marked, or the one asked for is not empty.
def HasLines (c : Connection) (cmd : Command) : Prop :=
  match cmd.verb with
  | .list | .uidl => ∃ i < c.sess.messageList.length, i + 1 ∉ c.sess.deletedSet
  | .retr | .top => ∀ arg ∈ cmd.args.head?, contentOf c arg ≠ some []
  | _ => True

section Commands

variable {c : Connection} {args : List Bytes}

lemma newline_notMem_twoNumbers (first second : Nat) : newline ∉ twoNumbers first second := by
  simp only [twoNumbers, mem_append, mem_cons, not_or]
  exact ⟨notMem_decimal (by decide) first, by decide, notMem_decimal (by decide) second⟩

lemma allMessages_ne_nil_iff (s : Session) :
    s.allMessages ≠ [] ↔ ∃ i < s.messageList.length, i + 1 ∉ s.deletedSet := by
  rw [Session.allMessages, Ne, filter_eq_nil_iff]
  constructor
  · intro h
    by_contra hn
    refine h fun ⟨info, n⟩ he => ?_
    obtain ⟨hle, hi⟩ := mk_mem_zipIdx_iff_le_and_getElem?_sub.mp he
    have hlt := (List.getElem?_eq_some_iff.mp hi).1
    simpa using not_not.mp fun hd => hn ⟨n - 1, hlt, by rwa [Nat.sub_add_cancel hle]⟩
  · rintro ⟨i, hi, hd⟩ h
    have hm : (s.messageList[i], i + 1) ∈ s.messageList.zipIdx 1 :=
      mk_mem_zipIdx_iff_le_and_getElem?_sub.mpr ⟨by omega, by simp [hi]⟩
    simpa [hd] using h _ hm

lemma listing_framed {s : Session} (field : MessageInfo → Nat) {header : Bytes} (tooMany : String)
    (hh : newline ∉ header) (hok : (listing s [] field header tooMany).ok = true) :
    (listing s [] field header tooMany).OneLine ∧
      (listing s [] field header tooMany).lines = s.allMessages.map fun (info, n) => twoNumbers n (field info) := by
  unfold listing at hok ⊢
  split at hok
  · cases hok
  next hs =>
  rw [if_neg hs]
  refine ⟨⟨hh, fun line hl => ?_⟩, rfl⟩
  obtain ⟨⟨info, n⟩, -, rfl⟩ := mem_map.mp hl
  exact newline_notMem_twoNumbers n (field info)

lemma dropTrailingEmpty_split {line : Bytes} (h : newline ∉ line) (s : Bytes) :
    dropTrailingEmpty (split newline (line ++ s)) = rawLinesFrom line s := by
  induction s generalizing line with
  | nil =>
    rw [append_nil, split_of_notMem h, rawLinesFrom, flushWord, dropTrailingEmpty]
    by_cases hl : line = [] <;> simp [hl]
  | cons b s ih =>
    rw [rawLinesFrom]
    by_cases hb : b = newline
    · rw [if_pos hb, hb, split_append, split_of_notMem h, singleton_append,
        dropTrailingEmpty_cons line (split_ne_nil newline s)]
      exact congrArg (line :: ·) (@ih [] not_mem_nil)
    · rw [if_neg hb, append_cons, ih]
      simp [h, Ne.symm hb]

lemma splitMessageLines_eq_contentLines (content : Bytes) : splitMessageLines content = contentLines [] content := by
  have hc : ∀ line, contentLines line content = rawLinesFrom line (normalizeNewlines content) := by
    induction content using normalizeNewlines.induct with
    | case1 => exact fun _ => rfl
    | case2 rest ih =>
      intro line
      rw [contentLines, normalizeNewlines, rawLinesFrom, if_pos rfl, ih]
    | case3 b rest hn ih =>
      intro line
      rw [contentLines, normalizeNewlines, rawLinesFrom]
      · by_cases hr : b = carriageReturn
        · rw [if_pos (.inl hr), if_pos hr, if_pos rfl, ih]
        · simp only [hr, false_or, if_false, ih]
      · exact hn
      · exact hn
  rw [hc]
  exact dropTrailingEmpty_split not_mem_nil _

lemma retrieve_ok {msgNum : Int} {answer : MessageInfo → Bytes → Response}
    (hok : (retrieve c msgNum answer).2.ok = true) : ∃ info data, c.sess.getMessage msgNum = .ok info ∧
      (MailboxServer.fetch c.server [] info.uid).2 = .ok data ∧ (retrieve c msgNum answer).2 = answer info data := by
  unfold retrieve at hok ⊢
  rcases hg : c.sess.getMessage msgNum with e | info
  · rw [hg] at hok
    cases hok
  rw [hg] at hok
  rcases hf : MailboxServer.fetch c.server [] info.uid with ⟨server, e | data⟩
  · simp only [hf] at hok
    cases hok
  · exact ⟨info, data, rfl, by rw [hf], by simp only [hf]⟩

lemma retr_ok (hok : (retr c args).2.ok = true) : ∃ arg info data, args = [arg] ∧ contentOf c arg = some data ∧
    (retr c args).2 = .reply (decimal (MessageInfo.size info) ++ ascii " octets") (splitMessageLines data) := by
  unfold retr at hok ⊢
  split_ifs at hok ⊢
  · cases hok
  split at hok
  · next arg =>
    split at hok
    · cases hok
    · next msgNum hn =>
      obtain ⟨info, data, hg, hf, hr⟩ := retrieve_ok hok
      exact ⟨arg, info, data, rfl, by simp [contentOf, hn, hg, hf, Except.toOption], hr⟩
  · cases hok

lemma top_ok (hok : (top c args).2.ok = true) : ∃ arg count n data lines, args = [arg, count] ∧ atoi count = some n ∧
    contentOf c arg = some data ∧ extractTopLines data n.toNat = some lines ∧ (top c args).2 = .reply [] lines := by
  unfold top at hok ⊢
  split_ifs at hok ⊢
  · cases hok
  split at hok
  · next arg count =>
    split at hok
    · cases hok
    · cases hok
    next msgNum lineCount hn hc =>
    split_ifs at hok ⊢
    · cases hok
    obtain ⟨info, data, hg, hf, hr⟩ := retrieve_ok hok
    rw [hr] at hok ⊢
    rcases hl : extractTopLines data lineCount.toNat with _ | lines
    · rw [hl] at hok
      cases hok
    · exact ⟨arg, count, lineCount, data, lines, rfl, hc, by simp [contentOf, hn, hg, hf, Except.toOption], hl, rfl⟩
  · cases hok

lemma topLines_eq (n : Nat) (lines : List Bytes) : (topLines n lines).1 = headAndLines n lines := by
  induction lines using topLines.induct with
  | case1 => rfl
  | case2 rest => rfl
  | case3 line rest hne ih =>
    have hl : line ≠ [] := hne
    rw [topLines, ih]
    · simp [headAndLines, hl]
    · exact hne

lemma extractTopLines_eq {data : Bytes} {n : Nat} {lines : List Bytes} (h : extractTopLines data n = some lines) :
    lines = (topLines n (scanLines data).lines).1 := by
  unfold extractTopLines at h
  dsimp only at h
  split_ifs at h
  exact (Option.some.inj h).symm

lemma headAndLines_subset (n : Nat) (lines : List Bytes) : headAndLines n lines ⊆ lines := by
  refine append_subset.mpr ⟨(takeWhile_sublist _).subset, ?_⟩
  exact fun _ h => drop_subset _ _ (take_subset _ _ h)

lemma headAndLines_eq_nil_iff (n : Nat) (lines : List Bytes) : headAndLines n lines = [] ↔ lines = [] := by
  refine ⟨fun h => ?_, fun h => by rw [h]; rfl⟩
  obtain ⟨ht, hd⟩ := append_eq_nil_iff.mp h
  rw [ht] at hd
  simpa using hd

lemma rawLinesFrom_ne_nil {line data : Bytes} (h : line ++ data ≠ []) : rawLinesFrom line data ≠ [] := by
  induction data generalizing line with
  | nil => simpa [rawLinesFrom, flushWord] using h
  | cons b rest ih =>
    rw [rawLinesFrom]
    split_ifs
    · exact cons_ne_nil _ _
    · exact ih (by simp)

-- A first line that is too long is an error, so an answer without lines is that of an empty message.
lemma extractTopLines_nil {data : Bytes} {n : Nat} (h : extractTopLines data n = some []) : data = [] := by
  have hs := (headAndLines_eq_nil_iff n _).mp ((topLines_eq n _).symm.trans (extractTopLines_eq h).symm)
  by_contra hne
  have hraw : rawLinesFrom [] data ≠ [] := rawLinesFrom_ne_nil (by simpa using hne)
  obtain ⟨line, rest, hr⟩ := exists_cons_of_ne_nil hraw
  have hl : maxScanTokenSize ≤ line.length := by
    simpa [scanLines, hr, takeWhile_cons] using hs
  simp [extractTopLines, hs, topLines] at h
  simp [scanLines, hr, hl] at h

lemma capa_framed (s : Session) (hok : (capa s args).ok = true) :
    (capa s args).OneLine ∧ (capa s args).lines = s.capabilities ∧ (s.capabilities ≠ [] ↔ True) := by
  unfold capa at hok ⊢
  split_ifs at hok ⊢
  · cases hok
  · refine ⟨⟨show newline ∉ ascii "Capability list follows" by decide, ?_⟩, rfl, by simp [Session.capabilities]⟩
    simp only [Response.reply, Session.capabilities]
    split_ifs <;> decide

end Commands

lemma retr_framed {c : Connection} {args : List Bytes} (hok : (retr c args).2.ok = true) : (retr c args).2.OneLine ∧
    (retr c args).2.lines = intended c ⟨.retr, args⟩ ∧
    (intended c ⟨.retr, args⟩ ≠ [] ↔ HasLines c ⟨.retr, args⟩) := by
  obtain ⟨arg, info, data, rfl, hc, hr⟩ := retr_ok hok
  have hi : intended c ⟨.retr, [arg]⟩ = splitMessageLines data := by
    simp [intended, hc, splitMessageLines_eq_contentLines]
  rw [hr, hi]
  refine ⟨⟨?_, fun line hl => (mem_splitMessageLines hl).1⟩, rfl, ?_⟩
  · simp only [Response.reply, mem_append, not_or]
    exact ⟨notMem_decimal (by decide) _, by decide⟩
  · have hl := length_transmitted data
    simp only [HasLines, head?_cons, Option.mem_some_iff, forall_eq', hc, ne_eq, Option.some.injEq]
    refine not_congr ⟨fun hn => ?_, fun hn => by rw [hn]; rfl⟩
    rw [transmitted, hn, flatMap_nil, length_nil] at hl
    exact eq_nil_of_length_eq_zero (by omega)

lemma top_framed {c : Connection} {args : List Bytes} (hok : (top c args).2.ok = true) : (top c args).2.OneLine ∧
    (top c args).2.lines = intended c ⟨.top, args⟩ ∧
    (intended c ⟨.top, args⟩ ≠ [] ↔ HasLines c ⟨.top, args⟩) := by
  obtain ⟨arg, count, n, data, lines, rfl, hn, hc, hl, hr⟩ := top_ok hok
  have hi : intended c ⟨.top, [arg, count]⟩ = lines := by
    simp [intended, hc, hn, extractTopLines_eq hl, topLines_eq]
  rw [hr, hi]
  refine ⟨⟨not_mem_nil, fun line hli => ?_⟩, rfl, ?_⟩
  · rw [extractTopLines_eq hl, topLines_eq] at hli
    exact newline_notMem_scanLines (headAndLines_subset _ _ hli)
  · simp only [HasLines, head?_cons, Option.mem_some_iff, forall_eq', hc, ne_eq, Option.some.injEq]
    refine not_congr ⟨fun hn => extractTopLines_nil (hn ▸ hl), fun hn => ?_⟩
    rw [extractTopLines_eq hl, topLines_eq, headAndLines_eq_nil_iff, hn]
    rfl

lemma multiLine_framed (c : Connection) {cmd : Command} (hm : MultiLine cmd) (hok : (execute c cmd).2.ok = true) :
    (execute c cmd).2.OneLine ∧ (execute c cmd).2.lines = intended c cmd ∧ (intended c cmd ≠ [] ↔ HasLines c cmd) := by
  obtain ⟨verb, args⟩ := cmd
  cases verb with
  | list =>
    obtain rfl : args = [] := hm
    have hh : newline ∉ decimal c.sess.messageCount ++ ascii " messages (" ++ decimal c.sess.totalSize ++
        ascii " octets)" := by
      simp only [mem_append, not_or]
      exact ⟨⟨⟨notMem_decimal (by decide) _, by decide⟩, notMem_decimal (by decide) _⟩, by decide⟩
    obtain ⟨ho, hl⟩ := listing_framed MessageInfo.size "LIST command takes at most one argument" hh hok
    exact ⟨ho, hl, by simpa [intended, HasLines] using allMessages_ne_nil_iff c.sess⟩
  | uidl =>
    obtain rfl : args = [] := hm
    obtain ⟨ho, hl⟩ := listing_framed MessageInfo.uid "UIDL command takes at most one argument" not_mem_nil hok
    exact ⟨ho, hl, by simpa [intended, HasLines] using allMessages_ne_nil_iff c.sess⟩
  | retr => exact retr_framed hok
  | top => exact top_framed hok
  | capa => exact capa_framed c.sess hok
  | stls | user | pass | auth | quit | stat | dele | rset | noop => exact hm.elim

-- A client gets the lines, and nothing is left over for the next response, exactly
-- if there are lines: without any the line with the dot is not sent either.
theorem multiLine_framed_iff (c : Connection) {cmd : Command} (hmulti : MultiLine cmd)
    (hok : (execute c cmd).2.ok = true) :
    clientReads (execute c cmd).2.wire = some (intended c cmd, []) ↔ HasLines c cmd := by
  obtain ⟨ho, hl, hn⟩ := multiLine_framed c hmulti hok
  rw [← hn, ← hl]
  exact clientReads_wire ho

theorem multiLine_framed_iff_one_message :
    clientReads (execute (initializeMailbox newSession oneMessage).1 ⟨.list, []⟩).2.wire = some ([ascii "1 2"], []) ∧
      clientReads (execute (initializeMailbox newSession oneMessage).1 ⟨.retr, [ascii "1"]⟩).2.wire =
        some ([ascii "hi"], []) := by
  constructor
  · exact (multiLine_framed_iff (initializeMailbox newSession oneMessage).1 (show MultiLine ⟨.list, []⟩ from rfl)
      (by decide)).mpr ⟨0, by decide⟩
  · refine (multiLine_framed_iff (initializeMailbox newSession oneMessage).1
      (show MultiLine ⟨.retr, [ascii "1"]⟩ from trivial) (by decide +kernel)).mpr fun arg ha => ?_
    obtain rfl := Option.some.inj ha
    decide +kernel

-- LIST once the only message is marked: the client waits for a dot that never comes.
theorem empty_listing_unframed :
    (execute (run (initializeMailbox newSession oneMessage).1 [⟨.dele, [ascii "1"]⟩]) ⟨.list, []⟩).2.wire =
        ascii "+OK 0 messages (0 octets)" ++ crlf ∧
      clientReads
        (execute (run (initializeMailbox newSession oneMessage).1 [⟨.dele, [ascii "1"]⟩]) ⟨.list, []⟩).2.wire =
        none := by
  decide

end Maildancer.Pop3

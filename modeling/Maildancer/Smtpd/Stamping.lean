import Maildancer.Smtpd.Stripping
import Maildancer.Smtpd.TraceHeaders

namespace Maildancer.Smtpd

open List Text

variable {s now : Bytes} {b : UInt8} {i : Ingress} {info : ReceivedInfo}

lemma mem_of_mem_trimSpaceLeft {skip : Nat} (h : b ∈ trimSpaceLeft skip s) :
    b ∈ s := by
  induction s generalizing skip with
  | nil =>
    cases skip <;> exact absurd h not_mem_nil
  | cons c rest ih =>
    rcases skip with _ | skip
    · rw [trimSpaceLeft] at h
      split at h
      · exact h
      · exact mem_cons_of_mem _ (ih h)
    · exact mem_cons_of_mem _ (ih h)

lemma mem_of_mem_trimSpaceRight (h : b ∈ trimSpaceRight s) : b ∈ s := by
  induction s with
  | nil => exact h
  | cons c rest ih =>
    rw [trimSpaceRight] at h
    split_ifs at h
    · cases h
    · rcases mem_cons.mp h with rfl | h
      · exact mem_cons_self
      · exact mem_cons_of_mem _ (ih h)

lemma mem_of_mem_trimSpace (h : b ∈ trimSpace s) : b ∈ s :=
  mem_of_mem_trimSpaceLeft (mem_of_mem_trimSpaceRight h)

lemma newline_not_mem_sanitizeFieldValue (value : Bytes) : newline ∉ sanitizeFieldValue value := by
  intro h
  obtain ⟨b, -, hb⟩ := mem_filterMap.mp (mem_of_mem_trimSpace h)
  split_ifs at hb with hbr
  · exact absurd (Option.some.inj hb) (by decide)
  · rw [Option.some.inj hb] at hbr
    exact hbr (Or.inr rfl)

lemma newline_not_mem_sanitizeHeaderValue (value : Bytes) : newline ∉ sanitizeHeaderValue value := by
  intro h
  have hm := mem_of_mem_filter (mem_of_mem_trimSpace h)
  exact absurd rfl (of_decide_eq_true (mem_filter.mp hm).2).2

-- What is put together for a method keeps to one line and has no semicolon in it.
def Plain (text : Bytes) : Prop := ∀ b ∈ text, 32 ≤ b ∧ b ≠ 59

instance (text : Bytes) : Decidable (Plain text) := inferInstanceAs (Decidable (∀ b ∈ text, 32 ≤ b ∧ b ≠ 59))

lemma Plain.append {text more : Bytes} (h : Plain text) (hm : Plain more) : Plain (text ++ more) :=
  forall_mem_append.mpr ⟨h, hm⟩

lemma Plain.newline {text : Bytes} (h : Plain text) : newline ∉ text :=
  fun hm => absurd (h _ hm).1 (by decide)

lemma plain_sanitizeProperty (value : Bytes) : Plain (sanitizeProperty value) := by
  intro b hb
  have hk := of_decide_eq_true (mem_filter.mp (mem_of_mem_take hb)).2
  rw [not_or, not_or, UInt8.not_lt] at hk
  exact ⟨UInt8.le_trans (by decide) hk.1, hk.2.2⟩

lemma mem_replaceFirst {old new : Bytes} (h : b ∈ replaceFirst old new s) :
    b ∈ new ∨ b ∈ s := by
  induction s with
  | nil => cases h
  | cons c rest ih =>
    rw [replaceFirst] at h
    split_ifs at h
    · rcases mem_append.mp h with h | h
      · exact Or.inl h
      · exact Or.inr (mem_of_mem_drop h)
    rcases mem_cons.mp h with rfl | h
    · exact Or.inr mem_cons_self
    · rcases ih h with h | h
      · exact Or.inl h
      · exact Or.inr (mem_cons_of_mem _ h)

lemma plain_dkim {d : Bytes} (h : Plain d) : Plain (match cut 58 d with
      | none => ascii "header.d=" ++ d
      | some (domain, selector) => ascii "header.d=" ++ domain ++ ascii " " ++
          replaceFirst (ascii "s=") (ascii "header.s=") selector) := by
  have hn : Plain (ascii "header.d=") := by decide +kernel
  have hs : Plain (ascii "header.s=") := by decide +kernel
  split
  · exact hn.append h
  next domain selector hc =>
    obtain ⟨rfl, -⟩ := cut_eq_some.mp hc
    obtain ⟨hd, hse⟩ := forall_mem_append.mp h
    refine ((hn.append hd).append (by decide +kernel)).append fun b hb => ?_
    rcases mem_replaceFirst hb with hb | hb
    · exact hs b hb
    · exact hse b (mem_cons_of_mem _ hb)

lemma plain_propertyFor (method : Bytes) (options : List Bytes) (opts : CheckOptions) :
    Plain (propertyFor method options opts) := by
  have hnil : Plain [] := forall_mem_nil _
  have hf := plain_sanitizeProperty (firstOption options)
  have hn (name value : Bytes) (h : Plain name) : Plain (name ++ sanitizeProperty value) :=
    h.append (plain_sanitizeProperty value)
  unfold propertyFor
  simp only
  split_ifs
  · exact hn _ _ (by decide +kernel)
  · exact hn _ _ (by decide +kernel)
  · exact hnil
  · exact hnil
  · exact plain_dkim hf
  · exact hnil
  · exact hn _ _ (by decide +kernel)
  · exact hnil

lemma authMethods_plain : ∀ m ∈ authMethods, Plain m.method ∧ ∀ s ∈ m.symbols, Plain s.2 := by
  decide +kernel

lemma mem_of_evaluate {m : MethodMapping} {symbols : List (Bytes × List Bytes)} {result : Bytes}
    {options : List Bytes} (h : m.evaluate symbols = some (result, options)) :
    ∃ symbol ∈ m.symbols, symbol.2 = result := by
  obtain ⟨symbol, hs, hf⟩ := exists_of_findSome?_eq_some h
  obtain ⟨_, -, heq⟩ := Option.map_eq_some_iff.mp hf
  exact ⟨symbol, hs, (Prod.mk.inj heq).1⟩

lemma authClause_plain {r : RspamdResult} {opts : CheckOptions} {m : MethodMapping} {clause : Bytes}
    (hm : m ∈ authMethods) (h : authClause r opts m = some clause) : clause ≠ [] ∧ Plain clause := by
  obtain ⟨⟨result, options⟩, he, rfl⟩ := Option.map_eq_some_iff.mp h
  obtain ⟨symbol, hs, rfl⟩ := mem_of_evaluate he
  obtain ⟨hme, hr⟩ := authMethods_plain m hm
  have hp := plain_propertyFor m.method options opts
  refine ⟨by simp +decide, ((hme.append (by decide +kernel)).append (hr symbol hs)).append ?_⟩
  split_ifs
  · exact forall_mem_nil _
  · exact Plain.append (by decide +kernel) hp


lemma buildAuthResults_cases (fold : Folding) (r : RspamdResult) (opts : CheckOptions) :
    buildAuthResults fold r opts = [] ∨
      (∃ value, buildAuthResults fold r opts = sanitizeHeaderValue value) ∨
      ∃ parts, parts ≠ [] ∧ (∀ part ∈ parts, part ≠ [] ∧ newline ∉ part) ∧
        buildAuthResults fold r opts = (ascii ";\r\n\t").intercalate parts := by
  simp only [buildAuthResults]
  by_cases ha : sanitizeProperty opts.hostname = []
  · exact Or.inl (if_pos ha)
  rw [if_neg ha]
  split
  · next value hf =>
      obtain ⟨entry, -, rfl⟩ := mem_map.mp (mem_of_find?_eq_some hf)
      exact Or.inr (Or.inl ⟨entry.2, rfl⟩)
  by_cases hme : authMethods.filterMap (authClause r opts) = []
  · exact Or.inl (if_pos hme)
  rw [if_neg hme]
  refine Or.inr (Or.inr ⟨sanitizeProperty opts.hostname :: authMethods.filterMap _,
    cons_ne_nil _ _, fun part hp => ?_, (intercalate_cons_of_ne_nil hme).symm⟩)
  rcases mem_cons.mp hp with rfl | hp
  · exact ⟨ha, (plain_sanitizeProperty _).newline⟩
  · obtain ⟨m, hm, hs⟩ := mem_filterMap.mp hp
    exact (authClause_plain hm hs).imp_right Plain.newline

def Stamp (s : Bytes) : Prop := s = [] ∨ Block s

lemma Stamp.append {t : Bytes} (hs : Stamp s) (ht : Stamp t) : Stamp (s ++ t) := by
  rcases hs with rfl | hs
  · exact ht
  rcases ht with rfl | ht
  · rw [append_nil]
    exact Or.inr hs
  · exact Or.inr (hs.append ht)

lemma block_append_stamp {t : Bytes} (hs : Block s) (ht : Stamp t) : Block (s ++ t) := by
  rcases ht with rfl | ht
  · rwa [append_nil]
  · exact hs.append ht

lemma stamp_authResultsHeader (fold : Folding) (r : RspamdResult) (opts : CheckOptions) :
    Stamp (buildAuthResultsHeader (buildAuthResults fold r opts)) := by
  have hn : newline ∉ authResultsHeaderName ++ ascii ": " := by decide
  unfold buildAuthResultsHeader
  split_ifs with hnil
  · exact Or.inl rfl
  right
  obtain hno | ⟨value, hv⟩ | ⟨parts, hne, hp, hv⟩ := buildAuthResults_cases fold r opts
  · exact absurd hno hnil
  · rw [hv]
    apply block_line
    · simp +decide
    · rw [mem_append, not_or]
      exact ⟨hn, newline_not_mem_sanitizeHeaderValue value⟩
  · have hb := @block_intercalate parts _ (ascii ";") (ascii "\t") [] hne hp hn (by decide)
      (by decide) not_mem_nil
    rw [append_nil] at hb
    rw [hv]
    exact hb

lemma stamp_authResults (fold : Folding) (i : Ingress) : Stamp (i.authResults fold) := by
  unfold Ingress.authResults
  rcases i.checkResult with _ | report
  · exact Or.inl rfl
  simp only [SpamReport.authResults]
  cases hf : (report.results.map fun r =>
      buildAuthResults fold r ⟨i.sender, i.helo, i.hostname⟩).find? (· ≠ []) with
  | none => exact Or.inl rfl
  | some value =>
    obtain ⟨r, -, rfl⟩ := mem_map.mp (mem_of_find?_eq_some hf)
    exact stamp_authResultsHeader fold r _

lemma stamp_renderSpamHeader (headers : HeaderMap) (name : Bytes) :
    Stamp (renderSpamHeader headers name) := by
  unfold renderSpamHeader
  split
  · next _ _ _ value cleanName _ hc =>
      unfold sanitizeFieldName at hc
      split_ifs at hc with hn hb
      cases hc
      have hp : newline ∉ name := by
        intro hm
        apply hb
        rw [any_eq_true]
        exact ⟨newline, hm, by decide⟩
      right
      apply block_line
      · simp +decide
      · have hv := newline_not_mem_sanitizeFieldValue value
        simp +decide [hp, hv]
  · exact Or.inl rfl

lemma stamp_spamHeaders (i : Ingress) : Stamp i.spamHeaders := by
  have hn : ∀ (headers : HeaderMap) (names : List Bytes),
      Stamp (names.flatMap (renderSpamHeader headers)) := by
    intro headers names
    induction names with
    | nil => exact Or.inl rfl
    | cons name names ih => exact (stamp_renderSpamHeader headers name).append ih
  unfold Ingress.spamHeaders
  rcases i.checkResult with _ | report
  · exact Or.inl rfl
  simp only
  split_ifs
  · exact hn report.headers _
  · exact Or.inl rfl

-- The values that come from the client, the resolver and the configuration are
-- single lines: commands, host names and addresses are read as such.
structure Ingress.OneLine (i : Ingress) : Prop where
  helo : newline ∉ i.helo
  clientHostname : newline ∉ i.clientHostname
  clientIp : newline ∉ i.clientIp
  hostname : newline ∉ i.hostname
  tls : ∀ names ∈ i.tls, newline ∉ names.1 ∧ newline ∉ names.2
  recipients : ∀ rcpt ∈ i.recipients ++ i.remoteRecipients, newline ∉ rcpt
  msgid : newline ∉ i.msgid
  now : newline ∉ i.now

lemma receivedProto_plain (isTls authenticated : Bool) : newline ∉ receivedProto isTls authenticated := by
  cases isTls <;> cases authenticated <;> decide

lemma orUnknown_plain {name : Bytes} (h : newline ∉ name) : newline ∉ orUnknown name := by
  unfold orUnknown
  split_ifs
  · decide
  · exact h

lemma tlsComment_plain {tls : Option (Bytes × Bytes)}
    (h : ∀ names ∈ tls, newline ∉ names.1 ∧ newline ∉ names.2) : newline ∉ tlsComment tls := by
  rcases tls with _ | names
  · exact not_mem_nil
  · obtain ⟨hv, hc⟩ := h names rfl
    simp +decide [tlsComment, hv, hc]

lemma forRcpt_plain (h : i.OneLine) : newline ∉ i.forRcpt := by
  have hr := h.recipients
  unfold Ingress.forRcpt
  split
  · next rcpt hl hre => exact hr rcpt (by simp [hl])
  · next rcpt hl hre => exact hr rcpt (by simp [hre])
  · exact not_mem_nil

structure ReceivedInfo.OneLine (info : ReceivedInfo) : Prop where
  helo : newline ∉ info.helo
  clientHostname : newline ∉ info.clientHostname
  clientIp : newline ∉ info.clientIp
  hostname : newline ∉ info.hostname
  proto : newline ∉ info.proto
  tlsComment : newline ∉ info.tlsComment
  msgId : newline ∉ info.msgId
  forRcpt : newline ∉ info.forRcpt

lemma receivedLines_plain (h : info.OneLine) :
    ∀ line ∈ receivedLines info, line ≠ [] ∧ newline ∉ line := by
  intro line hl
  have hh := orUnknown_plain h.helo
  have hc := orUnknown_plain h.clientHostname
  simp only [receivedLines, mem_append, mem_cons, not_mem_nil, or_false] at hl
  rcases hl with (hl | hl) | hl
  · rcases hl with rfl | rfl
    · exact ⟨by simp +decide, by simp +decide [hh, hc, h.clientIp]⟩
    · exact ⟨by simp +decide, by simp +decide [h.hostname, h.proto, h.msgId]⟩
  · split_ifs at hl with hn
    · cases hl
    · rw [mem_singleton] at hl
      rw [hl]
      exact ⟨by simp +decide, by simp +decide [h.tlsComment]⟩
  · split_ifs at hl with hn
    · cases hl
    · rw [mem_singleton] at hl
      rw [hl]
      exact ⟨by simp +decide, by simp +decide [h.forRcpt]⟩

lemma block_buildReceivedHeader (h : info.OneLine)
    (hn : newline ∉ now) : Block (buildReceivedHeader info now) := by
  have hl : receivedLines info ≠ [] := by simp [receivedLines]
  have hf := @block_intercalate _ [] [] [] (ascii ";") hl (receivedLines_plain h)
    not_mem_nil not_mem_nil not_mem_nil (by decide)
  have hd : Block ((ascii "\t" ++ now) ++ ascii "\r\n") := by
    apply block_line
    · simp +decide
    · simp +decide [hn]
  have hb := hf.append hd
  have hs : ascii ";\r\n\t" = ascii ";" ++ ascii "\r\n" ++ ascii "\t" := rfl
  rw [buildReceivedHeader, hs]
  simpa only [nil_append, append_nil, append_assoc] using hb

lemma block_received (h : i.OneLine) : Block i.received :=
  block_buildReceivedHeader ⟨h.helo, h.clientHostname, h.clientIp, h.hostname, receivedProto_plain _ _,
    tlsComment_plain h.tls, h.msgid, forRcpt_plain h⟩ h.now

lemma block_buildForwardReceivedHeader {hostname original msgid : Bytes} (hh : newline ∉ hostname)
    (ho : newline ∉ original) (hm : newline ∉ msgid) (hn : newline ∉ now) :
    Block (buildForwardReceivedHeader hostname original msgid now) := by
  have hby : Block ((ascii "Received: by " ++ hostname ++ ascii " (forwarding for <" ++ original ++
      ascii ">)") ++ ascii "\r\n") := by
    apply block_line
    · simp +decide
    · simp +decide [hh, ho]
  have hid : Block ((ascii "\tid " ++ msgid ++ ascii ";") ++ ascii "\r\n") := by
    apply block_line
    · simp +decide
    · simp +decide [hm]
  have hd : Block ((ascii "\t" ++ now) ++ ascii "\r\n") := by
    apply block_line
    · simp +decide
    · simp +decide [hn]
  have hto : Block ((ascii "X-Original-To: " ++ original) ++ ascii "\r\n") := by
    apply block_line
    · simp +decide
    · simp +decide [ho]
  have ha := ((hby.append hid).append hd).append hto
  have hs : ascii ">)\r\n\tid " = ascii ">)" ++ ascii "\r\n" ++ ascii "\tid " := rfl
  have ht : ascii ";\r\n\t" = ascii ";" ++ ascii "\r\n" ++ ascii "\t" := rfl
  have hf : ascii "\r\nX-Original-To: " = ascii "\r\n" ++ ascii "X-Original-To: " := rfl
  rw [buildForwardReceivedHeader, hs, ht, hf]
  simpa only [append_assoc] using ha

lemma block_forwarded (h : i.OneLine) (hn : newline ∉ now) :
    Block (i.forwarded now) := by
  have ho : newline ∉ i.recipients.headD [] := by
    have hr := h.recipients
    cases hl : i.recipients with
    | nil => exact not_mem_nil
    | cons rcpt rcpts => exact hr rcpt (by simp [hl])
  exact (block_buildForwardReceivedHeader h.hostname ho h.msgid hn).append (block_received h)

def Route.OneLine : Route → Prop
  | .mailbox | .queue => True
  | .forwardMailbox now | .forwardQueue now => newline ∉ now

lemma block_headers (fold : Folding) {route : Route} (h : i.OneLine)
    (hr : route.OneLine) : Block (i.headers fold route) := by
  cases route with
  | mailbox =>
    apply block_append_stamp _ (stamp_spamHeaders i)
    exact block_append_stamp (block_received h) (stamp_authResults fold i)
  | queue => exact block_received h
  | forwardMailbox now => exact block_append_stamp (block_forwarded h hr) (stamp_authResults fold i)
  | forwardQueue now => exact block_forwarded h hr

lemma isFoldedContinuation_strip (fold : Folding) (msg hostname : Bytes) :
    isFoldedContinuation (stripAuthResults fold msg hostname) = isFoldedContinuation msg := by
  by_cases hh : hostname = []
  · rw [stripAuthResults, if_pos hh]
  rw [← foldedHead_headerFields, ← foldedHead_headerFields, headerFields_strip fold msg hh]
  exact foldedHead_filter _ fun f hf => unfolded_of_mem_tail hf

-- The fields stamped on a message stay as they are unless the message starts
-- with a folded line, which then continues the last of them.
theorem stamped_fields_iff (fold : Folding) {i : Ingress} {route : Route} (h : i.OneLine)
    (hroute : route.OneLine) (msg : Bytes) :
    (headerFields (messageBody fold i.hostname (i.headers fold route) msg)).map HeaderField.unfolded =
        (headerFields (i.headers fold route)).map HeaderField.unfolded ++
          (headerFields (stripAuthResults fold msg i.hostname)).map HeaderField.unfolded ↔
      isFoldedContinuation msg = false := by
  rw [messageBody, withHeaders, headerFields_block (block_headers fold h hroute),
    isFoldedContinuation_strip]

def sampleIngress : Ingress where
  sender := ascii "mallory@example.net"
  helo := ascii "example.net"
  clientHostname := []
  clientIp := ascii "192.0.2.1"
  hostname := sampleHost
  authUser := []
  tls := none
  recipients := [ascii "alice@example.org"]
  remoteRecipients := []
  msgid := ascii "00ff"
  now := ascii "Thu, 01 Jan 2026 00:00:00 +0000"
  checkResult := some ⟨[⟨[(ascii "R_SPF_FAIL", [])], []⟩], ⟨[], List.nodup_nil⟩⟩
  addHeaders := false

lemma sampleIngress_oneLine : sampleIngress.OneLine :=
  ⟨by decide, by decide, by decide, by decide, by decide, by decide, by decide, by decide⟩

-- The first line of the message becomes part of the verdict above it.
theorem folded_start_alters_verdict :
    ((headerFields (sampleIngress.headers Folding.asciiOnly .mailbox)).map HeaderField.unfolded).getLast? =
        some (ascii "Authentication-Results: mx.example.org;\tspf=fail smtp.mailfrom=example.net") ∧
      ((headerFields (messageBody Folding.asciiOnly sampleHost
          (sampleIngress.headers Folding.asciiOnly .mailbox) (ascii " dkim=pass\r\n\r\n"))).map
        HeaderField.unfolded).getLast? =
        some (ascii "Authentication-Results: mx.example.org;\tspf=fail smtp.mailfrom=example.net dkim=pass") ∧
      (headerFields (messageBody Folding.asciiOnly sampleHost
          (sampleIngress.headers Folding.asciiOnly .mailbox) (ascii " dkim=pass\r\n\r\n"))).map
        HeaderField.unfolded ≠
        (headerFields (sampleIngress.headers Folding.asciiOnly .mailbox)).map HeaderField.unfolded ++
          (headerFields (stripAuthResults Folding.asciiOnly (ascii " dkim=pass\r\n\r\n") sampleHost)).map
            HeaderField.unfolded := by
  rw [messageBody, withHeaders, stripAuthResults_eq _ _ (by decide)]
  decide +kernel

theorem stamped_fields_iff_sample : (headerFields (messageBody Folding.asciiOnly sampleIngress.hostname
          (sampleIngress.headers Folding.asciiOnly .mailbox) (ascii "Subject: hi\r\n\r\n"))).map
        HeaderField.unfolded =
      (headerFields (sampleIngress.headers Folding.asciiOnly .mailbox)).map HeaderField.unfolded ++
        (headerFields (stripAuthResults Folding.asciiOnly (ascii "Subject: hi\r\n\r\n")
          sampleIngress.hostname)).map HeaderField.unfolded ↔
      isFoldedContinuation (ascii "Subject: hi\r\n\r\n") = false :=
  @stamped_fields_iff Folding.asciiOnly _ .mailbox sampleIngress_oneLine trivial _

end Maildancer.Smtpd

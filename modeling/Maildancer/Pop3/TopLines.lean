import Maildancer.Imap.Sizes
import Maildancer.Pop3.Framing

namespace Maildancer.Pop3

open List Text MailSession

lemma topLines_all {n : Nat} {lines : List Bytes} (h : lines.length ≤ n) : topLines n lines = (lines, false) := by
  induction lines using topLines.induct with
  | case1 => rfl
  | case2 rest =>
    have hr : rest.length ≤ n := Nat.le_of_succ_le h
    simp [topLines, topBody, take_of_length_le hr, hr]
  | case3 line rest hne ih =>
    rw [topLines, ih (Nat.le_of_succ_le h)]
    exact hne

-- CR stands only where a line ends, and the scanner takes every line.
def Scannable (content : Bytes) : Prop :=
  ∀ line ∈ rawLinesFrom [] content, line.length < maxScanTokenSize ∧ carriageReturn ∉ dropCR line

lemma length_rawLinesFrom (acc content : Bytes) :
    (rawLinesFrom acc content).length ≤ content.length + acc.length := by
  induction content generalizing acc with
  | nil => cases acc <;> simp [rawLinesFrom, flushWord]
  | cons b content ih =>
    rw [rawLinesFrom]
    split
    · have hr := ih []
      simp only [length_cons, length_nil] at hr ⊢
      omega
    · have hr := ih (acc ++ [b])
      simp only [length_append, length_cons, length_nil] at hr ⊢
      omega

lemma normalizeNewlines_word {word : Bytes} (h : carriageReturn ∉ word) (rest : Bytes) :
    normalizeNewlines (word ++ rest) = word ++ normalizeNewlines rest := by
  induction word with
  | nil => rfl
  | cons b word ih =>
    obtain ⟨hb, hw⟩ := not_or.mp (mt mem_cons.mpr h)
    rw [cons_append, normalizeNewlines_cons fun hcr => hb hcr.1.symm, if_neg (Ne.symm hb), ih hw, cons_append]

lemma eq_or_eq_concat_dropCR (line : Bytes) : line = dropCR line ∨ line = dropCR line ++ [carriageReturn] := by
  unfold dropCR
  split
  · next hl =>
    obtain ⟨front, rfl⟩ := List.getLast?_eq_some_iff.mp hl
    exact .inr (by rw [dropLast_concat])
  · exact .inl rfl

lemma normalizeNewlines_line {line : Bytes} (h : carriageReturn ∉ dropCR line) (rest : Bytes) :
    normalizeNewlines (line ++ newline :: rest) = dropCR line ++ newline :: normalizeNewlines rest := by
  rcases eq_or_eq_concat_dropCR line with hl | hl
  · rw [← hl] at h ⊢
    rw [normalizeNewlines_word h]
    rfl
  · conv_lhs => rw [hl, append_assoc, normalizeNewlines_word h]
    rfl

-- Both ways to find lines agree as long as there is no CR inside of one.
lemma splitMessageLines_eq {acc content : Bytes} (ha : newline ∉ acc)
    (h : ∀ line ∈ rawLinesFrom acc content, carriageReturn ∉ dropCR line) :
    splitMessageLines (acc ++ content) = (rawLinesFrom acc content).map dropCR := by
  have hs : ∀ line : Bytes, newline ∉ line → split newline (dropCR line) = [dropCR line] := fun line hl =>
    split_of_notMem fun hm => hl (mem_of_mem_dropCR hm)
  induction content generalizing acc with
  | nil =>
    by_cases hnil : acc = []
    · rw [hnil]
      rfl
    simp only [rawLinesFrom, flushWord, if_neg hnil, mem_singleton, forall_eq] at h ⊢
    rw [splitMessageLines, append_nil]
    rcases eq_or_eq_concat_dropCR acc with hl | hl
    · have hn := normalizeNewlines_word h []
      rw [← hl, append_nil] at hn
      have hla : (split newline acc).getLast? ≠ some [] := by simpa [split_of_notMem ha] using hnil
      rw [hn, show normalizeNewlines [] = [] from rfl, append_nil, if_neg hla, split_of_notMem ha,
        map_singleton, ← hl]
    · have hn : normalizeNewlines acc = dropCR acc ++ [newline] := by
        conv_lhs => rw [hl, normalizeNewlines_word h]
        rfl
      rw [hn, split_append, hs acc ha]
      rfl
  | cons b content ih =>
    rw [rawLinesFrom] at h ⊢
    by_cases hb : b = newline
    · rw [if_pos hb] at h ⊢
      obtain ⟨hl, hli⟩ := forall_mem_cons.mp h
      rw [hb, splitMessageLines, normalizeNewlines_line hl, split_append, hs acc ha, map_cons,
        ← ih not_mem_nil hli]
      exact dropTrailingEmpty_cons _ (split_ne_nil _ _)
    · rw [if_neg hb] at h ⊢
      rw [← ih (by simp [ha, Ne.symm hb]) h, append_assoc, singleton_append]

lemma extractTopLines_short {content : Bytes} (h : (scanLines content).tooLong = false) (n : Nat) :
    extractTopLines content n = some (headAndLines n ((rawLinesFrom [] content).map dropCR)) := by
  rw [← scanLines_lines h, ← topLines_eq]
  simp [extractTopLines, h]

lemma extractTopLines_iff {content : Bytes} (hl : content.length < 2 ^ 63) :
    (∀ n < 2 ^ 63, extractTopLines content n = some (headAndLines n (splitMessageLines content))) ↔
      Scannable content := by
  constructor
  · intro ha
    have ht := ha content.length hl
    have hr : (rawLinesFrom [] content).length ≤ content.length := length_rawLinesFrom [] content
    have hs : (scanLines content).tooLong = false := by
      have hli : (scanLines content).lines.length ≤ content.length := by
        rw [scanLines, length_map]
        exact (takeWhile_sublist _).length_le.trans hr
      by_contra hlo
      simp [extractTopLines, topLines_all hli, hlo] at ht
    rw [extractTopLines_short hs, ← topLines_eq, ← topLines_eq, topLines_all (by simpa using hr)] at ht
    intro line hln
    have hsp : dropCR line ∈ splitMessageLines content := by
      refine headAndLines_subset content.length _ ?_
      rw [← topLines_eq, ← Option.some.inj ht]
      exact mem_map_of_mem hln
    refine ⟨Nat.lt_of_not_le fun hlo => ?_, (mem_splitMessageLines hsp).2⟩
    exact any_eq_false.mp hs line hln (decide_eq_true hlo)
  · intro hsc n _
    have hs : (scanLines content).tooLong = false :=
      any_eq_false.mpr fun line hln hlo =>
        absurd (hsc line hln).1 (Nat.not_lt.mpr (of_decide_eq_true hlo))
    rw [extractTopLines_short hs, ← splitMessageLines_eq not_mem_nil fun line hln => (hsc line hln).2,
      nil_append]

-- RETR and TOP for this number get the message.
structure Retrieved (c : Connection) (arg content : Bytes) : Prop where
  state : c.sess.state = .transaction
  found : ∃ msgNum info server, atoi arg = some msgNum ∧ c.sess.getMessage msgNum = .ok info ∧
    MailboxServer.fetch c.server [] info.uid = (server, .ok content)

lemma retr_ok_iff {c : Connection} {arg : Bytes} : (retr c [arg]).2.ok = true ↔ ∃ content, Retrieved c arg content := by
  constructor
  · intro hok
    unfold retr at hok
    split_ifs at hok with hs
    · cases hok
    dsimp only at hok
    split at hok
    · cases hok
    next msgNum hn =>
    unfold retrieve at hok
    split at hok
    · cases hok
    next info hi =>
    split at hok
    · cases hok
    · next server content hf => exact ⟨content, not_not.mp hs, msgNum, info, server, hn, hi, hf⟩
  · rintro ⟨content, hs, msgNum, info, server, hn, hi, hf⟩
    simp [retr, hs, hn, retrieve, hi, hf, Response.reply]

-- TOP gives the beginning of what RETR gives, for every number of lines, exactly if
-- the message is one that both split alike.
theorem top_prefix_of_retr_iff {c : Connection} {arg content : Bytes} (h : Retrieved c arg content)
    (hlength : content.length < 2 ^ 63) : (retr c [arg]).2.ok = true ∧
      ((∀ n < 2 ^ 63, (top c [arg, decimal n]).2 = .reply [] (headAndLines n (retr c [arg]).2.lines)) ↔
        Scannable content) := by
  refine ⟨retr_ok_iff.mpr ⟨content, h⟩, ?_⟩
  obtain ⟨hs, msgNum, info, server, hnu, hi, hf⟩ := h
  have hr : (retr c [arg]).2.lines = splitMessageLines content := by
    simp [retr, hs, hnu, retrieve, hi, hf, Response.reply]
  rw [hr, ← extractTopLines_iff hlength]
  refine forall₂_congr fun n hn => ?_
  have hc : ¬ (n : Int) < 0 := by omega
  rcases hl : extractTopLines content n with _ | lines
  · simp [top, hs, hnu, atoi_decimal hn, hc, retrieve, hi, hf, hl, Response.error, Response.reply]
  · simp [top, hs, hnu, atoi_decimal hn, hc, retrieve, hi, hf, hl, Response.reply]

section Sample

open Imap

theorem top_prefix_of_retr_iff_crlf :
    (retr (initializeMailbox newSession (maildrop (ascii "A: 1\r\n\r\nb\r\n"))).1 [ascii "1"]).2.lines =
        [ascii "A: 1", [], ascii "b"] ∧
      ∀ n < 2 ^ 63, (top (initializeMailbox newSession (maildrop (ascii "A: 1\r\n\r\nb\r\n"))).1
        [ascii "1", decimal n]).2 = .reply [] (headAndLines n [ascii "A: 1", [], ascii "b"]) := by
  have hr : (retr (initializeMailbox newSession (maildrop (ascii "A: 1\r\n\r\nb\r\n"))).1 [ascii "1"]).2.lines =
      [ascii "A: 1", [], ascii "b"] := by decide +kernel
  refine ⟨hr, hr ▸ (top_prefix_of_retr_iff ?_ (show (ascii "A: 1\r\n\r\nb\r\n").length < 2 ^ 63 by decide)).2.mpr ?_⟩
  · exact ⟨rfl, 1, ⟨1, [], 11, []⟩, _, by decide, by decide +kernel, rfl⟩
  · unfold Scannable
    decide +kernel

-- TOP takes the CRs that RETR takes for the ends of lines as bytes of one long line.
theorem lone_returns_split_apart :
    (retr (initializeMailbox newSession (maildrop (ascii "A: 1\r\rb"))).1 [ascii "1"]).2.lines =
        [ascii "A: 1", [], ascii "b"] ∧
      (top (initializeMailbox newSession (maildrop (ascii "A: 1\r\rb"))).1 [ascii "1", ascii "0"]).2 =
        .reply [] [ascii "A: 1\r\rb"] := by
  decide +kernel

end Sample

end Maildancer.Pop3

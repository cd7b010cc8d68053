import Maildancer.MailSession.Decrypting
import Maildancer.Pop3.Deletion
import Maildancer.Pop3.Transmission

namespace Maildancer.Pop3

open List Text Maildir MailSession

-- RETR where the mail-session process was given a session key.
def retrDecrypted (b : Box) (sessionKey : Option Bytes) (c : Connection) (args : List Bytes) : Connection × Response :=
  if c.sess.state ≠ .transaction then (c, invalidState)
  else match args with
    | [arg] =>
      match atoi arg with
      | none => (c, .error "Invalid message number")
      | some msgNum => retrieve c msgNum fun info data =>
        .reply (decimal info.size ++ ascii " octets") (splitMessageLines (b.decryptOrRaw sessionKey data))
    | _ => (c, .error "RETR command requires message number")

-- The octets that a client keeps of the answer to RETR.
def sentSize (b : Box) (sessionKey : Option Bytes) (c : Connection) (n : Nat) : Nat :=
  (received (retrDecrypted b sessionKey c [decimal n]).2.wire).length

def Announces (s : Session) (n size : Nat) : Prop :=
  twoNumbers n size ∈ (list s []).lines ∨ list s [decimal n] = .reply (twoNumbers n size) []

structure SizesAgree (b : Box) (sessionKey : Option Bytes) (c : Connection) : Prop where
  list : ∀ n size, Announces c.sess n size → sentSize b sessionKey c n = size
  stat : ∀ count total, stat c.sess [] = .reply (twoNumbers count total) [] →
    ((List.range count).map fun i => sentSize b sessionKey c (i + 1)).sum = total

lemma decimal_injective : Function.Injective decimal :=
  Function.LeftInverse.injective digitsValue_decimal

lemma notMem_decimal {b : UInt8} (h : isDigit b = false) (n : Nat) : b ∉ decimal n :=
  fun hb => Bool.false_ne_true (h.symm.trans (decimal_isDigit n b hb))

variable {n size : Nat} {s : Session} {server : Process} {m : Message}

lemma twoNumbers_inj {n' size' : Nat} (h : twoNumbers n size = twoNumbers n' size') : n = n' ∧ size = size' := by
  have hc : ∀ first second, cut space (twoNumbers first second) = some (decimal first, decimal second) := by
    intro first second
    exact cut_eq_some.mpr ⟨rfl, notMem_decimal (by decide) first⟩
  have hs := (hc n size).symm.trans ((congrArg (cut space) h).trans (hc n' size'))
  rw [Option.some.injEq, Prod.mk.injEq] at hs
  exact ⟨decimal_injective hs.1, decimal_injective hs.2⟩

def entry (m : Message) : MessageInfo := ⟨m.uid, [], m.file.data.length, []⟩

lemma login_messages (hg : server.store.Good) {c : Connection}
    (hl : initializeMailbox s server = (c, .ok ())) :
    c.sess.messageList = (server.store.contents .inbox).map entry := by
  obtain ⟨-, -, hm⟩ := MailboxServer.list_spec hg inboxPath
  unfold initializeMailbox at hl
  split at hl
  · cases hl
  rename_i server' msgs hc
  rw [hc] at hm
  obtain ⟨recentKeys, rfl⟩ := hm msgs rfl
  cases hl
  exact map_map

lemma login_exists (hg : server.store.Good)
    (hm : m ∈ server.store.contents .inbox) (s : Session) : ∃ c, initializeMailbox s server = (c, .ok ()) := by
  obtain ⟨d, hd⟩ := Store.disk_of_mem_contents hm
  obtain ⟨recentKeys, hl⟩ := MailboxServer.list_present hg inboxPath hd
  unfold initializeMailbox
  rcases hc : MailboxServer.list server [] with ⟨server', result⟩
  rw [hc] at hl
  obtain rfl := hl
  exact ⟨_, rfl⟩

section Maildrop

variable {msgs : List Message} {c : Connection}

-- The session right after a login.
structure Fresh (msgs : List Message) (c : Connection) : Prop where
  state : c.sess.state = .transaction
  marks : c.sess.deletedSet = []
  messages : c.sess.messageList = msgs.map entry
  good : c.server.store.Good
  contents : c.server.store.contents .inbox = msgs

lemma fresh_login (hg : server.store.Good)
    (hl : initializeMailbox s server = (c, .ok ())) : Fresh (server.store.contents .inbox) c := by
  have ha := active_login hg hl
  exact ⟨ha.state, ha.marks, login_messages hg hl, ha.good, congrFun ha.contents .inbox⟩

lemma Fresh.getMessage_ok (h : Fresh msgs c) {msgNum : Int} {info : MessageInfo} :
    c.sess.getMessage msgNum = .ok info ↔
      ∃ (i : Nat) (m : Message), msgs[i]? = some m ∧ msgNum = i + 1 ∧ info = entry m := by
  have hma : msgNum.toNat ∉ c.sess.deletedSet := by simp [h.marks]
  unfold Session.getMessage Session.checkNumber
  rw [h.messages, length_map]
  by_cases hb : msgNum < 1 ∨ (msgs.length : Int) < msgNum
  · rw [if_pos hb]
    constructor
    · exact fun hok => by cases hok
    · rintro ⟨i, m, hm, rfl, -⟩
      have hi := (List.getElem?_eq_some_iff.mp hm).1
      omega
  · have hi : msgNum.toNat - 1 < msgs.length := by omega
    have hf : (msgs.map entry)[msgNum.toNat - 1]? = some (entry msgs[msgNum.toNat - 1]) := by
      rw [List.getElem?_map, List.getElem?_eq_getElem hi, Option.map_some]
    rw [if_neg hb, if_neg hma]
    dsimp only
    rw [hf]
    constructor
    · intro hok
      exact ⟨msgNum.toNat - 1, _, List.getElem?_eq_getElem hi, by omega, (Except.ok.inj hok).symm⟩
    · rintro ⟨i, m, hm, rfl, rfl⟩
      rw [← (List.getElem?_eq_some_iff.mp hm).2]
      simp

lemma Fresh.allMessages (h : Fresh msgs c) : c.sess.allMessages = (msgs.map entry).zipIdx 1 := by
  unfold Session.allMessages
  rw [h.marks, h.messages]
  exact filter_eq_self.mpr fun _ _ => decide_eq_true not_mem_nil

lemma atoi_decimal (h : n < 2 ^ 63) : atoi (decimal n) = some (n : Int) :=
  atoi_decimalInt (n : Int) (by omega) (by omega)

lemma Fresh.announces_iff (h : Fresh msgs c) :
    Announces c.sess n size ↔ ∃ i m, msgs[i]? = some m ∧ n = i + 1 ∧ size = m.file.data.length := by
  constructor
  · rintro (hl | ho)
    · simp only [Pop3.list, listing, h.state, ne_eq, not_true_eq_false, if_false, Response.reply, h.allMessages,
        mem_map] at hl
      obtain ⟨⟨info, k⟩, he, ht⟩ := hl
      obtain ⟨rfl, rfl⟩ := twoNumbers_inj ht
      obtain ⟨hk, hi⟩ := mk_mem_zipIdx_iff_le_and_getElem?_sub.mp he
      rw [List.getElem?_map, Option.map_eq_some_iff] at hi
      obtain ⟨m, hm, rfl⟩ := hi
      exact ⟨k - 1, m, hm, by omega, rfl⟩
    · simp only [Pop3.list, listing, h.state, ne_eq, not_true_eq_false, if_false] at ho
      split at ho
      · cases ho
      split at ho
      · cases ho
      rename_i msgNum _ _ info hi
      obtain ⟨i, m, hm, rfl, rfl⟩ := h.getMessage_ok.mp hi
      have ht : twoNumbers (i + 1) (entry m).size = twoNumbers n size := congrArg Response.message ho
      obtain ⟨rfl, rfl⟩ := twoNumbers_inj ht
      exact ⟨i, m, hm, rfl, rfl⟩
  · rintro ⟨i, m, hm, rfl, rfl⟩
    refine .inl ?_
    simp only [Pop3.list, listing, h.state, ne_eq, not_true_eq_false, if_false, Response.reply, h.allMessages,
      mem_map]
    refine ⟨(entry m, i + 1), mk_mem_zipIdx_iff_le_and_getElem?_sub.mpr ⟨by omega, ?_⟩, rfl⟩
    rw [List.getElem?_map, Nat.add_sub_cancel, hm, Option.map_some]

lemma Fresh.sentSize (h : Fresh msgs c) (b : Box) (sessionKey : Option Bytes) {i : Nat}
    (hm : msgs[i]? = some m) :
    Pop3.sentSize b sessionKey c (i + 1) = (transmitted (b.decryptOrRaw sessionKey m.file.data)).length := by
  obtain ⟨hi, hg⟩ := List.getElem?_eq_some_iff.mp hm
  have hl := Store.contents_length_lt h.good .inbox
  rw [h.contents] at hl
  have hin := h.getMessage_ok.mpr ⟨i, m, hm, rfl, rfl⟩
  have hmem : m ∈ c.server.store.contents .inbox := h.contents ▸ hg ▸ getElem_mem hi
  have hf := MailboxServer.fetch_ok h.good inboxPath hmem
  have ha : (retrDecrypted b sessionKey c [decimal (i + 1)]).2 =
      .reply (decimal (entry m).size ++ ascii " octets")
        (splitMessageLines (b.decryptOrRaw sessionKey m.file.data)) := by
    have hn : ((i + 1 : Nat) : Int) = (i : Int) + 1 := by omega
    simp only [retrDecrypted, h.state, ne_eq, not_true_eq_false, if_false, atoi_decimal (show i + 1 < 2 ^ 63 by omega),
      hn, retrieve, hin]
    rcases hc : MailboxServer.fetch c.server [] (entry m).uid with ⟨server, result⟩
    have hr : (MailboxServer.fetch c.server [] (entry m).uid).2 = .ok m.file.data := hf
    rw [hc] at hr
    obtain rfl : result = .ok m.file.data := hr
    rfl
  unfold Pop3.sentSize
  rw [ha, received_wire]
  · rfl
  · simp only [Response.reply, mem_append, not_or]
    exact ⟨notMem_decimal (by decide) _, by decide⟩
  · exact fun line hli => (mem_splitMessageLines hli).1

lemma Fresh.stat_eq (h : Fresh msgs c) :
    Pop3.stat c.sess [] = .reply (twoNumbers msgs.length (msgs.map (·.file.data.length)).sum) [] := by
  have ht : ((msgs.map entry).zipIdx 1).map (·.1.size) = msgs.map (·.file.data.length) := by
    have hf := congrArg (List.map MessageInfo.size) (zipIdx_map_fst 1 (msgs.map entry))
    rw [map_map, map_map] at hf
    exact hf
  simp only [Pop3.stat, h.state, ne_eq, not_true_eq_false, if_false, Session.messageCount, Session.totalSize,
    h.allMessages, ht, length_zipIdx, length_map]

lemma Fresh.sizesAgree_iff (h : Fresh msgs c) (b : Box) (sessionKey : Option Bytes) :
    SizesAgree b sessionKey c ↔
      ∀ m ∈ msgs, (transmitted (b.decryptOrRaw sessionKey m.file.data)).length = m.file.data.length := by
  constructor
  · intro ha m hm
    obtain ⟨i, hi⟩ := mem_iff_getElem?.mp hm
    rw [← h.sentSize b sessionKey hi]
    exact ha.list _ _ (h.announces_iff.mpr ⟨i, m, hi, rfl, rfl⟩)
  · intro hs
    have hse : ∀ i m, msgs[i]? = some m → Pop3.sentSize b sessionKey c (i + 1) = m.file.data.length := by
      intro i m hi
      rw [h.sentSize b sessionKey hi]
      exact hs m (mem_of_getElem? hi)
    refine ⟨fun n size han => ?_, fun count total hst => ?_⟩
    · obtain ⟨i, m, hi, rfl, rfl⟩ := h.announces_iff.mp han
      exact hse i m hi
    rw [h.stat_eq] at hst
    obtain ⟨rfl, rfl⟩ := twoNumbers_inj (congrArg Response.message hst)
    congr 1
    refine ext_getElem (by simp) fun i _ hi => ?_
    rw [getElem_map, getElem_map, getElem_range]
    rw [length_map] at hi
    exact hse i msgs[i] (List.getElem?_eq_getElem hi)

end Maildrop

end Maildancer.Pop3

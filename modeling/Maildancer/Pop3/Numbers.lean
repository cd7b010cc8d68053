import Maildancer.Pop3.Deletion

namespace Maildancer.Pop3

open List Text Maildir MailSession

-- The loaded messages that are not marked, with their places in the loaded list.
def remaining (msgs : List MessageInfo) (marks : List Nat) : List (MessageInfo × Nat) :=
  (msgs.zipIdx 1).filter (·.2 ∉ marks)

def denotes (msgs : List MessageInfo) (marks : List Nat) (i : Int) : Option MessageInfo :=
  if 1 ≤ i ∧ i.toNat ∉ marks then msgs[i.toNat - 1]? else none

lemma mem_remaining {msgs : List MessageInfo} {marks : List Nat} {info : MessageInfo} {k : Nat} :
    (info, k) ∈ remaining msgs marks ↔ denotes msgs marks k = some info := by
  rw [remaining, mem_filter, mk_mem_zipIdx_iff_le_and_getElem?_sub, denotes, Option.ite_none_right_eq_some,
    Int.toNat_natCast, decide_eq_true_eq, and_right_comm]
  exact and_congr_left' (and_congr_left' Nat.one_le_cast.symm)

-- The store is asked for the message that a number denotes, and for no other.
def Asks (c : Connection) (found : Option MessageInfo) (out : Connection × Response) : Prop :=
  match found with
  | none => out = (c, .error "No such message")
  | some info => out.1 = { c with server := (MailboxServer.fetch c.server [] info.uid).1 } ∧
      (out.2.ok = true → (MailboxServer.fetch c.server [] info.uid).2.isOk = true)

structure Views (msgs : List MessageInfo) (marks : List Nat) (c : Connection) : Prop where
  total : stat c.sess [] =
    .reply (twoNumbers (remaining msgs marks).length ((remaining msgs marks).map (·.1.size)).sum) []
  listAll : (list c.sess []).ok = true ∧
    (list c.sess []).lines = (remaining msgs marks).map fun (info, k) => twoNumbers k info.size
  uidlAll : (uidl c.sess []).ok = true ∧
    (uidl c.sess []).lines = (remaining msgs marks).map fun (info, k) => twoNumbers k info.uid
  listOne : ∀ arg i, atoi arg = some i → list c.sess [arg] = (denotes msgs marks i).elim (.error "No such message")
    fun info => .reply (decimalInt i ++ space :: decimal info.size) []
  uidlOne : ∀ arg i, atoi arg = some i → uidl c.sess [arg] = (denotes msgs marks i).elim (.error "No such message")
    fun info => .reply (decimalInt i ++ space :: decimal info.uid) []
  retrOne : ∀ arg i, atoi arg = some i → Asks c (denotes msgs marks i) (retr c [arg])
  topOne : ∀ arg count i n, atoi arg = some i → atoi count = some n → 0 ≤ n →
    Asks c (denotes msgs marks i) (top c [arg, count])
  once : marks.Nodup
  deleted : (∀ k ∈ marks, 1 ≤ k ∧ k ≤ msgs.length) ∧
    c.sess.getDeletedUids.map some = marks.map fun k => (msgs[k - 1]?).map MessageInfo.uid

lemma getMessage_eq (s : Session) (i : Int) :
    (s.getMessage i).toOption = denotes s.messageList s.deletedSet i := by
  unfold Session.getMessage Session.checkNumber denotes
  by_cases hb : i < 1 ∨ (s.messageList.length : Int) < i
  · rw [if_pos hb]
    dsimp only [Except.toOption]
    split_ifs
    · exact (List.getElem?_eq_none (by omega)).symm
    · rfl
  · have hl : 1 ≤ i := by omega
    rw [if_neg hb]
    by_cases hm : i.toNat ∈ s.deletedSet
    · rw [if_pos hm, if_neg fun h => h.2 hm]
      rfl
    · rw [if_neg hm, if_pos ⟨hl, hm⟩]
      dsimp only
      split <;> next hg => rw [hg]; rfl

section Session

variable {c : Connection} {msgs : List MessageInfo} {marks : List Nat}

lemma markStep_nodup (n : Nat) (h : marks.Nodup) (cmd : Command) : (markStep n marks cmd).Nodup := by
  unfold markStep
  split
  · split
    · split_ifs with hn
      · exact nodup_cons.mpr ⟨hn.2.2, h⟩
      · exact h
    · exact h
  · exact nodup_nil
  · exact h

structure Loaded (msgs : List MessageInfo) (marks : List Nat) (c : Connection) : Prop where
  state : c.sess.state = .transaction
  messages : c.sess.messageList = msgs
  marked : c.sess.deletedSet = marks
  once : marks.Nodup
  bounds : ∀ k ∈ marks, 1 ≤ k ∧ k ≤ msgs.length

lemma Loaded.step (h : Loaded msgs marks c) {cmd : Command} (hq : cmd.verb ≠ .quit) :
    Loaded msgs (markStep msgs.length marks cmd) (execute c cmd).1 := by
  have hs := execute_sess h.state hq
  rw [h.messages, h.marked] at hs
  refine ⟨?_, ?_, ?_, markStep_nodup _ h.once cmd, markStep_bounds h.bounds cmd⟩
  all_goals rw [hs]
  · exact h.state
  · exact h.messages

lemma Loaded.run (h : Loaded msgs marks c) {cmds : List Command} (hq : ∀ cmd ∈ cmds, cmd.verb ≠ .quit) :
    Loaded msgs (cmds.foldl (markStep msgs.length) marks) (run c cmds) := by
  induction cmds generalizing c marks with
  | nil => exact h
  | cons cmd cmds ih =>
    exact ih (h.step (hq cmd mem_cons_self)) fun other ho =>
      hq other (mem_cons_of_mem _ ho)

variable (h : Loaded msgs marks c)
include h

lemma Loaded.allMessages : c.sess.allMessages = remaining msgs marks := by
  rw [Session.allMessages, h.messages, h.marked, remaining]

lemma Loaded.getMessage (i : Int) : (c.sess.getMessage i).toOption = denotes msgs marks i := by
  rw [getMessage_eq, h.messages, h.marked]

lemma Loaded.listing_one (field : MessageInfo → Nat) (header : Bytes) (tooMany : String) {arg : Bytes} {i : Int}
    (ha : atoi arg = some i) : listing c.sess [arg] field header tooMany =
      (denotes msgs marks i).elim (.error "No such message") fun info =>
        .reply (decimalInt i ++ space :: decimal (field info)) [] := by
  rw [← h.getMessage]
  simp only [listing, h.state, ne_eq, not_true_eq_false, if_false, ha]
  cases c.sess.getMessage i <;> rfl

lemma Loaded.asks (i : Int) (answer : MessageInfo → Bytes → Response) :
    Asks c (denotes msgs marks i) (retrieve c i answer) := by
  rw [← h.getMessage]
  unfold retrieve
  rcases c.sess.getMessage i with e | info
  · rfl
  dsimp only [Asks, Except.toOption]
  split
  · next hc => exact ⟨by rw [hc], fun hok => by cases hok⟩
  · next hc => exact ⟨by rw [hc], fun _ => by rw [hc]; rfl⟩

lemma Loaded.views : Views msgs marks c where
  total := by
    simp only [Pop3.stat, h.state, ne_eq, not_true_eq_false, if_false, Session.messageCount, Session.totalSize,
      h.allMessages]
  listAll := by
    simp [Pop3.list, listing, h.state, Response.reply, h.allMessages]
  uidlAll := by
    simp [Pop3.uidl, listing, h.state, Response.reply, h.allMessages]
  listOne _ _ harg := h.listing_one MessageInfo.size _ _ harg
  uidlOne _ _ harg := h.listing_one MessageInfo.uid _ _ harg
  retrOne arg i harg := by
    simp only [Pop3.retr, h.state, ne_eq, not_true_eq_false, if_false, harg]
    exact h.asks i _
  topOne arg count i n harg hc hn := by
    simp only [Pop3.top, h.state, ne_eq, not_true_eq_false, if_false, harg, hc, if_neg (Int.not_lt.mpr hn)]
    exact h.asks i _
  once := h.once
  deleted := by
    refine ⟨h.bounds, ?_⟩
    rw [Session.getDeletedUids, h.messages, h.marked, map_filterMap]
    refine filterMap_eq_map_iff_forall_eq_some.mpr fun k hk => ?_
    have hlt : k - 1 < msgs.length := by
      have hb := h.bounds k hk
      omega
    rw [List.getElem?_eq_getElem hlt]
    rfl

end Session

def threeMessages : Process where
  sess := ⟨[], [], []⟩
  store := {
    disk := fun loc => match loc with
      | .inbox => some
        ⟨[⟨ascii "k1", ascii "hi"⟩, ⟨ascii "k2", ascii "ho"⟩, ⟨ascii "k3", ascii "hum"⟩], [], none, by decide⟩
      | .folder _ => none
    deleted := fun _ => []
    cache := fun _ => none
    now := 7 }

-- RSET takes the first mark back, and a second DELE of one message is refused.
def markTwo : List Command :=
  [⟨.dele, [ascii "2"]⟩, ⟨.rset, []⟩, ⟨.dele, [ascii "1"]⟩, ⟨.list, []⟩, ⟨.dele, [ascii "3"]⟩, ⟨.dele, [ascii "3"]⟩]

end Maildancer.Pop3

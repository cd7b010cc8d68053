import Maildancer.MailSession.Calls
import Maildancer.Pop3

namespace Maildancer.Pop3

open List Text Maildir MailSession

-- The message numbers that DELE has marked and RSET has not released, in a maildrop of n messages.
def markStep (n : Nat) (marks : List Nat) (cmd : Command) : List Nat :=
  match cmd.verb, cmd.args with
  | .dele, [arg] =>
    match atoi arg with
    | some i => if 1 ≤ i ∧ i ≤ n ∧ i.toNat ∉ marks then i.toNat :: marks else marks
    | none => marks
  | .rset, [] => []
  | _, _ => marks

def pendingMarks (n : Nat) (cmds : List Command) : List Nat := cmds.foldl (markStep n) []

def unmarked (msgs : List Message) (marks : List Nat) : List Message :=
  ((msgs.zipIdx 1).filter (·.2 ∉ marks)).map Prod.fst

lemma markStep_bounds {n : Nat} {marks : List Nat} (h : ∀ i ∈ marks, 1 ≤ i ∧ i ≤ n) (cmd : Command) :
    ∀ i ∈ markStep n marks cmd, 1 ≤ i ∧ i ≤ n := by
  unfold markStep
  split
  · split
    · split_ifs with hb
      · intro i hi
        rcases mem_cons.mp hi with rfl | hi
        · omega
        · exact h i hi
      · exact h
    · exact h
  · simp
  · exact h

lemma pendingMarks_bounds (n : Nat) (cmds : List Command) : ∀ i ∈ pendingMarks n cmds, 1 ≤ i ∧ i ≤ n := by
  have hf : ∀ marks : List Nat, (∀ i ∈ marks, 1 ≤ i ∧ i ≤ n) →
      ∀ i ∈ cmds.foldl (markStep n) marks, 1 ≤ i ∧ i ≤ n := by
    induction cmds with
    | nil => exact fun _ h => h
    | cons cmd cmds ih => exact fun marks h => ih _ (markStep_bounds h cmd)
  exact hf [] (by simp)

lemma unmarked_eq_self_iff {msgs : List Message} {marks : List Nat}
    (h : ∀ i ∈ marks, 1 ≤ i ∧ i ≤ msgs.length) : unmarked msgs marks = msgs ↔ marks = [] := by
  constructor
  · intro heq
    have hl : ((msgs.zipIdx 1).filter (·.2 ∉ marks)).length = (msgs.zipIdx 1).length := by
      rw [length_zipIdx, ← congrArg List.length heq, unmarked, length_map]
    rw [length_filter_eq_length_iff] at hl
    rw [eq_nil_iff_forall_not_mem]
    intro i hi
    obtain ⟨hlo, hhi⟩ := h i hi
    have hg : msgs[i - 1]? = some msgs[i - 1] := List.getElem?_eq_getElem (by omega)
    have hm := mk_mem_zipIdx_iff_le_and_getElem?_sub.mpr ⟨hlo, hg⟩
    exact of_decide_eq_true (hl _ hm) hi
  · rintro rfl
    simp [unmarked, zipIdx_map_fst]

section Session

variable {base : Loc → List Message} {n : Nat} {marks : List Nat} {c : Connection}

structure Active (base : Loc → List Message) (n : Nat) (marks : List Nat) (c : Connection) : Prop where
  state : c.sess.state = .transaction
  count : c.sess.messageList.length = n
  marks : c.sess.deletedSet = marks
  good : c.server.store.Good
  contents : c.server.store.contents = base

lemma inboxPath : folderOrInboxPath (MailboxServer.folderOrInbox []) = .ok .inbox := by decide

-- RETR and TOP at most fetch a message.
def Fetches (c out : Connection) : Prop :=
  out = c ∨ ∃ uid, out = { c with server := (MailboxServer.fetch c.server [] uid).1 }

lemma Fetches.sess {out : Connection} (h : Fetches c out) : out.sess = c.sess := by
  obtain rfl | ⟨uid, rfl⟩ := h <;> rfl

lemma retrieve_fetches (c : Connection) (msgNum : Int) (answer : MessageInfo → Bytes → Response) :
    Fetches c (retrieve c msgNum answer).1 := by
  unfold retrieve
  split
  · exact .inl rfl
  · next info _ =>
    refine .inr ⟨info.uid, ?_⟩
    split <;> next hc => rw [hc]

lemma retr_fetches (c : Connection) (args : List Bytes) : Fetches c (retr c args).1 := by
  unfold retr
  split_ifs
  · exact .inl rfl
  split
  · split
    · exact .inl rfl
    · exact retrieve_fetches c _ _
  · exact .inl rfl

lemma top_fetches (c : Connection) (args : List Bytes) : Fetches c (top c args).1 := by
  unfold top
  split_ifs
  · exact .inl rfl
  split
  · split
    · exact .inl rfl
    · exact .inl rfl
    · split_ifs
      · exact .inl rfl
      · exact retrieve_fetches c _ _
  · exact .inl rfl

lemma markDeleted_session (s : Session) (i : Int) : (s.markDeleted i).1 = { s with deletedSet :=
      if 1 ≤ i ∧ i ≤ s.messageList.length ∧ i.toNat ∉ s.deletedSet then i.toNat :: s.deletedSet
      else s.deletedSet } := by
  unfold Session.markDeleted Session.checkNumber
  by_cases hb : i < 1 ∨ (s.messageList.length : Int) < i
  · have ho : ¬ (1 ≤ i ∧ i ≤ s.messageList.length ∧ i.toNat ∉ s.deletedSet) := by omega
    rw [if_pos hb, if_neg ho]
  rw [if_neg hb]
  by_cases hm : i.toNat ∈ s.deletedSet
  · rw [if_pos hm, if_neg fun hin => hin.2.2 hm]
  · have hin : 1 ≤ i ∧ i ≤ s.messageList.length ∧ i.toNat ∉ s.deletedSet := ⟨by omega, by omega, hm⟩
    rw [if_neg hm, if_pos hin]

lemma dele_session (s : Session) (hs : s.state = .transaction) (args : List Bytes) :
    (dele s args).1 = { s with deletedSet := markStep s.messageList.length s.deletedSet ⟨.dele, args⟩ } := by
  unfold dele
  rw [if_neg (not_not.mpr hs)]
  match args with
  | [] => rfl
  | _ :: _ :: _ => rfl
  | [arg] =>
    simp only [markStep]
    rcases atoi arg with _ | i
    · rfl
    · dsimp only
      rw [← markDeleted_session]
      split <;> simp_all

lemma rset_session (s : Session) (hs : s.state = .transaction) (args : List Bytes) :
    (rset s args).1 = { s with deletedSet := markStep s.messageList.length s.deletedSet ⟨.rset, args⟩ } := by
  unfold rset
  rw [if_neg (not_not.mpr hs)]
  match args with
  | [] => rfl
  | _ :: _ => rfl

variable {cmd : Command}

-- The numbers of a session and its marks are all that the commands change of it.
lemma execute_sess (hs : c.sess.state = .transaction) (hq : cmd.verb ≠ .quit) :
    (execute c cmd).1.sess =
      { c.sess with deletedSet := markStep c.sess.messageList.length c.sess.deletedSet cmd } := by
  obtain ⟨verb, args⟩ := cmd
  cases verb with
  | dele => exact dele_session c.sess hs args
  | rset => exact rset_session c.sess hs args
  | retr => exact (retr_fetches c args).sess
  | top => exact (top_fetches c args).sess
  | quit => exact absurd rfl hq
  | stat | list | uidl | noop | capa | stls | user | pass | auth => rfl

lemma execute_store (hg : c.server.store.Good) (hq : cmd.verb ≠ .quit) :
    (execute c cmd).1.server.store.Good ∧
      (execute c cmd).1.server.store.contents = c.server.store.contents := by
  have hf : ∀ {out}, Fetches c out →
      out.server.store.Good ∧ out.server.store.contents = c.server.store.contents := by
    rintro out (rfl | ⟨uid, rfl⟩)
    · exact ⟨hg, rfl⟩
    · exact MailboxServer.fetch_spec hg inboxPath uid
  obtain ⟨verb, args⟩ := cmd
  cases verb with
  | retr => exact hf (retr_fetches c args)
  | top => exact hf (top_fetches c args)
  | quit => exact absurd rfl hq
  | dele | rset | stat | list | uidl | noop | capa | stls | user | pass | auth => exact ⟨hg, rfl⟩

lemma Active.step (h : Active base n marks c) (hq : cmd.verb ≠ .quit) :
    Active base n (markStep n marks cmd) (execute c cmd).1 := by
  have hs := execute_sess h.state hq
  obtain ⟨hg, hc⟩ := execute_store h.good hq
  rw [h.count, h.marks] at hs
  refine ⟨?_, ?_, ?_, hg, hc.trans h.contents⟩
  all_goals rw [hs]
  · exact h.state
  · exact h.count

lemma Active.run (h : Active base n marks c) {cmds : List Command} (hq : ∀ cmd ∈ cmds, cmd.verb ≠ .quit) :
    Active base n (cmds.foldl (markStep n) marks) (run c cmds) := by
  induction cmds generalizing c marks with
  | nil => exact h
  | cons cmd cmds ih =>
    exact ih (h.step (hq cmd mem_cons_self)) fun other ho =>
      hq other (mem_cons_of_mem _ ho)

lemma deleteAll_store (server : Process) (uids : List Nat) :
    (deleteAll server uids).1.store = server.store := by
  induction uids generalizing server with
  | nil => rfl
  | cons uid uids ih =>
    simp only [deleteAll]
    split <;> exact ih _

lemma Active.quit (h : Active base n marks c) (hf : ∀ m ∈ base .inbox, ¬ m.trashed)
    (uids : List Nat) : (quit c [] uids).1.server.store.contents .inbox = base .inbox := by
  have hc : (commitDeletions c.server uids).1.store.contents .inbox = base .inbox := by
    unfold commitDeletions
    split_ifs
    · rw [h.contents]
    have hs := deleteAll_store c.server uids
    have hg := hs ▸ h.good
    obtain ⟨-, hco, -⟩ := MailboxServer.expunge_spec hg inboxPath
    rw [hs, h.contents, filter_eq_self.mpr fun m hm => decide_eq_true (hf m hm),
      Function.update_eq_self] at hco
    dsimp only
    split <;> rename_i hca <;> rw [hca] at hco <;> exact congrFun hco .inbox
  unfold Pop3.quit
  rw [if_neg (not_not.mpr rfl), h.state]
  dsimp only
  split <;> rename_i hca <;> rw [hca] at hc <;> exact hc

end Session

lemma active_login {s : Session} {server : Process} (hg : server.store.Good) {c : Connection}
    (hl : initializeMailbox s server = (c, .ok ())) :
    Active server.store.contents (server.store.contents .inbox).length [] c := by
  obtain ⟨hli, hc, hm⟩ := MailboxServer.list_spec hg inboxPath
  unfold initializeMailbox at hl
  split at hl
  · cases hl
  rename_i server' msgs hca
  rw [hca] at hli hc hm
  obtain ⟨recentKeys, rfl⟩ := hm msgs rfl
  cases hl
  exact ⟨rfl, by simp, rfl, hli, hc⟩

theorem quit_removes_marked_iff {s : Session} {server : Process} {c : Connection} {cmds : List Command}
    {uids : List Nat} (hgood : server.store.Good) (hflags : ∀ m ∈ server.store.contents .inbox, ¬ m.trashed)
    (hlogin : initializeMailbox s server = (c, .ok ())) (hcmds : ∀ cmd ∈ cmds, cmd.verb ≠ .quit) :
    uids.Perm (run c cmds).sess.getDeletedUids → (quit (run c cmds) [] uids).2.ok = true →
      ((quit (run c cmds) [] uids).1.server.store.contents .inbox =
          unmarked (server.store.contents .inbox)
            (pendingMarks (server.store.contents .inbox).length cmds) ↔
        pendingMarks (server.store.contents .inbox).length cmds = []) := by
  intro _ _
  rw [((active_login hgood hlogin).run hcmds).quit hflags, eq_comm]
  exact unmarked_eq_self_iff (pendingMarks_bounds _ cmds)

def newSession : Session := ⟨.authorization, true, false, [], []⟩

def oneMessage : Process where
  sess := ⟨[], [], []⟩
  store := {
    disk := fun loc => match loc with
      | .inbox => some ⟨[⟨ascii "k1", ascii "hi"⟩], [], none, by decide⟩
      | .folder _ => none
    deleted := fun _ => []
    cache := fun _ => none
    now := 7 }

lemma oneMessage_good : oneMessage.store.Good := by
  refine Store.good_of_inbox rfl (fun _ => rfl) (fun _ => rfl) (Folder.sound_of_no_uidlist rfl (by decide) ?_)
  have hv : UidList.ValidKey (ascii "k1") := ⟨by decide, by decide, by decide, by decide⟩
  simpa [Folder.unseen, Folder.curDirKeys, NewFile.toCur] using hv

-- DELE 1 and QUIT are both answered +OK and the message is still there.
theorem quit_keeps_marked_message :
    (execute (initializeMailbox newSession oneMessage).1 ⟨.dele, [ascii "1"]⟩).2.ok = true ∧
      (quit (run (initializeMailbox newSession oneMessage).1 [⟨.dele, [ascii "1"]⟩]) [] [1]).2.ok = true ∧
      unmarked (oneMessage.store.contents .inbox) (pendingMarks 1 [⟨.dele, [ascii "1"]⟩]) = [] ∧
      (quit (run (initializeMailbox newSession oneMessage).1 [⟨.dele, [ascii "1"]⟩]) []
        [1]).1.server.store.contents .inbox = [⟨1, ⟨ascii "k1", [], ascii "hi"⟩⟩] := by
  decide

theorem quit_removes_marked_iff_one_message :
    (quit (run (initializeMailbox newSession oneMessage).1 [⟨.dele, [ascii "1"]⟩]) []
          [1]).1.server.store.contents .inbox =
        unmarked (oneMessage.store.contents .inbox)
          (pendingMarks (oneMessage.store.contents .inbox).length [⟨.dele, [ascii "1"]⟩]) ↔
      pendingMarks (oneMessage.store.contents .inbox).length [⟨.dele, [ascii "1"]⟩] = [] :=
  quit_removes_marked_iff oneMessage_good (by decide) rfl (by decide) (by decide) (by decide)

end Maildancer.Pop3

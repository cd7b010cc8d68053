import Maildancer.Imap
import Maildancer.MailSession.Calls

namespace Maildancer.Imap

open Function List Text Maildir MailSession

def markDeleted (uids : List Nat) (m : Message) : Message :=
  if m.uid ∈ uids then ⟨m.uid, { m.file with flags := [.trashed] }⟩ else m

lemma markDeleted_uid (uids : List Nat) (m : Message) : (markDeleted uids m).uid = m.uid := by
  unfold markDeleted
  split <;> rfl

lemma map_markDeleted_nil (msgs : List Message) : msgs.map (markDeleted []) = msgs := by
  conv_rhs => rw [← map_id msgs]
  exact map_congr_left fun m _ => rfl

lemma setFlags_markDeleted (uids : List Nat) (uid : Nat) (m : Message) :
    (markDeleted uids m).setFlags uid (convertFlagsFromImap [.deleted]) = markDeleted (uids ++ [uid]) m := by
  have hf : infoFromFlags (convertFlagsFromImap [.deleted]).dedup = [.trashed] := by decide
  rcases eq_or_ne m.uid uid with rfl | hne
  · by_cases hm : m.uid ∈ uids <;> simp [Message.setFlags, markDeleted, hm, hf]
  · by_cases hm : m.uid ∈ uids <;> simp [Message.setFlags, markDeleted, hm, hne]

lemma trashed_markDeleted (uids : List Nat) (m : Message) :
    (markDeleted uids m).trashed ↔ m.trashed ∨ m.uid ∈ uids := by
  unfold markDeleted
  split_ifs with hm
  · simp [Message.trashed, hm]
  · simp [hm]

lemma filter_map_markDeleted (uids : List Nat) (msgs : List Message) :
    (msgs.map (markDeleted uids)).filter (¬ ·.trashed) = msgs.filter fun m => ¬ (m.trashed ∨ m.uid ∈ uids) := by
  rw [filter_map]
  simp only [comp_def, trashed_markDeleted]
  conv_rhs => rw [← map_id (List.filter _ msgs)]
  refine map_congr_left fun m hm => ?_
  have hn := of_decide_eq_true (mem_filter.mp hm).2
  simp only [not_or] at hn
  simp [markDeleted, hn.2]

section Loop

variable {mailbox : Bytes} {loc : Loc} {base : Loc → List Message}
  {queued : List Nat} {done : List (MessageInfo × Nat)} {s : Sweep}

-- A turn of the loop that expunges: the UID is in the set, the in-memory flags
-- say \Deleted and the store still has the message.
def Hits (uids : Option (Nat → Bool)) (stored : List Message) (entry : MessageInfo × Nat) : Prop :=
  uidsContain uids entry.1.uid ∧ ImapFlag.deleted ∈ entry.1.flags ∧ ∃ m ∈ stored, m.uid = entry.1.uid

instance (uids : Option (Nat → Bool)) (stored : List Message) : DecidablePred (Hits uids stored) :=
  fun _ => inferInstanceAs (Decidable (_ ∧ _ ∧ _))

structure Swept (base : Loc → List Message) (loc : Loc) (queued : List Nat)
    (done : List (MessageInfo × Nat)) (s : Sweep) : Prop where
  good : s.server.store.Good
  contents : s.server.store.contents =
    Function.update base loc ((base loc).map (markDeleted (done.map (·.1.uid))))
  queued : s.queued = queued ++ done.map Prod.snd
  any : s.anyExpunged = !done.isEmpty

lemma Swept.step (h : Swept base loc queued done s)
    (hp : folderOrInboxPath (MailboxServer.folderOrInbox (rpcFolder mailbox)) = .ok loc)
    (uids : Option (Nat → Bool)) (entry : MessageInfo × Nat) :
    Swept base loc queued (done ++ [entry].filter (Hits uids (base loc))) (expungeStep mailbox uids s entry) := by
  have hl : s.server.store.contents loc = (base loc).map (markDeleted (done.map (·.1.uid))) := by
    rw [h.contents, update_self]
  have hs : (∃ m ∈ s.server.store.contents loc, m.uid = entry.1.uid) ↔
      ∃ m ∈ base loc, m.uid = entry.1.uid := by
    simp [hl, exists_exists_and_eq_and, markDeleted_uid]
  unfold expungeStep
  by_cases hse : uidsContain uids entry.1.uid ∧ ImapFlag.deleted ∈ entry.1.flags
  · rw [if_pos hse]
    obtain ⟨server, e, hc, ha, hg, hsa⟩ | ⟨server, hc, hpr, hg, hco⟩ :=
      MailboxServer.setFlags_spec h.good hp entry.1.uid [.deleted]
    · have hmi : ¬ Hits uids (base loc) entry := by
        rintro ⟨-, -, hm⟩
        obtain ⟨m, hm, hu⟩ := hs.mpr hm
        exact ha m hm hu
      simp only [deleteMessage, hc, filter_singleton, hmi, decide_false, cond_false, append_nil]
      exact ⟨hg, hsa.trans h.contents, h.queued, h.any⟩
    · have hh : Hits uids (base loc) entry := ⟨hse.1, hse.2, hs.mp hpr⟩
      simp only [deleteMessage, hc, filter_singleton, hh, decide_true, cond_true]
      refine ⟨hg, ?_, by simp [h.queued], by simp⟩
      rw [hco, hl, h.contents, update_idem, map_map]
      congr 1
      refine map_congr_left fun m _ => ?_
      rw [comp_apply, setFlags_markDeleted, map_append, map_singleton]
  · rw [if_neg hse]
    have hmi : ¬ Hits uids (base loc) entry := fun hh => hse ⟨hh.1, hh.2.1⟩
    simpa [hmi] using h

lemma Swept.run (h : Swept base loc queued done s)
    (hp : folderOrInboxPath (MailboxServer.folderOrInbox (rpcFolder mailbox)) = .ok loc)
    (uids : Option (Nat → Bool)) (entries : List (MessageInfo × Nat)) :
    Swept base loc queued (done ++ entries.filter (Hits uids (base loc)))
      (entries.foldl (expungeStep mailbox uids) s) := by
  induction entries generalizing done s with
  | nil => simpa using h
  | cons entry entries ih =>
    have hr := ih (h.step hp uids entry)
    rwa [append_assoc, ← filter_append, singleton_append] at hr

end Loop

lemma path_rpcFolder {mailbox : Bytes} {loc : Loc} (hp : folderOrInboxPath mailbox = .ok loc) :
    folderOrInboxPath (MailboxServer.folderOrInbox (rpcFolder mailbox)) = .ok loc := by
  obtain ⟨-, hf, rfl⟩ | ⟨-, hf, -⟩ := path_cases hp
  · rw [rpcFolder, if_pos hf]
    decide
  have hne : mailbox ≠ [] := by
    rintro rfl
    cases hp
  rw [rpcFolder, hf, if_neg Bool.false_ne_true, MailboxServer.folderOrInbox, if_neg hne, hp]

section Exactness

variable {c : Connection} {loc : Loc} (uids : Option (Nat → Bool))

def hits (c : Connection) (uids : Option (Nat → Bool)) (stored : List Message) :
    List (MessageInfo × Nat) :=
  (c.sess.messages.zipIdx 1).reverse.filter (Hits uids stored)

lemma swept_sweepMessages (h : c.server.store.Good)
    (hp : folderOrInboxPath c.sess.selectedMailbox = .ok loc) :
    Swept c.server.store.contents loc c.sess.queuedExpunges (hits c uids (c.server.store.contents loc))
      (sweepMessages c uids) := by
  have hs : Swept c.server.store.contents loc c.sess.queuedExpunges []
      ⟨c.server, c.sess.queuedExpunges, false⟩ := by
    refine ⟨h, ?_, by simp, rfl⟩
    rw [map_nil, map_markDeleted_nil, update_eq_self]
  exact hs.run (path_rpcFolder hp) uids (c.sess.messages.zipIdx 1).reverse

lemma expunge_result (h : c.server.store.Good) (hp : folderOrInboxPath c.sess.selectedMailbox = .ok loc) :
    (expunge c uids).1.sess.queuedExpunges =
        c.sess.queuedExpunges ++ (hits c uids (c.server.store.contents loc)).map Prod.snd ∧
      (expunge c uids).1.server.store.contents = update c.server.store.contents loc
        (if hits c uids (c.server.store.contents loc) = [] then c.server.store.contents loc
        else (c.server.store.contents loc).filter fun m =>
          ¬ (m.trashed ∨ m.uid ∈ (hits c uids (c.server.store.contents loc)).map (·.1.uid))) := by
  have hr := path_rpcFolder hp
  have hs := swept_sweepMessages uids h hp
  simp only [expunge]
  generalize sweepMessages c uids = s at hs ⊢
  generalize hits c uids (c.server.store.contents loc) = done at hs ⊢
  rcases done with _ | ⟨entry, rest⟩
  · have ha : s.anyExpunged = false := hs.any
    simp only [ha, Bool.false_eq_true, ite_false, ite_true]
    refine ⟨hs.queued, ?_⟩
    rw [hs.contents, map_nil, map_markDeleted_nil]
  · have ha := hs.any
    have hc := (MailboxServer.expunge_spec hs.good hr).2.1
    rw [hs.contents, update_self, update_idem, filter_map_markDeleted] at hc
    have hg := (MailboxServer.expunge_spec hs.good hr).1
    simp only [ha, reduceCtorEq, ite_false, expungeMailbox, listMessages]
    rcases hca : MailboxServer.expunge s.server (rpcFolder c.sess.selectedMailbox) with ⟨server, result⟩
    rw [hca] at hc hg
    obtain ⟨-, hl, -⟩ := MailboxServer.list_spec hg hr
    cases result with
    | error e => exact ⟨hs.queued, hc⟩
    | ok expelled =>
      dsimp only
      cases hm : MailboxServer.list server (rpcFolder c.sess.selectedMailbox) with
      | mk server' msgs =>
        rw [hm] at hl
        cases msgs <;> exact ⟨hs.queued, hl.trans hc⟩

structure ExpungedExactly (uids : Option (Nat → Bool)) (loc : Loc) (c c' : Connection) : Prop where
  removed : c'.server.store.contents = Function.update c.server.store.contents loc
    ((c.server.store.contents loc).filter fun m => ¬ (m.trashed ∧ uidsContain uids m.uid))
  announced : ∃ queued, c'.sess.queuedExpunges = c.sess.queuedExpunges ++ queued ∧
    (queued.map fun seq => (c.sess.messages[seq - 1]?).map MessageInfo.uid).Perm
      (((c.server.store.contents loc).filter fun m => m.trashed ∧ uidsContain uids m.uid).map
        fun m => some m.uid)

-- The in-memory list tells which messages of the set carry \Deleted, and the
-- set reaches every \Deleted message of the folder unless it reaches none.
structure InStep (uids : Option (Nat → Bool)) (loc : Loc) (c : Connection) : Prop where
  current : ∀ m ∈ c.server.store.contents loc, uidsContain uids m.uid →
    (m.trashed ↔ ∃ info ∈ c.sess.messages, info.uid = m.uid ∧ ImapFlag.deleted ∈ info.flags)
  whole : (∃ m ∈ c.server.store.contents loc, m.trashed ∧ uidsContain uids m.uid) →
    ∀ m ∈ c.server.store.contents loc, m.trashed → uidsContain uids m.uid

lemma mem_hits {stored : List Message} {entry : MessageInfo × Nat} : entry ∈ hits c uids stored ↔
      (1 ≤ entry.2 ∧ c.sess.messages[entry.2 - 1]? = some entry.1) ∧ Hits uids stored entry := by
  rw [hits, mem_filter, mem_reverse, decide_eq_true_eq]
  exact and_congr_left' mk_mem_zipIdx_iff_le_and_getElem?_sub

lemma mem_uids_hits {stored : List Message} {uid : Nat} : uid ∈ (hits c uids stored).map (·.1.uid) ↔
      uidsContain uids uid ∧ (∃ info ∈ c.sess.messages, info.uid = uid ∧ ImapFlag.deleted ∈ info.flags) ∧
        ∃ m ∈ stored, m.uid = uid := by
  rw [mem_map]
  constructor
  · rintro ⟨entry, he, rfl⟩
    obtain ⟨⟨-, hg⟩, hset, hf, hs⟩ := (mem_hits uids).mp he
    exact ⟨hset, ⟨entry.1, mem_of_getElem? hg, rfl, hf⟩, hs⟩
  · rintro ⟨hset, ⟨info, hi, rfl, hf⟩, hs⟩
    obtain ⟨i, hg⟩ := mem_iff_getElem?.mp hi
    exact ⟨(info, i + 1), (mem_hits uids).mpr ⟨⟨by omega, hg⟩, hset, hf, hs⟩, rfl⟩

lemma uids_hits_nodup (hn : (c.sess.messages.map MessageInfo.uid).Nodup) (stored : List Message) :
    ((hits c uids stored).map (·.1.uid)).Nodup := by
  have ha : ((c.sess.messages.zipIdx 1).reverse.map (·.1.uid)).Nodup := by
    rw [map_reverse, nodup_reverse]
    have hf : (c.sess.messages.zipIdx 1).map (·.1.uid) = c.sess.messages.map MessageInfo.uid := by
      conv_rhs => rw [← zipIdx_map_fst 1 c.sess.messages]
      rw [map_map]
      rfl
    rwa [hf]
  exact ha.sublist (filter_sublist.map _)

lemma announced_uids_hits (stored : List Message) :
    ((hits c uids stored).map Prod.snd).map (fun seq => (c.sess.messages[seq - 1]?).map MessageInfo.uid) =
      ((hits c uids stored).map (·.1.uid)).map some := by
  rw [map_map, map_map]
  refine map_congr_left fun entry he => ?_
  obtain ⟨⟨-, hg⟩, -⟩ := (mem_hits uids).mp he
  simp [hg]

lemma hits_exact_iff (h : c.server.store.Good) :
    (∀ uid, uid ∈ (hits c uids (c.server.store.contents loc)).map (·.1.uid) ↔
        ∃ m ∈ c.server.store.contents loc, (m.trashed ∧ uidsContain uids m.uid) ∧ m.uid = uid) ↔
      ∀ m ∈ c.server.store.contents loc, uidsContain uids m.uid →
        (m.trashed ↔ ∃ info ∈ c.sess.messages, info.uid = m.uid ∧ ImapFlag.deleted ∈ info.flags) := by
  have hi := Store.contents_increasing h loc
  constructor
  · intro he m hm hs
    constructor
    · intro ht
      exact ((mem_uids_hits uids).mp ((he m.uid).mpr ⟨m, hm, ⟨ht, hs⟩, rfl⟩)).2.1
    intro hin
    obtain ⟨n, hn, ⟨ht, -⟩, hu⟩ :=
      (he m.uid).mp ((mem_uids_hits uids).mpr ⟨hs, hin, m, hm, rfl⟩)
    exact Folder.eq_of_uid hi hn hm hu ▸ ht
  · intro hc uid
    rw [mem_uids_hits]
    constructor
    · rintro ⟨hs, hin, m, hm, rfl⟩
      exact ⟨m, hm, ⟨(hc m hm hs).mpr hin, hs⟩, rfl⟩
    · rintro ⟨m, hm, ⟨ht, hs⟩, rfl⟩
      exact ⟨hs, (hc m hm hs).mp ht, m, hm, rfl⟩

lemma announced_iff (loc : Loc) (h : c.server.store.Good)
    (hn : (c.sess.messages.map MessageInfo.uid).Nodup) :
    (((hits c uids (c.server.store.contents loc)).map Prod.snd).map
        fun seq => (c.sess.messages[seq - 1]?).map MessageInfo.uid).Perm
      (((c.server.store.contents loc).filter fun m => m.trashed ∧ uidsContain uids m.uid).map
        fun m => some m.uid) ↔
    ∀ uid, uid ∈ (hits c uids (c.server.store.contents loc)).map (·.1.uid) ↔
      ∃ m ∈ c.server.store.contents loc, (m.trashed ∧ uidsContain uids m.uid) ∧ m.uid = uid := by
  have hr : (((c.server.store.contents loc).filter fun m =>
      m.trashed ∧ uidsContain uids m.uid).map Message.uid).Nodup :=
    pairwise_map.mpr (((Store.contents_increasing h loc).filter _).imp fun hlt => hlt.ne)
  have hs : (((c.server.store.contents loc).filter fun m => m.trashed ∧ uidsContain uids m.uid).map
      fun m => some m.uid) = (((c.server.store.contents loc).filter fun m =>
        m.trashed ∧ uidsContain uids m.uid).map Message.uid).map some := by
    rw [map_map]
    rfl
  rw [announced_uids_hits, hs, map_perm_map_iff (Option.some_injective _),
    perm_ext_iff_of_nodup (uids_hits_nodup uids hn _) hr]
  simp [and_assoc]

theorem expunge_exact_iff (h : c.server.store.Good) (hpath : folderOrInboxPath c.sess.selectedMailbox = .ok loc)
    (hnodup : (c.sess.messages.map MessageInfo.uid).Nodup) :
    ExpungedExactly uids loc c (expunge c uids).1 ↔ InStep uids loc c := by
  obtain ⟨hq, hc⟩ := expunge_result uids h hpath
  have ha := announced_iff uids loc h hnodup
  constructor
  · rintro ⟨hr, queued, han, hp⟩
    obtain rfl := append_cancel_left (hq.symm.trans han)
    have he := ha.mp hp
    refine ⟨(hits_exact_iff uids h).mp he, ?_⟩
    rintro ⟨m, hm, hd⟩ n hn ht
    have hs : hits c uids (c.server.store.contents loc) ≠ [] := by
      intro hni
      have hh := (he m.uid).mpr ⟨m, hm, hd, rfl⟩
      rw [hni] at hh
      cases hh
    have hk := congrFun (hc.symm.trans hr) loc
    rw [update_self, update_self, if_neg hs] at hk
    by_contra hse
    have hsu : n ∈ (c.server.store.contents loc).filter fun m =>
        ¬ (m.trashed ∧ uidsContain uids m.uid) :=
      mem_filter.mpr ⟨hn, decide_eq_true fun hb => hse hb.2⟩
    rw [← hk] at hsu
    exact of_decide_eq_true (mem_filter.mp hsu).2 (Or.inl ht)
  · rintro ⟨hcu, hw⟩
    have he := (hits_exact_iff uids h).mpr hcu
    refine ⟨hc.trans ?_, _, hq, ha.mpr he⟩
    congr 1
    split_ifs with hni
    · symm
      rw [filter_eq_self]
      intro m hm
      refine decide_eq_true fun hb => ?_
      have hh := (he m.uid).mpr ⟨m, hm, hb, rfl⟩
      rw [hni] at hh
      cases hh
    · refine filter_congr fun m hm => ?_
      congr 1
      rw [eq_iff_iff, he]
      refine not_congr ⟨?_, fun hb => Or.inl hb.1⟩
      obtain ⟨entry, hen⟩ := exists_mem_of_ne_nil _ hni
      obtain ⟨n, hn, hd, -⟩ := (he _).mp (mem_map_of_mem hen)
      rintro (ht | ⟨m', hm', hb, hu⟩)
      · exact ⟨ht, hw ⟨n, hn, hd⟩ m hm ht⟩
      · exact Folder.eq_of_uid (Store.contents_increasing h loc) hm' hm hu ▸ hb

end Exactness

def twoDeleted : Connection where
  sess := ⟨inbox, [⟨1, [], 2, [.deleted]⟩, ⟨2, [], 2, [.deleted]⟩], []⟩
  server := {
    sess := ⟨[], [], []⟩
    store := {
      disk := fun loc => match loc with
        | .inbox => some ⟨[], [⟨ascii "k1", [.trashed], ascii "hi"⟩, ⟨ascii "k2", [.trashed], ascii "yo"⟩],
            none, by decide⟩
        | .folder _ => none
      deleted := fun _ => []
      cache := fun _ => none
      now := 7 } }

lemma twoDeleted_good : twoDeleted.server.store.Good := by
  refine Store.good_of_inbox rfl (fun _ => rfl) (fun _ => rfl) (Folder.sound_of_no_uidlist rfl (by decide) ?_)
  have hv : UidList.ValidKey (ascii "k1") ∧ UidList.ValidKey (ascii "k2") :=
    ⟨⟨by decide, by decide, by decide, by decide⟩, ⟨by decide, by decide, by decide, by decide⟩⟩
  simpa [Folder.unseen, Folder.curDirKeys] using hv

-- UID EXPUNGE 1 removes the message with UID 2 as well.
theorem expunge_takes_other_uid :
    ¬ ExpungedExactly (some (· == 1)) .inbox twoDeleted (expunge twoDeleted (some (· == 1))).1 := by
  intro h
  have ha : (expunge twoDeleted (some (· == 1))).1.server.store.contents .inbox = [] := by decide
  have hb : ((twoDeleted.server.store.contents .inbox).filter fun m =>
      ¬ (m.trashed ∧ uidsContain (some (· == 1)) m.uid)) ≠ [] := by decide
  have hr := congrFun h.removed .inbox
  rw [ha, update_self] at hr
  exact hb hr.symm

theorem expunge_exact_of_all : ExpungedExactly none .inbox twoDeleted (expunge twoDeleted none).1 := by
  refine (expunge_exact_iff none twoDeleted_good (by decide) (by decide)).mpr ⟨by decide, ?_⟩
  exact fun _ _ _ _ => rfl

end Maildancer.Imap

import Maildancer.Imap.Expunge
import Maildancer.Imap.View
import Maildancer.MailSession.Moves
import Maildancer.MailSession.Watch

namespace Maildancer.Imap

open Text Maildir MailSession

def beside {α : Type} (n : Nat) (r : Process × Except RpcError α) : (Process × Nat) × Except RpcError α :=
  ((r.1, n), r.2)

-- The adapter of the session manager over one mail-session process. The counter
-- numbers the names of the files that copies get.
def sessionManagerStore (fresh : Nat → Bytes) : FolderStore (Process × Nat) RpcError where
  list s folder :=
    let (p, msgs) := MailboxServer.list s.1 folder
    beside s.2 (p, msgs.map (List.map fun m => { m with key := [] }))
  retrieve s folder uid := beside s.2 (MailboxServer.fetch s.1 folder uid)
  delete s folder uid := beside s.2 (MailboxServer.setFlags s.1 folder uid [.deleted])
  expunge s folder :=
    let (p, expelled) := MailboxServer.expunge s.1 folder
    beside s.2 (p, expelled.map fun _ => ())
  setFlags s folder uid flags := beside s.2 (MailboxServer.setFlags s.1 folder uid flags)
  copy s folder uid dest := beside (s.2 + 1) (MailboxServer.copy s.1 folder uid dest (fresh s.2))
  move := some fun s folder uid dest => beside (s.2 + 1) (MailboxServer.move s.1 folder uid dest (fresh s.2))

-- The i-th message that the tracker has announced and not expunged is the i-th message of the list.
def Selected.Coherent {σ : Type} (s : Selected σ) : Prop :=
  s.view.announced = s.view.messages.map MessageInfo.uid

def dropSeqNums {α : Type} (seqNums : List Nat) (l : List α) : List α :=
  seqNums.foldl (fun l n => l.eraseIdx (n - 1)) l

structure Descends (seqNums : List Nat) (length : Nat) : Prop where
  order : seqNums.Pairwise (· > ·)
  positive : ∀ n ∈ seqNums, 0 < n
  bound : ∀ n ∈ seqNums, n ≤ length

lemma Descends.tail {n : Nat} {rest : List Nat} {length : Nat} (h : Descends (n :: rest) length) :
    Descends rest (length - 1) := by
  obtain ⟨hf, ho⟩ := List.pairwise_cons.mp h.order
  refine ⟨ho, fun k hk => h.positive k (List.mem_cons_of_mem _ hk), fun k hk => ?_⟩
  have hlt := hf k hk
  have hle := h.bound n List.mem_cons_self
  omega

variable {α : Type} {seqNums : List Nat}

lemma descends_of_sublist {l : List α}
    (h : seqNums.Sublist ((l.zipIdx 1).reverse.map Prod.snd)) : Descends seqNums l.length := by
  rw [List.map_reverse, List.zipIdx_map_snd] at h
  have hm : ∀ n ∈ seqNums, 1 ≤ n ∧ n < 1 + l.length := by
    intro n hn
    have hr := List.mem_reverse.mp (h.subset hn)
    exact List.mem_range'_1.mp hr
  refine ⟨?_, fun n hn => (hm n hn).1, fun n hn => ?_⟩
  · apply List.Pairwise.sublist h
    rw [List.pairwise_reverse]
    exact List.pairwise_lt_range'
  · have hlt := (hm n hn).2
    omega

lemma length_eraseSeqNum {l : List α} {n : Nat} (hp : 0 < n) (hle : n ≤ l.length) :
    (l.eraseIdx (n - 1)).length = l.length - 1 := List.length_eraseIdx_of_lt (by omega)

lemma length_dropSeqNums {l : List α} (h : Descends seqNums l.length) :
    (dropSeqNums seqNums l).length + seqNums.length = l.length := by
  induction seqNums generalizing l with
  | nil => rfl
  | cons n rest ih =>
    have hp := h.positive n List.mem_cons_self
    have hle := h.bound n List.mem_cons_self
    have hl := length_eraseSeqNum hp hle
    have hr := ih (l := l.eraseIdx (n - 1)) (by rw [hl]; exact h.tail)
    have hf : dropSeqNums (n :: rest) l = dropSeqNums rest (l.eraseIdx (n - 1)) := rfl
    rw [hf, List.length_cons]
    omega

lemma map_dropSeqNums {β : Type} (f : α → β) (seqNums : List Nat) (l : List α) :
    (dropSeqNums seqNums l).map f = dropSeqNums seqNums (l.map f) := by
  induction seqNums generalizing l with
  | nil => rfl
  | cons n rest ih =>
    calc (dropSeqNums rest (l.eraseIdx (n - 1))).map f
        = dropSeqNums rest _ := ih _
      _ = dropSeqNums rest ((l.map f).eraseIdx (n - 1)) := by rw [List.eraseIdx_map]

lemma dropSeqNums_eq_filter {uids : List Nat} (hn : uids.Nodup) (h : Descends seqNums uids.length) :
    dropSeqNums seqNums uids = uids.filter fun uid => ∀ n ∈ seqNums, uids[n - 1]? ≠ some uid := by
  induction seqNums generalizing uids with
  | nil => simp [dropSeqNums]
  | cons n rest ih =>
    have hp := h.positive n List.mem_cons_self
    have hle := h.bound n List.mem_cons_self
    have hlt : n - 1 < uids.length := by omega
    have he : uids.eraseIdx (n - 1) = uids.filter fun uid => uids[n - 1]? ≠ some uid := by
      rw [← hn.erase_getElem (n - 1) hlt, hn.erase_eq_filter]
      refine List.filter_congr fun uid _ => ?_
      simp [List.getElem?_eq_getElem hlt, bne, beq_eq_decide, eq_comm]
    have hr := ih (hn.sublist (List.eraseIdx_sublist uids (n - 1))) (by
      rw [length_eraseSeqNum hp hle]
      exact h.tail)
    -- the smaller numbers stand for the same messages as before
    have hk : ∀ k ∈ rest, (uids.eraseIdx (n - 1))[k - 1]? = uids[k - 1]? := by
      intro k hk
      have hkn := List.rel_of_pairwise_cons h.order hk
      have hkp := h.positive k (List.mem_cons_of_mem _ hk)
      rw [List.getElem?_eraseIdx_of_lt (by omega)]
    calc dropSeqNums rest (uids.eraseIdx (n - 1))
        = (uids.eraseIdx (n - 1)).filter fun uid => ∀ k ∈ rest, uids[k - 1]? ≠ some uid := by
          rw [hr]
          refine List.filter_congr fun uid _ => decide_eq_decide.mpr (forall₂_congr fun k hm => ?_)
          rw [hk k hm]
      _ = uids.filter fun uid => ∀ k ∈ n :: rest, uids[k - 1]? ≠ some uid := by
          rw [he, List.filter_filter]
          refine List.filter_congr fun uid _ => ?_
          rw [← Bool.decide_and, decide_eq_decide, List.forall_mem_cons, and_comm]

lemma queueExpunges_eq {announced : List Nat} (h : Descends seqNums announced.length) :
    queueExpunges announced seqNums = some (dropSeqNums seqNums announced) := by
  induction seqNums generalizing announced with
  | nil => rfl
  | cons n rest ih =>
    have hp := h.positive n List.mem_cons_self
    have hle := h.bound n List.mem_cons_self
    have ho : queueExpunge announced n = some (announced.eraseIdx (n - 1)) := by
      rw [queueExpunge, if_neg (by omega)]
    have hr := @ih _ (by
      rw [length_eraseSeqNum hp hle]
      exact h.tail)
    rw [queueExpunges, List.foldlM_cons, ho]
    exact hr

section NumSets

variable {messages : List MessageInfo}

lemma uidIndex_eq_some {uid i : Nat} (h : uidIndex messages uid = some i) :
    ∃ m, messages[i]? = some m ∧ m.uid = uid := by
  obtain ⟨entry, hf, rfl⟩ := Option.map_eq_some_iff.mp h
  have hm := List.mem_reverse.mp (List.mem_of_find?_eq_some hf)
  refine ⟨entry.1, List.mem_zipIdx_iff_getElem?.mp hm, ?_⟩
  simpa using List.find?_some hf

lemma Numbers.nodup (set : Numbers) : set.nums.Nodup := set.sorted.imp fun hlt => Nat.ne_of_lt hlt

lemma nodup_resolveNumSet (set : NumSet) : (resolveNumSet messages set).Nodup := by
  cases set with
  | seq set =>
    refine List.Nodup.map_on (fun n hn k hk heq => ?_) set.nodup
    have hnp := set.positive n hn
    have hkp := set.positive k hk
    omega
  | seqDynamic contains => exact List.nodup_range.filter _
  | uid set =>
    refine List.Nodup.filterMap (fun uid other i hi ho => ?_) set.nodup
    obtain ⟨m, hm, rfl⟩ := uidIndex_eq_some hi
    obtain ⟨m', hm', rfl⟩ := uidIndex_eq_some ho
    rw [Option.some.inj (hm.symm.trans hm')]
  | uidDynamic contains =>
    have hp : (messages.zipIdx.map Prod.snd).Nodup := by
      rw [List.zipIdx_map_snd]
      exact List.nodup_range'
    exact (List.filter_sublist.map Prod.snd).nodup hp

lemma descends_namedSeqNums (v : View) (set : NumSet) : Descends (namedSeqNums v set) v.messages.length := by
  have hs : (((resolveNumSet v.messages set).insertionSort (· ≤ ·)).filter
      (· < v.messages.length)).Pairwise (· < ·) := by
    have hle := (List.pairwise_insertionSort (· ≤ ·) (resolveNumSet v.messages set)).filter (· < v.messages.length)
    have hno := ((List.perm_insertionSort (· ≤ ·) (resolveNumSet v.messages set)).symm.nodup
      (nodup_resolveNumSet set)).filter (· < v.messages.length)
    exact hle.imp₂ (fun _ _ hle hne => Nat.lt_of_le_of_ne hle hne) hno
  refine ⟨?_, fun n hn => ?_, fun n hn => ?_⟩
  · unfold namedSeqNums
    rw [List.pairwise_map, List.pairwise_reverse]
    exact hs.imp fun hlt => Nat.succ_lt_succ hlt
  · obtain ⟨i, -, rfl⟩ := List.mem_map.mp hn
    exact Nat.succ_pos i
  · obtain ⟨i, hi, rfl⟩ := List.mem_map.mp hn
    have hlt := (List.mem_filter.mp (List.mem_reverse.mp hi)).2
    exact Nat.succ_le_of_lt (of_decide_eq_true hlt)

end NumSets

section Steps

variable {σ ε : Type} {store : FolderStore σ ε} {cfg : LearnConfig}

def Shows (store : FolderStore σ ε) (server : σ) (v : View) (seqNums : List Nat) : Prop :=
  ∃ server' msgs, store.list server (rpcFolder v.selectedMailbox) = (server', .ok msgs) ∧
    msgs.map MessageInfo.uid = (dropSeqNums seqNums v.messages).map MessageInfo.uid

def ListFails (store : FolderStore σ ε) (server : σ) (v : View) : Prop :=
  ∃ server' e, store.list server (rpcFolder v.selectedMailbox) = (server', .error e)

-- What a step needs of any store, by what the store answers: the fresh list of Expunge and Move has no other
-- messages and lacks none than those the tracker was told about.
def Safe (store : FolderStore σ ε) (cfg : LearnConfig) (s : Selected σ) : Event σ → Prop
  | .expunge uids => (deleteFlagged store s uids).queued ≠ [] →
      ∃ server, store.expunge (deleteFlagged store s uids).server (rpcFolder s.view.selectedMailbox) =
          (server, .ok ()) ∧ Shows store server s.view (deleteFlagged store s uids).queued
  | .move set dest written => (movePart store cfg s set dest written).2 = true →
      Shows store (movePart store cfg s set dest written).1 s.view (namedSeqNums s.view set) ∨
        namedSeqNums s.view set = [] ∧ ListFails store (movePart store cfg s set dest written).1 s.view
  | _ => True

lemma queued_deleteStep (mailbox : Bytes) (uids : Option (Nat → Bool)) (entries : List (MessageInfo × Nat))
    (d : Deletions σ) : ∃ more, (entries.foldl (deleteStep store mailbox uids) d).queued = d.queued ++ more ∧
      more.Sublist (entries.map Prod.snd) := by
  induction entries generalizing d with
  | nil => exact ⟨[], (List.append_nil _).symm, List.Sublist.refl _⟩
  | cons entry entries ih =>
    obtain ⟨more, hm, hsub⟩ := ih _
    have ho : (deleteStep store mailbox uids d entry).queued = d.queued ∨
        (deleteStep store mailbox uids d entry).queued = d.queued ++ [entry.2] := by
      unfold deleteStep
      split_ifs
      · split
        · exact Or.inl rfl
        · exact Or.inr rfl
      · exact Or.inl rfl
    rcases ho with hs | ha
    · refine ⟨more, ?_, hsub.cons _⟩
      rw [List.foldl_cons, hm, hs]
    · refine ⟨entry.2 :: more, ?_, hsub.cons_cons _⟩
      rw [List.foldl_cons, hm, ha, List.append_assoc]
      rfl

lemma descends_deleteFlagged (s : Selected σ) (uids : Option (Nat → Bool)) :
    Descends (deleteFlagged store s uids).queued s.view.messages.length := by
  obtain ⟨more, hm, hs⟩ := @queued_deleteStep σ ε store s.view.selectedMailbox uids
    (s.view.messages.zipIdx 1).reverse ⟨s.server, []⟩
  rw [List.nil_append] at hm
  rw [deleteFlagged, hm]
  exact descends_of_sublist hs

lemma relist_coherent {server : σ} {v : View} (h : Descends seqNums v.messages.length) :
    (relist store server v (dropSeqNums seqNums (v.messages.map MessageInfo.uid))).Coherent ↔
      Shows store server v seqNums ∨ seqNums = [] ∧ ListFails store server v := by
  have hl := length_dropSeqNums (l := v.messages.map MessageInfo.uid) (by rw [List.length_map]; exact h)
  unfold relist Shows ListFails Selected.Coherent
  rw [map_dropSeqNums]
  rcases hli : store.list server (rpcFolder v.selectedMailbox) with ⟨server', result⟩
  rcases result with e | msgs
  · constructor
    · intro hc
      refine Or.inr ⟨List.eq_nil_of_length_eq_zero ?_, server', e, rfl⟩
      have heq := congrArg List.length hc
      dsimp only at heq
      omega
    · intro hs
      rcases hs with ⟨_, _, hok, -⟩ | ⟨rfl, -⟩
      · cases hok
      · rfl
  · constructor
    · intro hc
      exact Or.inl ⟨server', msgs, rfl, hc.symm⟩
    intro hs
    rcases hs with ⟨_, _, hok, hu⟩ | ⟨-, _, _, hf⟩
    · obtain rfl := Except.ok.inj (Prod.mk.inj hok).2
      exact hu.symm
    · cases hf

lemma setFlagsAt_uids (v : View) (idx : Nat) (flags : List ImapFlag) :
    (v.setFlagsAt idx flags).messages.map MessageInfo.uid = v.messages.map MessageInfo.uid := by
  apply List.ext_getElem?
  intro i
  simp only [View.setFlagsAt, List.getElem?_map, List.getElem?_modify]
  split <;> cases v.messages[i]? <;> rfl

lemma setFlagsAt_coherent {s : Selected σ} (h : s.Coherent) (server : σ) (idx : Nat) (flags : List ImapFlag) :
    (⟨server, s.view.setFlagsAt idx flags⟩ : Selected σ).Coherent := by
  rw [Selected.Coherent, setFlagsAt_uids]
  exact h

lemma storeLoop_coherent {s : Selected σ} (h : s.Coherent) (flags : StoreFlags) (writes : Nat → Bool)
    (indices : List Nat) : (storeLoop store flags writes indices s).Coherent := by
  induction indices generalizing s with
  | nil => exact h
  | cons idx rest ih =>
    unfold storeLoop
    split
    · exact ih h
    dsimp only
    split
    · exact h
    · split_ifs
      · exact ih (setFlagsAt_coherent h _ _ _)
      · exact setFlagsAt_coherent h _ _ _

lemma fetchMessage_coherent {s : Selected σ} (h : s.Coherent) (opts : FetchOptions) (info : MessageInfo) :
    (fetchMessage store opts s info).1.Coherent := by
  unfold fetchMessage
  split
  · exact h
  split_ifs
  · unfold markSeen
    split_ifs
    · exact h
    · exact setFlagsAt_coherent h _ _ _
  · exact h

lemma fetchLoop_coherent {s : Selected σ} (h : s.Coherent) (opts : FetchOptions) (writes : Nat → Bool)
    (indices : List Nat) : (fetchLoop store opts writes indices s).Coherent := by
  induction indices generalizing s with
  | nil => exact h
  | cons idx rest ih =>
    unfold fetchLoop
    split
    · exact ih h
    next info _ =>
      have hf := @fetchMessage_coherent σ ε store _ h opts info
      split
      · next s' e heq =>
          rw [heq] at hf
          exact hf
      next s' heq =>
        rw [heq] at hf
        split_ifs
        · exact ih hf
        · exact hf

lemma idleNotified_coherent {s : Selected σ} (h : s.Coherent) (payload : Bytes) :
    ∃ t, idleNotified store cfg s payload = some t ∧ t.Coherent := by
  unfold idleNotified
  split_ifs
  · split
    · exact ⟨_, rfl, h⟩
    next server all _ =>
      dsimp only
      split_ifs
      · exact ⟨_, rfl, h⟩
      have hl : s.view.announced.length = s.view.messages.length := by
        rw [h, List.length_map]
      rw [queueNumMessages, if_neg (by rw [List.length_append]; omega)]
      refine ⟨_, rfl, ?_⟩
      show s.view.announced ++ _ = _
      rw [hl, List.drop_left, List.map_append, h]
  · exact ⟨_, rfl, h⟩

lemma expungeMessages_coherent {s : Selected σ} (h : s.Coherent) (uids : Option (Nat → Bool)) :
    ∃ t, expungeMessages store s uids = some t ∧ (t.Coherent ↔ Safe store cfg s (.expunge uids)) := by
  have hd := @descends_deleteFlagged σ ε store s uids
  have hq := @queueExpunges_eq (deleteFlagged store s uids).queued s.view.announced (by
    rw [h, List.length_map]
    exact hd)
  unfold expungeMessages
  dsimp only
  rw [hq]
  refine ⟨_, rfl, ?_⟩
  dsimp only [Safe]
  split_ifs with hn
  · exact iff_of_true h fun hne => absurd hn hne
  simp only [ne_eq, hn, not_false_eq_true, forall_const]
  rw [h]
  split
  · next server e he =>
      refine iff_of_false (fun hc => ?_) fun hok => ?_
      · have hl := length_dropSeqNums (l := s.view.messages.map MessageInfo.uid) (by
          rw [List.length_map]
          exact hd)
        have heq := congrArg List.length hc
        have hp := List.length_pos_of_ne_nil hn
        dsimp only at heq
        omega
      · obtain ⟨_, hok, -⟩ := hok
        rw [he] at hok
        cases (Prod.mk.inj hok).2
  · next server he =>
      rw [relist_coherent hd, he]
      constructor
      · intro hs
        exact ⟨server, rfl, hs.resolve_right fun hnil => hn hnil.1⟩
      intro hok
      obtain ⟨_, heq, hs⟩ := hok
      obtain ⟨rfl, -⟩ := Prod.mk.inj heq
      exact Or.inl hs

lemma moveMessages_coherent {s : Selected σ} (h : s.Coherent) (set : NumSet) (dest : Bytes) (written : Bool) :
    ∃ t, moveMessages store cfg s set dest written = some t ∧
      (t.Coherent ↔ Safe store cfg s (.move set dest written)) := by
  have hd := descends_namedSeqNums s.view set
  have hq := @queueExpunges_eq _ s.view.announced (by
    rw [h, List.length_map]
    exact hd)
  unfold moveMessages
  dsimp only [Safe]
  rcases hp : movePart store cfg s set dest written with ⟨server, through⟩
  rcases through with _ | _
  · exact ⟨_, rfl, iff_of_true h fun heq => by cases heq⟩
  rw [hq]
  refine ⟨_, rfl, ?_⟩
  rw [h, relist_coherent hd]
  simp [forall_const]

lemma step_coherent {s : Selected σ} (h : s.Coherent) (e : Event σ) :
    ∃ t, step store cfg s e = some t ∧ (t.Coherent ↔ Safe store cfg s e) := by
  cases e with
  | store set flags writes => exact ⟨_, rfl, iff_of_true (storeLoop_coherent h _ _ _) trivial⟩
  | fetch set opts writes => exact ⟨_, rfl, iff_of_true (fetchLoop_coherent h _ _ _) trivial⟩
  | copy set dest =>
    simp only [step]
    split_ifs
    · exact ⟨_, rfl, iff_of_true h trivial⟩
    · exact ⟨_, rfl, iff_of_true h trivial⟩
  | move set dest written => exact moveMessages_coherent h set dest written
  | expunge uids => exact expungeMessages_coherent h uids
  | notified payload =>
    obtain ⟨t, ht, hc⟩ := @idleNotified_coherent σ ε store cfg s h payload
    exact ⟨t, ht, iff_of_true hc trivial⟩
  | others act => exact ⟨_, rfl, iff_of_true h trivial⟩

lemma select_coherent {server : σ} {mailbox : Bytes} {readOnly : Bool} {s : Selected σ}
    (h : select store server mailbox readOnly = some s) : s.Coherent := by
  unfold select at h
  split at h
  · cases h
  · cases h
    rfl

end Steps

section MailSession

variable {fresh : Nat → Bytes} {cfg : LearnConfig} {s : Selected (Process × Nat)} {loc : Loc}

-- The folder holds the messages of the list and no others, in the same order.
def Current (s : Selected (Process × Nat)) (loc : Loc) : Prop :=
  (s.server.1.store.contents loc).map Message.uid = s.view.messages.map MessageInfo.uid

instance (s : Selected (Process × Nat)) (loc : Loc) : Decidable (Current s loc) :=
  inferInstanceAs (Decidable (_ = _))

-- The condition on a step, on the session and the folder before it. An Expunge that finds something to do
-- finds the folder as the list has it, and every message there that carries \Deleted is one that it expunges.
-- A Move finds the folder as it was last listed.
def Steady (s : Selected (Process × Nat)) : Event (Process × Nat) → Prop
  | .expunge uids =>
    (∃ info ∈ s.view.messages, uidsContain uids info.uid ∧ ImapFlag.deleted ∈ info.flags) →
      s.server.1.store.Good ∧ ∃ loc, folderOrInboxPath s.view.selectedMailbox = .ok loc ∧ Current s loc ∧
        ∀ m ∈ s.server.1.store.contents loc, m.trashed → uidsContain uids m.uid ∧
          ∃ info ∈ s.view.messages, info.uid = m.uid ∧ ImapFlag.deleted ∈ info.flags
  | .move _ _ _ => ∃ loc d ul, folderOrInboxPath s.view.selectedMailbox = .ok loc ∧
      s.server.1.store.Undisturbed loc d ul ∧ Current s loc
  | _ => True

lemma nodup_uids {msgs : List Message} {messages : List MessageInfo} (h : msgs.Pairwise (·.uid < ·.uid))
    (heq : msgs.map Message.uid = messages.map MessageInfo.uid) : (messages.map MessageInfo.uid).Nodup := by
  rw [← heq, List.Nodup, List.pairwise_map]
  exact h.imp Nat.ne_of_lt

lemma shows_of_list {server : Process × Nat} {v : View} {seqNums : List Nat} {msgs : List Message}
    {recentKeys : List Bytes}
    (hl : (MailboxServer.list server.1 (rpcFolder v.selectedMailbox)).2 = .ok (msgs.map (Message.info recentKeys)))
    (hu : msgs.map Message.uid = (dropSeqNums seqNums v.messages).map MessageInfo.uid) :
    Shows (sessionManagerStore fresh) server v seqNums := by
  refine ⟨((MailboxServer.list server.1 (rpcFolder v.selectedMailbox)).1, server.2),
    (msgs.map (Message.info recentKeys)).map fun m => { m with key := [] }, Prod.ext rfl ?_, ?_⟩
  · exact congrArg (Except.map (List.map fun m : MessageInfo => { m with key := [] })) hl
  · rw [← hu]
    simp [List.map_map, Function.comp_def, Message.info]

def connection (s : Selected (Process × Nat)) : Connection :=
  ⟨⟨s.view.selectedMailbox, s.view.messages, []⟩, s.server.1⟩

-- The loop of Expunge over the store of mail-session.
lemma deleteFlagged_eq (uids : Option (Nat → Bool)) : deleteFlagged (sessionManagerStore fresh) s uids =
      ⟨((sweepMessages (connection s) uids).server, s.server.2), (sweepMessages (connection s) uids).queued⟩ := by
  let count (w : Sweep) : Deletions (Process × Nat) := ⟨(w.server, s.server.2), w.queued⟩
  have hstep : ∀ w entry, deleteStep (sessionManagerStore fresh) s.view.selectedMailbox uids (count w) entry =
      count (expungeStep s.view.selectedMailbox uids w entry) := by
    intro w entry
    unfold deleteStep expungeStep
    split_ifs
    · simp only [count, sessionManagerStore, beside, deleteMessage]
      rcases MailboxServer.setFlags w.server _ entry.1.uid [.deleted] with ⟨server, _ | _⟩ <;> rfl
    · rfl
  exact @List.foldl_hom _ _ _ count _ _ (s.view.messages.zipIdx 1).reverse ⟨s.server.1, [], false⟩ hstep

lemma exists_flagged {store : FolderStore (Process × Nat) RpcError} {uids : Option (Nat → Bool)}
    (h : (deleteFlagged store s uids).queued ≠ []) :
    ∃ info ∈ s.view.messages, uidsContain uids info.uid ∧ ImapFlag.deleted ∈ info.flags := by
  by_contra hno
  have hidle : ∀ (entries : List (MessageInfo × Nat)) (d : Deletions (Process × Nat)),
      (∀ entry ∈ entries, entry.1 ∈ s.view.messages) →
        entries.foldl (deleteStep store s.view.selectedMailbox uids) d = d := by
    intro entries
    induction entries with
    | nil => exact fun _ _ => rfl
    | cons entry entries ih =>
      intro d hm
      have hs : deleteStep store s.view.selectedMailbox uids d entry = d :=
        if_neg fun hc => hno ⟨entry.1, hm entry List.mem_cons_self, hc⟩
      rw [List.foldl_cons, hs]
      exact ih d fun other ho => hm other (List.mem_cons_of_mem _ ho)
  refine h ?_
  rw [deleteFlagged, hidle _ _ fun entry he => List.fst_mem_of_mem_zipIdx (List.mem_reverse.mp he)]

lemma dropSeqNums_uids {messages : List MessageInfo} {gone : List Nat}
    (hn : (messages.map MessageInfo.uid).Nodup) (hd : Descends seqNums messages.length)
    (hg : ∀ uid, uid ∈ gone ↔ ∃ n ∈ seqNums, (messages[n - 1]?).map MessageInfo.uid = some uid) :
    (dropSeqNums seqNums messages).map MessageInfo.uid = (messages.map MessageInfo.uid).filter (· ∉ gone) := by
  rw [map_dropSeqNums, dropSeqNums_eq_filter hn (by rw [List.length_map]; exact hd)]
  refine List.filter_congr fun uid _ => decide_eq_decide.mpr ?_
  simp only [hg, not_exists, not_and, List.getElem?_map]

lemma expunge_safe {uids : Option (Nat → Bool)} (h : Steady s (.expunge uids)) :
    Safe (sessionManagerStore fresh) cfg s (.expunge uids) := by
  intro hne
  obtain ⟨hg, loc, hp, hcur, htr⟩ := h (exists_flagged hne)
  have hd := @descends_deleteFlagged _ _ (sessionManagerStore fresh) s uids
  rw [deleteFlagged_eq] at hne hd ⊢
  have hr := path_rpcFolder hp
  have hs := swept_sweepMessages (c := connection s) uids hg hp
  have hq : (sweepMessages (connection s) uids).queued =
      (hits (connection s) uids (s.server.1.store.contents loc)).map Prod.snd := hs.queued
  rw [hq] at hne hd ⊢
  obtain ⟨entry, he⟩ := List.exists_mem_of_ne_nil _ fun hnil => hne (congrArg (List.map Prod.snd) hnil)
  obtain ⟨-, -, -, m, hm, -⟩ := (mem_hits uids).mp he
  have hco : (sweepMessages (connection s) uids).server.store.contents loc = (s.server.1.store.contents loc).map
      (markDeleted ((hits (connection s) uids (s.server.1.store.contents loc)).map (·.1.uid))) := by
    rw [hs.contents, Function.update_self]
    rfl
  have hnil : (sweepMessages (connection s) uids).server.store.contents loc ≠ [] := by
    rw [hco]
    exact List.ne_nil_of_mem (List.mem_map_of_mem hm)
  -- the folder is not empty, so the call of the store and the listing after it succeed
  obtain ⟨hge, hce, hok⟩ := MailboxServer.expunge_spec hs.good hr
  obtain ⟨⟨expelled, hex⟩, d, hd'⟩ := hok hnil
  obtain ⟨recentKeys, hl⟩ := MailboxServer.list_present hge hr hd'
  refine ⟨((MailboxServer.expunge (sweepMessages (connection s) uids).server
      (rpcFolder s.view.selectedMailbox)).1, s.server.2),
    Prod.ext rfl (congrArg (Except.map fun _ => ()) hex), shows_of_list hl ?_⟩
  have hn := nodup_uids (Store.contents_increasing hg loc) hcur
  -- whatever the store removes has been marked by the loop
  have hleft : (s.server.1.store.contents loc).filter
        (fun m => ¬ (m.trashed ∨ m.uid ∈ (hits (connection s) uids (s.server.1.store.contents loc)).map (·.1.uid))) =
      (s.server.1.store.contents loc).filter
        fun m => m.uid ∉ (hits (connection s) uids (s.server.1.store.contents loc)).map (·.1.uid) := by
    refine List.filter_congr fun m hm => decide_eq_decide.mpr ?_
    rw [not_or, and_iff_right_iff_imp]
    intro hno ht
    obtain ⟨hin, hin'⟩ := htr m hm ht
    exact hno ((mem_uids_hits uids).mpr ⟨hin, hin', m, hm, rfl⟩)
  rw [hce, Function.update_self, hco, filter_map_markDeleted, hleft, dropSeqNums_uids hn hd, ← hcur, List.filter_map]
  · rfl
  intro uid
  have ha := announced_uids_hits (c := connection s) uids (s.server.1.store.contents loc)
  rw [← List.mem_map_of_injective (Option.some_injective Nat), ← ha]
  exact List.mem_map

lemma triggerLearn_undisturbed {d : Folder} {ul : UidList} {src dest : Bytes} {server : Process × Nat}
    (hp : folderOrInboxPath src = .ok loc) (h : server.1.store.Undisturbed loc d ul) (uid : Nat) :
    (triggerLearn (sessionManagerStore fresh) cfg server src uid dest).1.store.Undisturbed loc d ul := by
  unfold triggerLearn
  split_ifs
  · exact MailboxServer.fetch_undisturbed h (path_rpcFolder hp) uid
  · exact h

lemma moveAll_undisturbed {d : Folder} {ul : UidList} {src dest : Bytes} (hp : folderOrInboxPath src = .ok loc)
    (infos : List MessageInfo) {server server' : Process × Nat} (h : server.1.store.Undisturbed loc d ul)
    (hm : moveAll (sessionManagerStore fresh) cfg src dest infos server = (server', .ok ())) :
    ∃ e ul', server'.1.store.Undisturbed loc e ul' ∧
      e.messages ul' = (d.messages ul).filter (·.uid ∉ infos.map MessageInfo.uid) := by
  -- each Move leaves the folder undisturbed, with one message less
  induction infos generalizing server d ul with
  | nil =>
    obtain ⟨rfl, -⟩ := Prod.mk.inj hm
    exact ⟨d, ul, h, by simp⟩
  | cons info rest ih =>
    have hl := @triggerLearn_undisturbed fresh cfg loc d ul src dest server hp h info.uid
    rw [moveAll] at hm
    generalize triggerLearn (sessionManagerStore fresh) cfg server src info.uid dest = learnt at hm hl
    rcases hmo : MailboxServer.move learnt.1 src info.uid dest (fresh learnt.2) with ⟨p, result⟩
    have ho : moveOne (sessionManagerStore fresh) learnt src info.uid dest =
        ((p, learnt.2 + 1), result.map fun _ => ()) := by
      simp only [moveOne, sessionManagerStore, beside, hmo]
      cases result <;> rfl
    rw [ho] at hm
    cases result with
    | error e => cases (Prod.mk.inj hm).2
    | ok newUid =>
      obtain ⟨e, ul', hu, hms⟩ := MailboxServer.move_undisturbed hl hp hmo
      obtain ⟨e', ul'', hu', hms'⟩ := ih hu hm
      refine ⟨e', ul'', hu', ?_⟩
      rw [hms', hms, List.filter_filter]
      refine List.filter_congr fun m _ => ?_
      rw [← Bool.decide_and, decide_eq_decide, List.map_cons, List.mem_cons, not_or, and_comm]

lemma movePart_through {store : FolderStore (Process × Nat) RpcError} {set : NumSet} {dest : Bytes} {written : Bool}
    (hmo : store.move.isSome = true) (h : (movePart store cfg s set dest written).2 = true) :
    moveAll store cfg s.view.selectedMailbox dest
        (((resolveNumSet s.view.messages set).insertionSort (· ≤ ·)).filterMap fun idx => s.view.messages[idx]?)
        s.server = ((movePart store cfg s set dest written).1, .ok ()) := by
  unfold movePart at h ⊢
  split_ifs at h ⊢
  dsimp only at h ⊢
  rcases hma : moveAll store cfg s.view.selectedMailbox dest
      (((resolveNumSet s.view.messages set).insertionSort (· ≤ ·)).filterMap fun idx => s.view.messages[idx]?)
      s.server with ⟨server, result⟩
  rw [hma] at h
  cases result with
  | error e => cases h
  | ok u => simp [Option.isSome_iff_ne_none.mp hmo]

lemma mem_moved {v : View} {set : NumSet} {uid : Nat} :
    uid ∈ (((resolveNumSet v.messages set).insertionSort (· ≤ ·)).filterMap fun idx => v.messages[idx]?).map
        MessageInfo.uid ↔ ∃ n ∈ namedSeqNums v set, (v.messages[n - 1]?).map MessageInfo.uid = some uid := by
  unfold namedSeqNums
  simp only [List.mem_map, List.mem_filterMap, List.mem_reverse, List.mem_filter, decide_eq_true_eq,
    Option.map_eq_some_iff]
  constructor
  · rintro ⟨info, ⟨idx, hi, hg⟩, rfl⟩
    exact ⟨idx + 1, ⟨idx, ⟨hi, (List.getElem?_eq_some_iff.mp hg).1⟩, rfl⟩, info, hg, rfl⟩
  · rintro ⟨n, ⟨idx, ⟨hi, -⟩, rfl⟩, info, hg, rfl⟩
    exact ⟨info, ⟨idx, hi, hg⟩, rfl⟩

lemma move_safe {set : NumSet} {dest : Bytes} {written : Bool} (h : Steady s (.move set dest written)) :
    Safe (sessionManagerStore fresh) cfg s (.move set dest written) := by
  intro ht
  obtain ⟨loc, d, ul, hp, hu, hcur⟩ := h
  obtain ⟨e, ul', hu', hms⟩ := moveAll_undisturbed hp _ hu (movePart_through rfl ht)
  obtain ⟨p', recentKeys, hl⟩ := MailboxServer.list_undisturbed hu' (path_rpcFolder hp)
  have hco : s.server.1.store.contents loc = d.messages ul := by
    rw [Store.contents_eq hu.disk, hu.opened.contents_eq]
  refine .inl (shows_of_list (congrArg Prod.snd hl) ?_)
  rw [Current, hco] at hcur
  have hn := nodup_uids (Folder.messages_increasing hu.opened.settled.consistent) hcur
  rw [dropSeqNums_uids hn (descends_namedSeqNums s.view set) fun uid => mem_moved, ← hcur, hms, List.filter_map]
  rfl

lemma Steady.safe {e : Event (Process × Nat)} (h : Steady s e) : Safe (sessionManagerStore fresh) cfg s e := by
  cases e with
  | expunge uids => exact expunge_safe h
  | move set dest written => exact move_safe h
  | store set flags writes => trivial
  | fetch set opts writes => trivial
  | copy set dest => trivial
  | notified payload => trivial
  | others act => trivial

end MailSession

-- From SELECT on, along every run of steady steps the list is what the tracker has announced, and no step panics.
theorem seqNums_coherent (fresh : Nat → Bytes) (cfg : LearnConfig) {server : Process × Nat} {mailbox : Bytes}
    {readOnly : Bool} {start s : Selected (Process × Nat)}
    (hselect : select (sessionManagerStore fresh) server mailbox readOnly = some start)
    (hrun : Reaches (step (sessionManagerStore fresh) cfg) Steady start s) :
    s.Coherent ∧ ∀ e, ∃ t, step (sessionManagerStore fresh) cfg s e = some t := by
  have hc : s.Coherent := by
    refine hrun.invariant (select_coherent hselect) fun s e t hs hsa hst => ?_
    obtain ⟨t', ht', hi⟩ := @step_coherent _ _ (sessionManagerStore fresh) cfg s hs e
    obtain rfl := Option.some.inj (ht'.symm.trans hst)
    exact hi.mpr hsa.safe
  refine ⟨hc, fun e => ?_⟩
  obtain ⟨t, ht, -⟩ := @step_coherent _ _ (sessionManagerStore fresh) cfg s hc e
  exact ⟨t, ht⟩

section Sample

def oneLetter : Process where
  sess := ⟨[], [], []⟩
  store := {
    disk := fun loc => match loc with
      | .inbox => some ⟨[], [⟨ascii "k1", [], ascii "hi"⟩], none, by decide⟩
      | .folder _ => none
    deleted := fun _ => []
    cache := fun _ => none
    now := 7 }

def copyNames (n : Nat) : Bytes := ascii "c" ++ decimal n

def plainConfig : LearnConfig := ⟨Folding.asciiOnly, ascii "Junk", false⟩

def firstMessage : NumSet := .seq ⟨[1], List.pairwise_singleton _ _, by decide⟩

def markFirst : Event (Process × Nat) := .store firstMessage ⟨.add, [.deleted], true⟩ fun _ => true

def delivery : Event (Process × Nat) := .others fun s =>
  match deliverTo s.1.store .inbox ⟨ascii "k2", ascii "yo"⟩ with
  | some st => (⟨s.1.sess, st⟩, s.2)
  | none => s

-- The message that arrives before EXPUNGE is listed but never announced.
theorem expunge_lists_unannounced :
    ∃ start s, select (sessionManagerStore copyNames) (oneLetter, 0) inbox false = some start ∧
      Reaches (step (sessionManagerStore copyNames) plainConfig) (fun _ _ => True) start s ∧
      s.view.announced = [] ∧ s.view.messages.length = 1 := by
  have hr : ((select (sessionManagerStore copyNames) (oneLetter, 0) inbox false).any fun start =>
      (runSteps (step (sessionManagerStore copyNames) plainConfig) start
        [markFirst, delivery, .expunge none]).any fun s =>
          decide (s.view.announced = [] ∧ s.view.messages.length = 1)) = true := by decide +kernel
  simp only [Option.any_eq_true, decide_eq_true_eq] at hr
  obtain ⟨start, hst, s, hs, hv⟩ := hr
  exact ⟨start, s, hst, Reaches.of_runSteps (fun _ _ _ => trivial) hs, hv⟩

def unmarkSecond : Event (Process × Nat) :=
  .store (.seq ⟨[2], List.pairwise_singleton _ _, by decide⟩) ⟨.set, [], true⟩ fun _ => true

def unmarked : Process :=
  (MailboxServer.setFlags (MailboxServer.list twoDeleted.server inbox).1 inbox 2 []).1

lemma unmarked_good : unmarked.store.Good := by
  have hp : folderOrInboxPath (MailboxServer.folderOrInbox inbox) = .ok .inbox := by decide
  have hl := (MailboxServer.list_spec twoDeleted_good hp).1
  obtain ⟨p, e, hs, -, hg, -⟩ | ⟨p, hs, -, hg, -⟩ := MailboxServer.setFlags_spec hl hp 2 []
  · rw [unmarked, hs]
    exact hg
  · rw [unmarked, hs]
    exact hg

def selectedBoth : Selected (Process × Nat) :=
  ⟨((MailboxServer.list twoDeleted.server inbox).1, 0),
    ⟨inbox, false, [⟨1, [], 2, [.deleted]⟩, ⟨2, [], 2, [.deleted]⟩], [1, 2]⟩⟩

def unmarkedSecond : Selected (Process × Nat) :=
  ⟨(unmarked, 0), ⟨inbox, false, [⟨1, [], 2, [.deleted]⟩, ⟨2, [], 2, []⟩], [1, 2]⟩⟩

-- Of two marked messages the second is unmarked, and EXPUNGE removes the first.
theorem seqNums_coherent_expunged :
    ∃ s, select (sessionManagerStore copyNames) (twoDeleted.server, 0) inbox false = some selectedBoth ∧
      runSteps (step (sessionManagerStore copyNames) plainConfig) selectedBoth [unmarkSecond, .expunge none] = some s ∧
      s.view.announced = [2] ∧ s.Coherent ∧
      ∀ e, ∃ t, step (sessionManagerStore copyNames) plainConfig s e = some t := by
  have hselect : select (sessionManagerStore copyNames) (twoDeleted.server, 0) inbox false = some selectedBoth := rfl
  have hunmark : step (sessionManagerStore copyNames) plainConfig selectedBoth unmarkSecond = some unmarkedSecond := rfl
  have hsteady : Steady unmarkedSecond (.expunge none) :=
    fun _ => ⟨unmarked_good, .inbox, by decide, by decide, by decide⟩
  obtain ⟨s, hs, ha⟩ : ∃ s, step (sessionManagerStore copyNames) plainConfig unmarkedSecond (.expunge none) = some s ∧
      s.view.announced = [2] := ⟨_, rfl, by decide⟩
  refine ⟨s, hselect, ?_, ha, seqNums_coherent copyNames plainConfig hselect
    ((Reaches.refl.tail unmarkSecond trivial hunmark).tail (.expunge none) hsteady hs)⟩
  rw [runSteps, hunmark]
  exact (runSteps_singleton _ _ _).trans hs

end Sample

end Maildancer.Imap

import Maildancer.MailSession.Calls
import Maildancer.MailSession.Watch

namespace Maildancer.MailSession

open List Text Maildir

variable {folder : Bytes} {loc : Loc} {st st' : Store} {files : List NewFile}

lemma deliverTo_eq_some {f : NewFile} (h : deliverTo st loc f = some st') :
    ∃ d e, st.disk loc = some d ∧ st' = st.setFolder loc e ∧ e.new = d.new ++ [f] ∧ e.cur = d.cur ∧
      e.uidlist = d.uidlist := by
  unfold deliverTo at h
  rcases hd : st.disk loc with _ | d
  · simp [hd] at h
  · simp only [hd] at h
    split_ifs at h with hf
    exact ⟨d, d.deliver f hf, rfl, (Option.some.inj h).symm, rfl, rfl, rfl⟩

variable {d : Folder} {n : Nat} {old current : List Message} {keys recentKeys seen : List Bytes}
  {during : List NewFile} {p r : Process}

lemma deliverAll_eq_some (hd : st.disk loc = some d) (h : deliverAll loc st files = some st') :
    ∃ e, st' = st.setFolder loc e ∧ e.new = d.new ++ files ∧ e.cur = d.cur ∧ e.uidlist = d.uidlist := by
  induction files generalizing st d with
  | nil =>
    refine ⟨d, ?_, (append_nil _).symm, rfl, rfl⟩
    have hs : st.setFolder loc d = st := by
      rw [Store.setFolder, ← hd, Function.update_eq_self]
    rw [hs]
    exact (Option.some.inj h).symm
  | cons f files ih =>
    obtain ⟨next, hf, hr⟩ := Option.bind_eq_some_iff.mp h
    obtain ⟨d', mid, hdi, rfl, hn, hc, hl⟩ := deliverTo_eq_some hf
    obtain rfl : d = d' := Option.some.inj (hd.symm.trans hdi)
    obtain ⟨e, rfl, hnew', hcur', hli⟩ := ih (Store.setFolder_disk_self st loc mid) hr
    refine ⟨e, by simp [Store.setFolder], ?_, hcur'.trans hc, hli.trans hl⟩
    rw [hnew', hn, append_assoc, singleton_append]

structure Ready (st : Store) (loc : Loc) (n : Nat) : Prop where
  good : st.Good
  listed : ∃ d ul, st.Listed loc d ul ∧ ul.uidNext + n < 2 ^ 32 ∧ d.curDirKeys.length + n + 1 < 2 ^ 32

lemma listFolder_present (hp : folderOrInboxPath folder = .ok loc) (hd : st.disk loc = some d) :
    Process.listFolder st folder = ((st.listDir loc d).1, .ok (st.listDir loc d).2) := by
  obtain ⟨-, hf, rfl⟩ | ⟨-, hf, hfo⟩ := path_cases hp
  · simp [Process.listFolder, hf, Store.list, Store.ensureMaildir, hd]
  · simp only [Process.listFolder, hf, Bool.false_eq_true, ite_false, Store.listInFolder, hfo, hd]

lemma listFolder_after (h : Ready st loc (files.length + n))
    (hp : folderOrInboxPath folder = .ok loc) (hv : ∀ f ∈ files, UidList.ValidKey f.key)
    (hd : deliverAll loc st files = some st') : ∃ listed recentKeys,
      Process.listFolder st' folder = (listed, .ok ((st'.contents loc).map (Message.info recentKeys))) ∧
      Ready listed loc n ∧ listed.contents loc = st'.contents loc ∧
      Folder.Grown (st.contents loc) (st'.contents loc) (files.map NewFile.key) := by
  obtain ⟨d, ul, hl, hn, hle⟩ := h.listed
  obtain ⟨e, rfl, hnew, hcur, hli⟩ := deliverAll_eq_some hl.disk hd
  have ha : d.Arrived files e := ⟨by rw [hnew, hl.opened.new_nil, nil_append], hcur, hli⟩
  have hne : ul.uidNext + files.length < 2 ^ 32 := by omega
  have hln : d.curDirKeys.length + files.length + 1 < 2 ^ 32 := by omega
  have hs := hl.opened.sound_arrived ha hv hne hln
  have hdi := Store.setFolder_disk_self st loc e
  obtain ⟨hg, ho, hc, hi⟩ := Store.listDir_spec (h.good.setFolder hs) hdi
  refine ⟨_, e.maildirNewKeys, ?_, ⟨hg, _, _, ho, ?_, ?_⟩, congrFun hc loc, ?_⟩
  · rw [listFolder_present hp hdi, hi]
  · rw [hl.opened.uidNext_arrived ha hne]
    omega
  · have hk : (e.opened (st.setFolder loc e).now).2.curDirKeys = e.unseen.curDirKeys := rfl
    rw [hk, ha.curDirKeys_unseen, length_append, length_map]
    omega
  · rw [hl.contents_eq, Store.contents_eq hdi]
    exact hl.opened.grown ha hv hne hln _

def keysOf (msgs : List Message) : List Bytes := msgs.map (·.file.key)

lemma Grown.mem_keysOf (h : Folder.Grown old current keys) (key : Bytes) :
    key ∈ keysOf current ↔ key ∈ keysOf old ∨ key ∈ keys := by
  simp only [keysOf, mem_map]
  constructor
  · intro hk
    obtain ⟨m, hm, rfl⟩ := hk
    rcases h.added m hm with hold | hn
    · exact Or.inl ⟨m, hold, rfl⟩
    · exact Or.inr hn
  · intro hk
    rcases hk with hold | hn
    · obtain ⟨m, hm, heq⟩ := hold
      exact ⟨m, h.kept m hm, heq⟩
    · exact h.arrived key hn

lemma Grown.disjoint
    (h : Folder.Grown old current keys) {key : Bytes} (hk : key ∈ keys) : key ∉ keysOf old := by
  intro hold
  obtain ⟨m, hm, rfl⟩ := mem_map.mp hold
  exact h.fresh m hm hk

lemma rescan_after (sess : Session)
    (h : Ready st loc (during.length + n)) (hp : folderOrInboxPath folder = .ok loc)
    (hv : ∀ f ∈ during, UidList.ValidKey f.key) (hfo : sess.selectedFolder = folder)
    (hms : sess.msgs = (st.contents loc).map (Message.info recentKeys))
    (hd : deliverAll loc st during = some st') :
    ∃ r newMsgs, Process.rescan ⟨sess, st'⟩ = (r, .ok newMsgs) ∧ Ready r.store loc n ∧
      (∀ key, key ∈ keysOf (r.store.contents loc) ↔
        key ∈ keysOf (st.contents loc) ∨ key ∈ during.map NewFile.key) ∧
      (∀ f ∈ during, f.key ∉ keysOf (st.contents loc)) ∧
      ∀ key, key ∈ newMsgs.map MessageInfo.key ↔ key ∈ during.map NewFile.key := by
  obtain ⟨listed, recent, hl, hr, hc, hg⟩ := listFolder_after h hp hv hd
  have hne : folder ≠ [] := by
    intro hn
    rw [hn] at hp
    cases hp
  have hu : sess.msgs.map MessageInfo.uid = (st.contents loc).map Message.uid := by
    rw [hms, map_map]
    rfl
  refine ⟨_, _, by simp only [Process.rescan, hfo, hne, ite_false, hl]; rfl, hr, ?_, ?_, ?_⟩
  · rw [hc]
    exact Grown.mem_keysOf hg
  · intro f hf
    exact Grown.disjoint hg (mem_map_of_mem hf)
  intro key
  have hi : (st'.contents loc).Pairwise fun m n => m.uid < n.uid := by
    rw [← hc]
    exact Store.contents_increasing hr.good loc
  rw [hu, filter_map, map_map]
  constructor
  · intro hk
    obtain ⟨m, hm, rfl⟩ := mem_map.mp hk
    obtain ⟨hm, hnew⟩ := mem_filter.mp hm
    exact (hg.uid_new_iff hi hm).mp (of_decide_eq_true hnew)
  · intro hk
    obtain ⟨m, hm, rfl⟩ := hg.arrived key hk
    have hnew := (hg.uid_new_iff hi hm).mpr hk
    exact mem_map.mpr ⟨m, mem_filter.mpr ⟨hm, decide_eq_true hnew⟩, rfl⟩

lemma selectAndRescan_spec
    {result : Except RpcError (List MessageInfo)} (hl : Process.listFolder p.store folder =
      (st, .ok ((p.store.contents loc).map (Message.info recentKeys))))
    (hc : st.contents loc = p.store.contents loc) (hr : Ready st loc (during.length + n))
    (hp : folderOrInboxPath folder = .ok loc) (hv : ∀ f ∈ during, UidList.ValidKey f.key)
    (hca : selectAndRescan p folder loc during = some (r, result)) :
    ∃ newMsgs, result = .ok newMsgs ∧ Ready r.store loc n ∧ (∀ key, key ∈ keysOf (r.store.contents loc) ↔
        key ∈ keysOf (p.store.contents loc) ∨ key ∈ during.map NewFile.key) ∧
      (∀ f ∈ during, f.key ∉ keysOf (p.store.contents loc)) ∧
      ∀ key, key ∈ newMsgs.map MessageInfo.key ↔ key ∈ during.map NewFile.key := by
  simp only [selectAndRescan, Process.select, hl] at hca
  obtain ⟨st', hd, heq⟩ := Option.map_eq_some_iff.mp hca
  obtain ⟨q, newMsgs, hre, hra, hk, hf, hn⟩ := rescan_after
    ⟨folder, (p.store.contents loc).map _, p.sess.deleted⟩ hr hp
    hv rfl (by rw [hc]) hd
  rw [hc] at hk hf
  rw [hre] at heq
  cases heq
  exact ⟨newMsgs, rfl, hra, hk, hf, hn⟩

def reports (key : Bytes) (events : List (List MessageInfo)) : Nat :=
  events.countP fun newMsgs => key ∈ newMsgs.map MessageInfo.key

lemma reports_send (key : Bytes) (newMsgs : List MessageInfo) (events : List (List MessageInfo)) :
    reports key (if newMsgs = [] then events else newMsgs :: events) =
      (if key ∈ newMsgs.map MessageInfo.key then 1 else 0) + reports key events := by
  by_cases he : newMsgs = []
  · simp [he]
  · rw [if_neg he, reports, reports, countP_cons, Nat.add_comm]
    simp

def arrivals (ticks : List Tick) : List NewFile := ticks.flatMap fun t => t.before ++ t.during

-- What the events say about the files that arrive while the stream runs, for a
-- folder that holds the keys of seen when it starts.
structure Watched (seen : List Bytes) (ticks : List Tick) (events : List (List MessageInfo)) : Prop where
  fresh : ∀ t ∈ ticks, ∀ f ∈ t.before ++ t.during, f.key ∉ seen
  old : ∀ key ∈ seen, reports key events = 0
  before : ∀ t ∈ ticks, ∀ f ∈ t.before, reports f.key events = 0
  during : ∀ t ∈ ticks, ∀ f ∈ t.during, reports f.key events = 1

variable {ticks : List Tick} {events : List (List MessageInfo)}

lemma watched_cons {listed seen' : List Bytes} {t : Tick} {newMsgs : List MessageInfo}
    (hl : ∀ key, key ∈ listed ↔ key ∈ seen ∨ key ∈ t.before.map NewFile.key)
    (hb : ∀ key, key ∈ t.before.map NewFile.key → key ∉ seen)
    (hs : ∀ key, key ∈ seen' ↔ key ∈ listed ∨ key ∈ t.during.map NewFile.key)
    (hd : ∀ key, key ∈ t.during.map NewFile.key → key ∉ listed)
    (hn : ∀ key, key ∈ newMsgs.map MessageInfo.key ↔ key ∈ t.during.map NewFile.key)
    (h : Watched seen' ticks events) :
    Watched seen (t :: ticks) (if newMsgs = [] then events else newMsgs :: events) := by
  have hse : ∀ key, reports key (if newMsgs = [] then events else newMsgs :: events) =
      (if key ∈ t.during.map NewFile.key then 1 else 0) + reports key events := by
    intro key
    rw [reports_send]
    simp [hn]
  have hsi : ∀ key ∈ listed, reports key (if newMsgs = [] then events else newMsgs :: events) = 0 := by
    intro key hk
    rw [hse, if_neg fun hin => hd key hin hk, h.old key ((hs key).mpr (Or.inl hk))]
  have hla : ∀ t' ∈ ticks, ∀ f ∈ t'.before ++ t'.during,
      f.key ∉ seen ∧ f.key ∉ t.during.map NewFile.key := by
    intro t' ht' f hf
    have ho := h.fresh t' ht' f hf
    rw [hs, hl, not_or, not_or] at ho
    exact ⟨ho.1.1, ho.2⟩
  refine ⟨fun t' ht' f hf hk => ?_, fun key hk => ?_, fun t' ht' f hf => ?_, fun t' ht' f hf => ?_⟩
  · rcases mem_cons.mp ht' with rfl | ht'
    · rcases mem_append.mp hf with hf | hf
      · exact hb _ (mem_map_of_mem hf) hk
      · exact hd _ (mem_map_of_mem hf) ((hl _).mpr (Or.inl hk))
    · exact (hla t' ht' f hf).1 hk
  · exact hsi key ((hl key).mpr (Or.inl hk))
  · rcases mem_cons.mp ht' with rfl | ht'
    · exact hsi _ ((hl _).mpr (Or.inr (mem_map_of_mem hf)))
    · rw [hse, if_neg (hla t' ht' f (mem_append_left _ hf)).2, h.before t' ht' f hf]
  · rcases mem_cons.mp ht' with rfl | ht'
    · have hk : f.key ∈ t'.during.map NewFile.key := mem_map_of_mem hf
      rw [hse, if_pos hk, h.old _ ((hs _).mpr (Or.inr hk))]
    · rw [hse, if_neg (hla t' ht' f (mem_append_right _ hf)).2, h.during t' ht' f hf]

lemma watchLoop_spec
    (h : Ready p.store loc (arrivals ticks).length) (hp : folderOrInboxPath folder = .ok loc)
    (hv : ∀ f ∈ arrivals ticks, UidList.ValidKey f.key)
    (hrun : watchLoop folder loc p ticks = some (r, events)) :
    Watched (keysOf (p.store.contents loc)) ticks events := by
  induction ticks generalizing p events with
  | nil =>
    obtain ⟨-, rfl⟩ := Prod.mk.inj (Option.some.inj hrun)
    exact ⟨by simp, by simp [reports], by simp, by simp⟩
  | cons t ticks ih =>
    obtain ⟨⟨q, newMsgs⟩, ht, hrun⟩ := Option.bind_eq_some_iff.mp hrun
    obtain ⟨⟨r', rest⟩, hr, heq⟩ := Option.map_eq_some_iff.mp hrun
    cases heq
    obtain ⟨st, hb, hc⟩ := Option.bind_eq_some_iff.mp ht
    obtain ⟨⟨q', result⟩, hc, hre⟩ := Option.map_eq_some_iff.mp hc
    have hl : (arrivals (t :: ticks)).length =
        t.before.length + (t.during.length + (arrivals ticks).length) := by
      simp only [arrivals, flatMap_cons, length_append]
      omega
    rw [hl] at h
    have hh : ∀ f ∈ t.before ++ t.during, f ∈ arrivals (t :: ticks) := by
      intro f hf
      exact mem_append_left _ hf
    obtain ⟨listed, recentKeys, hli, hra, hco, hg⟩ := listFolder_after h hp
      (fun f hf => hv f (hh f (mem_append_left _ hf))) hb
    obtain ⟨newMsgs', rfl, hra, hk, hfr, hn⟩ := selectAndRescan_spec hli hco hra
      hp (fun f hf => hv f (hh f (mem_append_right _ hf))) hc
    cases hre
    have hta := ih hra (fun f hf => hv f (mem_append_right _ hf)) hr
    exact watched_cons (Grown.mem_keysOf hg) (fun _ => Grown.disjoint hg) hk
      (fun key hkey => by obtain ⟨f, hf, rfl⟩ := mem_map.mp hkey; exact hfr f hf) hn hta

lemma Watched.reported_iff (h : Watched seen ticks events) :
    (∀ f ∈ arrivals ticks, reports f.key events = 1) ↔ ∀ t ∈ ticks, t.before = [] := by
  constructor
  · intro ha t ht
    apply eq_nil_iff_forall_not_mem.mpr
    intro f hf
    have ho := ha f (mem_flatMap.mpr ⟨t, ht, mem_append_left _ hf⟩)
    have hz := h.before t ht f hf
    omega
  · intro hn f hf
    obtain ⟨t, ht, hf⟩ := mem_flatMap.mp hf
    rw [hn t ht, nil_append] at hf
    exact h.during t ht f hf

lemma watchLoop_of_watch (hw : watch p folder loc ticks = some (r, .ok events)) :
    watchLoop (MailboxServer.folderOrInbox folder) loc
      (p.select (MailboxServer.folderOrInbox folder)).1 ticks = some (r, events) := by
  unfold watch at hw
  rcases hs : p.select (MailboxServer.folderOrInbox folder) with ⟨q, e | msgs⟩
  · simp [hs] at hw
  simp only [hs] at hw
  obtain ⟨⟨r', events'⟩, hr, heq⟩ := Option.map_eq_some_iff.mp hw
  simp only [Prod.mk.injEq, Except.ok.injEq] at heq
  obtain ⟨rfl, rfl⟩ := heq
  exact hr

-- A stream misses what arrives between two ticks, and Rescan what arrived
-- before it was called: the listing of Select has already put both into the
-- baseline. seen holds the keys the previous List or Rescan of the folder found.
theorem new_mail_reported_iff {p : Process} (hgood : p.store.Good)
    (hpath : folderOrInboxPath (MailboxServer.folderOrInbox folder) = .ok loc) : (∀ ticks r events,
      Ready (p.select (MailboxServer.folderOrInbox folder)).1.store loc (arrivals ticks).length →
      (∀ f ∈ arrivals ticks, UidList.ValidKey f.key) →
      watch p folder loc ticks = some (r, .ok events) →
      ((∀ f ∈ arrivals ticks, reports f.key events = 1) ↔ ∀ t ∈ ticks, t.before = [])) ∧
    ∀ (during : List NewFile) (seen : List Bytes) r newMsgs,
      Ready (p.select (MailboxServer.folderOrInbox folder)).1.store loc during.length →
      (∀ f ∈ during, UidList.ValidKey f.key ∧ f.key ∉ seen) →
      selectAndRescan p (MailboxServer.folderOrInbox folder) loc during = some (r, .ok newMsgs) →
      ((∀ key, key ∈ newMsgs.map MessageInfo.key ↔
          key ∈ keysOf (r.store.contents loc) ∧ key ∉ seen) ↔
        ∀ key ∈ keysOf (p.store.contents loc), key ∈ seen) := by
  refine ⟨fun ticks r events hr hv hw => ?_, fun during seen r newMsgs hr hd hc => ?_⟩
  · exact (watchLoop_spec hr hpath hv (watchLoop_of_watch hw)).reported_iff
  obtain ⟨hl, -⟩ | ⟨st, d, ul, recentKeys, hl, -, -, hco⟩ :=
    Process.listFolder_spec hgood hpath
  · simp [selectAndRescan, Process.select, hl] at hc
  have hr : Ready st loc (during.length + 0) := by simpa [Process.select, hl] using hr
  obtain ⟨newMsgs', heq, -, hk, hfr, hn⟩ := selectAndRescan_spec hl
    (congrFun hco loc) hr hpath (fun f hf => (hd f hf).1) hc
  cases heq
  simp only [hn, hk]
  constructor
  · intro he key hke
    by_contra hu
    obtain ⟨f, hf, rfl⟩ := mem_map.mp ((he key).mpr ⟨Or.inl hke, hu⟩)
    exact hfr f hf hke
  · intro ha key
    constructor
    · intro hke
      obtain ⟨f, hf, rfl⟩ := mem_map.mp hke
      exact ⟨Or.inr hke, (hd f hf).2⟩
    intro hke
    rcases hke.1 with hold | hky
    · exact absurd (ha key hold) hke.2
    · exact hky

def emptyInbox : Process where
  sess := ⟨[], [], []⟩
  store := {
    disk := fun loc => match loc with
      | .inbox => some .empty
      | .folder _ => none
    deleted := fun _ => []
    cache := fun _ => none
    now := 7 }

lemma emptyInbox_good : emptyInbox.store.Good :=
  Store.good_of_inbox rfl (fun _ => rfl) (fun _ => rfl) Folder.empty_sound

def arrival : NewFile := ⟨ascii "k1", ascii "hi"⟩

theorem new_mail_unreported :
    (∃ r, watch emptyInbox [] .inbox [⟨[], []⟩, ⟨[arrival], []⟩, ⟨[], []⟩] = some (r, .ok []) ∧
      arrival.key ∈ keysOf (r.store.contents .inbox)) ∧
    ∃ st, (MailboxServer.list emptyInbox []).2 = .ok [] ∧
      deliverTo (MailboxServer.list emptyInbox []).1.store .inbox arrival = some st ∧
      (MailboxServer.rescan ⟨(MailboxServer.list emptyInbox []).1.sess, st⟩ []).2 = .ok [] ∧
      arrival.key ∈ keysOf (st.contents .inbox) := by
  have hs : (watch emptyInbox [] .inbox [⟨[], []⟩, ⟨[arrival], []⟩, ⟨[], []⟩]).any (fun r =>
      r.2 = .ok [] ∧ arrival.key ∈ keysOf (r.1.store.contents .inbox)) = true := by decide +kernel
  have hr : (deliverTo (MailboxServer.list emptyInbox []).1.store .inbox arrival).any (fun st =>
      (MailboxServer.rescan ⟨(MailboxServer.list emptyInbox []).1.sess, st⟩ []).2 = .ok [] ∧
        arrival.key ∈ keysOf (st.contents .inbox)) = true := by decide +kernel
  simp only [Option.any_eq_true, decide_eq_true_eq] at hs hr
  obtain ⟨⟨r, result⟩, hw, rfl, hk⟩ := hs
  obtain ⟨st, hd, hc, hke⟩ := hr
  exact ⟨⟨r, hw, hk⟩, st, by decide +kernel, hd, hc, hke⟩

lemma emptyInbox_ready (n : Nat) (hr : n + 1 < 2 ^ 32) :
    Ready (emptyInbox.select (MailboxServer.folderOrInbox [])).1.store .inbox n := by
  have hd : emptyInbox.store.disk .inbox = some .empty := rfl
  obtain ⟨hg, hl, -, -⟩ := Store.listDir_spec emptyInbox_good hd
  have hs : (emptyInbox.select (MailboxServer.folderOrInbox [])).1.store =
      (emptyInbox.store.listDir .inbox .empty).1 := rfl
  rw [hs]
  have hn : (Folder.empty.opened emptyInbox.store.now).1.uidNext = 1 := by decide
  have hle : (Folder.empty.opened emptyInbox.store.now).2.curDirKeys.length = 0 := by decide
  exact ⟨hg, _, _, hl, by omega, by omega⟩

theorem new_mail_reported_iff_during :
    (∃ r events, watch emptyInbox [] .inbox [⟨[], [arrival]⟩] = some (r, .ok events) ∧
      ((∀ f ∈ arrivals [⟨[], [arrival]⟩], reports f.key events = 1) ↔
        ∀ t ∈ [Tick.mk [] [arrival]], t.before = [])) ∧
    ∃ r newMsgs, selectAndRescan emptyInbox (MailboxServer.folderOrInbox []) .inbox [arrival] =
        some (r, .ok newMsgs) ∧
      ((∀ key, key ∈ newMsgs.map MessageInfo.key ↔
          key ∈ keysOf (r.store.contents .inbox) ∧ key ∉ ([] : List Bytes)) ↔
        ∀ key ∈ keysOf (emptyInbox.store.contents .inbox), key ∈ ([] : List Bytes)) := by
  have hv : UidList.ValidKey arrival.key := ⟨by decide, by decide, by decide, by decide⟩
  have hs : (watch emptyInbox [] .inbox [⟨[], [arrival]⟩]).any (·.2.isOk) = true := by decide +kernel
  have hc : (selectAndRescan emptyInbox (MailboxServer.folderOrInbox []) .inbox [arrival]).any
      (·.2.isOk) = true := by decide +kernel
  rw [Option.any_eq_true] at hs hc
  obtain ⟨⟨r, _ | events⟩, hw, hok⟩ := hs
  · cases hok
  obtain ⟨⟨r', _ | newMsgs⟩, hr, hok'⟩ := hc
  · cases hok'
  obtain ⟨hf, hse⟩ := @new_mail_reported_iff [] .inbox _ emptyInbox_good rfl
  refine ⟨⟨r, events, hw, hf _ r events (emptyInbox_ready _ (by decide)) ?_ hw⟩, r', newMsgs,
    hr, hse _ [] r' newMsgs (emptyInbox_ready _ (by decide)) ?_ hr⟩
  · simpa [arrivals] using hv
  · simpa using hv

end Maildancer.MailSession

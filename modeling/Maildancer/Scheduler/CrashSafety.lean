import Maildancer.Scheduler.Claiming

namespace Maildancer.Scheduler

open List Text Queue

structure Entry.Sound (e : Entry) : Prop where
  plain : hasSuffix deliveringSuffix e.path.2 = false
  dir : e.path.1.length = 2

-- The envelopes that a task may still touch.
def Task.covers : Task → Path → Prop
  | .top, _ => True
  | .tld t, p => ∃ d, p.1 = [t, d]
  | .dir t d, p => p.1 = [t, d]
  | .group _ g, p => p ∈ g.entries.map Entry.path
  | .claiming todo claimed, p => p ∈ (todo ++ claimed).map Entry.path
  | .final e, p => p = e.path
  | .active batch, p => p ∈ batch.map Entry.path
  | _, _ => False

def SoundBatch (batch : List Entry) : Prop := (batch.map Entry.path).Nodup ∧ ∀ e ∈ batch, e.Sound

def Task.Sound : Task → Prop
  | .group _ g => SoundBatch g.entries
  | .claiming todo claimed => SoundBatch (todo ++ claimed)
  | .final e => e.Sound
  | .active batch => SoundBatch batch
  | _ => True

lemma SoundBatch.sublist {batch smaller : List Entry} (h : SoundBatch batch) (hs : smaller.Sublist batch) :
    SoundBatch smaller :=
  ⟨h.1.sublist (hs.map _), fun e he => h.2 e (hs.subset he)⟩

section Scan

variable {files : List File} {o : Outside} {tld domain name : Bytes} {picked : Bytes × Entry}

lemma pickFile_eq_some (h : pickFile files o [tld, domain] name = some picked) :
    picked.2.path = ([tld, domain], name) ∧ extractMsgId name = some picked.1 := by
  unfold pickFile at h
  split at h
  case h_1 msgid env hid hc =>
    split_ifs at h
    cases h
    exact ⟨rfl, hid⟩
  case h_2 => cases h

lemma extractMsgId_plain {msgid : Bytes} (h : extractMsgId name = some msgid) :
    hasSuffix deliveringSuffix name = false := by
  unfold extractMsgId at h
  split_ifs at h with hs
  exact Bool.eq_false_iff.mpr hs

def pickedIn (files : List File) (o : Outside) (tld domain : Bytes) : List (Bytes × Entry) :=
  (names files [tld, domain]).filterMap (pickFile files o [tld, domain])

lemma mem_pickedIn (h : picked ∈ pickedIn files o tld domain) :
    picked.2.Sound ∧ picked.2.path.1 = [tld, domain] ∧ extractMsgId picked.2.path.2 = some picked.1 := by
  obtain ⟨name, -, hp⟩ := mem_filterMap.mp h
  obtain ⟨hpa, hid⟩ := pickFile_eq_some hp
  rw [hpa]
  refine ⟨⟨?_, ?_⟩, rfl, hid⟩
  · rw [hpa]
    exact extractMsgId_plain hid
  · rw [hpa]
    rfl

lemma nodup_pickedIn (files : List File) (o : Outside) (tld domain : Bytes) :
    ((pickedIn files o tld domain).map fun picked => picked.2.path).Nodup := by
  unfold pickedIn
  rw [map_filterMap]
  refine (nodup_inOrder _).filterMap fun name name' p hp hp' => ?_
  obtain ⟨picked, hpi, rfl⟩ := Option.map_eq_some_iff.mp hp
  obtain ⟨picked', hpc, heq⟩ := Option.map_eq_some_iff.mp hp'
  rw [(pickFile_eq_some hpi).1, (pickFile_eq_some hpc).1] at heq
  exact (congrArg Prod.snd heq).symm

lemma entries_group (picked : List (Bytes × Entry)) (id : Bytes) :
    (group picked id).entries = (picked.filter fun p => p.1 = id).map Prod.snd := by
  dsimp only [group]
  induction picked with
  | nil => rfl
  | cons p rest ih =>
    by_cases hid : p.1 = id
    · simp [hid, ih]
    · simp [hid, ih]

lemma sound_group (files : List File) (o : Outside) (tld domain id : Bytes) :
    SoundBatch (group (pickedIn files o tld domain) id).entries := by
  constructor
  · rw [entries_group, map_map]
    exact (nodup_pickedIn files o tld domain).sublist (filter_sublist.map _)
  · intro e he
    exact (mem_pickedIn (mem_group.mp he)).1

end Scan

variable {i : Task} {m' : Machine} {f : EnvFile}

section Footprints

variable (m : Machine) (o : Outside) (ok : Bool)

lemma covers_group {id : Bytes} {tld domain : Bytes} {p : Path}
    (h : (Task.group (tld, domain) (group (pickedIn m.files o tld domain) id)).covers p) :
    p.1 = [tld, domain] ∧ extractMsgId p.2 = some id := by
  obtain ⟨e, he, rfl⟩ := mem_map.mp h
  obtain ⟨-, hd, hid⟩ := mem_pickedIn (mem_group.mp he)
  exact ⟨hd, hid⟩

lemma splits_claimed {claimed : List Entry} (hs : SoundBatch claimed) :
    Splits Task.covers (.claiming [] claimed) (m.exec o ok (.claiming [] claimed)).more [] := by
  have ha := pairwise_map.mp hs.1
  have hf : Splits Task.covers (.claiming [] claimed) ((claimed.filter Entry.expired).map .final) [] := by
    refine .map (fun e he p hp => ?_) ((ha.filter _).imp fun hne p hp hp' => hne ?_)
    · obtain rfl : p = e.path := hp
      exact mem_map_of_mem (mem_of_mem_filter he)
    · exact (show p = _ from hp).symm.trans hp'
  dsimp only [Machine.exec, Machine.thenDo]
  by_cases hac : (claimed.filter fun e => !e.expired) = []
  · rw [if_pos hac, append_nil]
    exact hf
  rw [if_neg hac]
  refine hf.union (.single fun p hp => ?_) fun j hj k hk p hp hp' => ?_
  · obtain ⟨e, he, rfl⟩ := mem_map.mp hp
    exact mem_map_of_mem (mem_of_mem_filter he)
  · -- an envelope is expired or it is not
    obtain ⟨e, he, rfl⟩ := mem_map.mp hj
    obtain rfl := mem_singleton.mp hk
    obtain rfl : p = e.path := hp
    obtain ⟨e', he', hpa⟩ := mem_map.mp hp'
    obtain ⟨hm, hex⟩ := mem_filter.mp he
    obtain ⟨hmem', hat⟩ := mem_filter.mp he'
    rw [inj_on_of_nodup_map hs.1 hmem' hm hpa, hex] at hat
    cases hat

-- A task passes what it may touch on to its parts, and no two of them get the same.
lemma splits_exec (hs : i.Sound) : Splits Task.covers i (m.exec o ok i).more (m.exec o ok i).handed := by
  have hr : ∀ (i : Task) p, Splits Task.covers i (m.removing p ok).more (m.removing p ok).handed := by
    intro i p
    unfold Machine.removing
    split <;> exact .idle fun _ hj => absurd hj not_mem_nil
  cases i with
  | top =>
    exact .mapKeys (fun p => p.1.headD []) (nodup_inOrder _) (fun _ _ _ _ => trivial) fun t _ p ⟨d, hp⟩ => by simp [hp]
  | tld t =>
    refine .mapKeys (fun p => p.1.getLastD []) (nodup_inOrder _) (fun d _ p hp => ⟨d, hp⟩) fun d _ p hp => ?_
    rw [show p.1 = [t, d] from hp]
    rfl
  | dir t d =>
    refine .union ?_ (.idle fun j hj p => ?_) fun j _ k hk p _ => ?_
    · refine .mapKeys (fun p => (extractMsgId p.2).getD []) ?_
        (fun id _ p hp => (covers_group m o hp).1) fun id _ p hp => ?_
      · exact (o.order_perm _).nodup_iff.mpr (nodup_dedup _)
      · rw [(covers_group m o hp).2]
        rfl
    · obtain rfl := mem_singleton.mp hj
      exact id
    · obtain rfl := mem_singleton.mp hk
      exact id
  | group d g =>
    dsimp only [Machine.exec]
    split
    · exact .idle fun _ hj => absurd hj not_mem_nil
    split
    · refine .idle fun j hj p => ?_
      obtain ⟨e, -, rfl⟩ := mem_map.mp hj
      exact id
    · refine .single fun p hp => ?_
      rwa [Task.covers, append_nil] at hp
  | claiming todo claimed =>
    rcases todo with _ | ⟨e, rest⟩
    · exact splits_claimed m o ok hs
    dsimp only [Machine.exec]
    split
    · refine .single fun p hp => ?_
      simp only [Task.covers, map_append, map_cons, mem_append, mem_cons] at hp ⊢
      tauto
    · refine .single fun p hp => ?_
      exact mem_cons_of_mem _ hp
  | final e =>
    refine .handOut (fun a ha => mem_singleton.mp ha) (nodup_singleton _) fun j hj a => ?_
    obtain rfl := mem_singleton.mp hj
    exact id
  | active batch =>
    refine .handOut (fun a ha => ha) hs.1 fun j hj a => ?_
    obtain ⟨e, -, rfl⟩ := mem_map.mp hj
    exact id
  | expire p | removeFinal p => exact hr _ p
  | unclaim p | orphan b =>
    dsimp only [Machine.exec]
    split <;> exact .idle fun _ hj => absurd hj not_mem_nil
  | orphans =>
    refine .idle fun j hj p => ?_
    obtain ⟨b, -, rfl⟩ := mem_map.mp hj
    exact id

lemma sound_exec (hs : i.Sound) : ∀ j ∈ (m.exec o ok i).more, j.Sound ∧ j ≠ .top := by
  have hr : ∀ p, ∀ j ∈ (m.removing p ok).more, j.Sound ∧ j ≠ .top := by
    intro p j hj
    unfold Machine.removing at hj
    split at hj <;> cases hj
  intro j hj
  cases i with
  | top =>
    obtain ⟨t, -, rfl⟩ := mem_map.mp hj
    exact ⟨trivial, Task.noConfusion⟩
  | tld t =>
    obtain ⟨d, -, rfl⟩ := mem_map.mp hj
    exact ⟨trivial, Task.noConfusion⟩
  | dir t d =>
    rcases mem_append.mp hj with hj | hj
    · obtain ⟨id, -, rfl⟩ := mem_map.mp hj
      exact ⟨sound_group m.files o t d id, Task.noConfusion⟩
    · obtain rfl := mem_singleton.mp hj
      exact ⟨trivial, Task.noConfusion⟩
  | group d g =>
    dsimp only [Machine.exec] at hj
    split at hj
    · cases hj
    split at hj
    · obtain ⟨e, -, rfl⟩ := mem_map.mp hj
      exact ⟨trivial, Task.noConfusion⟩
    obtain rfl := mem_singleton.mp hj
    refine ⟨?_, Task.noConfusion⟩
    rw [Task.Sound, append_nil]
    exact hs
  | claiming todo claimed =>
    rcases todo with _ | ⟨e, rest⟩
    · rcases mem_append.mp hj with hj | hj
      · obtain ⟨e, he, rfl⟩ := mem_map.mp hj
        exact ⟨hs.2 e (mem_of_mem_filter he), Task.noConfusion⟩
      split at hj
      · cases hj
      · obtain rfl := mem_singleton.mp hj
        exact ⟨hs.sublist filter_sublist, Task.noConfusion⟩
    · dsimp only [Machine.exec] at hj
      split at hj
      · obtain rfl := mem_singleton.mp hj
        have hp : (rest ++ (claimed ++ [e])).Perm (e :: (rest ++ claimed)) := by
          rw [← append_assoc]
          exact perm_append_singleton e _
        refine ⟨⟨?_, fun e' he' => hs.2 e' (hp.mem_iff.mp he')⟩, Task.noConfusion⟩
        exact (hp.map Entry.path).nodup_iff.mpr hs.1
      · obtain rfl := mem_singleton.mp hj
        exact ⟨hs.sublist (sublist_cons_self _ _), Task.noConfusion⟩
  | final e =>
    obtain rfl := mem_singleton.mp hj
    exact ⟨trivial, Task.noConfusion⟩
  | active batch =>
    obtain ⟨e, -, rfl⟩ := mem_map.mp hj
    exact ⟨trivial, Task.noConfusion⟩
  | expire p | removeFinal p => exact hr p j hj
  | unclaim p | orphan b =>
    dsimp only [Machine.exec] at hj
    split at hj <;> cases hj
  | orphans =>
    obtain ⟨b, -, rfl⟩ := mem_map.mp hj
    exact ⟨trivial, Task.noConfusion⟩

end Footprints

section Envelopes

variable {m : Machine} {envs : List EnvFile}

lemma Tracks.of_eq (h : Tracks m envs) (hf : m'.files = m.files) (hr : m'.removed = m.removed)
    (hq : m'.queued = m.queued) : Tracks m' envs where
  files := by rw [hf]; exact h.files
  distinct := h.distinct
  queued := by rw [hq]; exact h.queued
  kept := by rw [hr, hq]; exact h.kept
  removed := by rw [hr, hq]; exact h.removed
  same := by rw [hq]; exact h.same
  claimed_dir := h.claimed_dir

lemma Tracks.removing (h : Tracks m envs) (rest : List Task) (p : Path) (ok : Bool) :
    ∃ envs', Tracks (m.after rest (m.removing p ok)) envs' := by
  unfold Machine.removing
  split
  case isTrue ht =>
    obtain ⟨envs', h'⟩ := h.remove ht.2
    exact ⟨envs', h'.of_eq rfl rfl rfl⟩
  case isFalse => exact ⟨envs, h.of_eq rfl (append_nil _) rfl⟩

-- A claim only renames: the envelope is the same, with another name.
lemma Tracks.claim (h : Tracks m envs) {e : Entry} (hs : e.Sound) (ht : (contentAt m.files e.path).isSome) :
    ∃ envs', Tracks { m with files := rename m.files e.path (claimedPath e.path) } envs' := by
  obtain ⟨f, hf, hn⟩ := h.exists_of_isSome ht
  have hfl : f.delivering = false := by
    rw [← hasSuffix_fileOf, hn]
    exact hs.plain
  have hp : e.path = f.path := by rw [← hn, fileOf_unclaimed hfl]
  have hc : ({ f with delivering := true } : EnvFile).delivering = true := rfl
  have hd : f.dir.length = 2 := by
    have hl := hs.dir
    rw [hp] at hl
    exact hl
  refine ⟨_, h.mark true hf hd ?_⟩
  rw [hn, fileOf_claimed hc, hp]
  rfl

lemma Tracks.exec (h : Tracks m envs) (o : Outside) (ok : Bool) (rest : List Task) (hs : i.Sound) :
    ∃ envs', Tracks (m.after rest (m.exec o ok i)) envs' := by
  have hi : ∀ more, Tracks (m.after rest (m.thenDo more)) envs := fun more => h.of_eq rfl (append_nil _) rfl
  cases i with
  | top | tld t | dir t d | orphans => exact ⟨envs, hi _⟩
  | group d g =>
    dsimp only [Machine.exec]
    split
    · exact ⟨envs, hi _⟩
    · split <;> exact ⟨envs, hi _⟩
  | claiming todo claimed =>
    rcases todo with _ | ⟨e, more⟩
    · exact ⟨envs, hi _⟩
    dsimp only [Machine.exec]
    split
    case isTrue ht =>
      obtain ⟨envs', h'⟩ := h.claim (hs.2 e mem_cons_self) ht.2
      exact ⟨envs', h'.of_eq rfl (append_nil _) rfl⟩
    case isFalse => exact ⟨envs, hi _⟩
  | final e | active batch => exact ⟨envs, h.of_eq rfl (append_nil _) rfl⟩
  | expire p | removeFinal p => exact h.removing rest p ok
  | unclaim p =>
    dsimp only [Machine.exec]
    split
    · obtain ⟨envs', h', -⟩ := h.unclaim p
      exact ⟨envs', h'.of_eq rfl (append_nil _) rfl⟩
    · exact ⟨envs, hi _⟩
  | orphan b =>
    dsimp only [Machine.exec]
    split
    · exact ⟨envs, hi _⟩
    · exact ⟨envs, h.of_eq rfl (append_nil _) rfl⟩

lemma Tracks.mailRemote (h : Tracks m envs) (p : Path) : ∃ envs', Tracks (m.mailRemote p) envs' := by
  unfold Machine.mailRemote
  split
  case isTrue ht =>
    obtain ⟨envs', h'⟩ := h.remove ht
    rw [originalPath_claimedPath] at h'
    exact ⟨envs', h'⟩
  case isFalse => exact ⟨envs, h⟩

lemma Tracks.queue (h : Tracks m envs) (hf : f.delivering = false)
    (hfr : f.path ∉ m.queued.map EnvFile.path) : Tracks (m.queue f) (f :: envs) where
  files file := by
    rw [Machine.queue, mem_cons, h.files, exists_mem_cons_iff, eq_comm]
  distinct := nodup_cons.mpr ⟨fun hm => hfr ((h.kept f.path).mp hm).1, h.distinct⟩
  queued := nodup_cons.mpr ⟨hfr, h.queued⟩
  kept p := by
    have hr : f.path ∉ m.removed := fun hm => hfr (h.removed f.path hm)
    rw [map_cons, mem_cons, h.kept, Machine.queue, map_cons, mem_cons]
    constructor
    · rintro (rfl | ⟨hq, hk⟩)
      · exact ⟨.inl rfl, hr⟩
      · exact ⟨.inr hq, hk⟩
    · rintro ⟨rfl | hq, hk⟩
      · exact .inl rfl
      · exact .inr ⟨hq, hk⟩
  removed p hp := mem_cons_of_mem _ (h.removed p hp)
  same g hg := by
    rcases mem_cons.mp hg with rfl | hg
    · exact ⟨g, mem_cons_self, rfl, rfl⟩
    · obtain ⟨g', hg', heq⟩ := h.same g hg
      exact ⟨g', mem_cons_of_mem _ hg', heq⟩
  claimed_dir g hg hc := by
    rcases mem_cons.mp hg with rfl | hg
    · rw [hf] at hc
      cases hc
    · exact h.claimed_dir g hg hc

lemma Tracks.holding (s : QueueContent) : Tracks (.holding s) s.envs where
  files file := mem_map
  distinct := s.distinct
  queued := s.distinct
  kept p := by simp [Machine.holding]
  removed _ hp := absurd hp not_mem_nil
  same f hf := ⟨f, hf, rfl, rfl⟩
  claimed_dir := s.claimed_dir

end Envelopes

def Recovery.covers : Recovery → Path → Prop
  | .top, p => p.1.length = 2
  | .tld t, p => ∃ d, p.1 = [t, d]
  | .dir t d, p => p.1 = [t, d]
  | .file q, p => p = q

def Machine.Pending (m : Machine) : Prop :=
  Task.top ∈ m.todo → ∀ file ∈ m.files, hasSuffix deliveringSuffix file.1.2 = true → ∃ i ∈ m.recovery, i.covers file.1

-- Tasks cover distinct envelopes, so none is handed out twice.
structure Machine.Inv (m : Machine) : Prop where
  tracks : ∃ envs, Tracks m envs
  work : WorkList Task.covers m.todo m.handed
  sound : ∀ i ∈ m.todo, i.Sound
  top : Task.top ∈ m.todo → m.todo = [.top]
  pending : m.Pending

namespace Machine.Inv

variable {m : Machine}

lemma holding (s : QueueContent) : (Machine.holding s).Inv where
  tracks := ⟨s.envs, .holding s⟩
  work := ⟨nodup_nil, List.Pairwise.nil, fun _ hi => absurd hi not_mem_nil⟩
  sound _ hi := absurd hi not_mem_nil
  top hi := absurd hi not_mem_nil
  pending hi := absurd hi not_mem_nil

lemma start (h : m.Inv) : m.start.Inv where
  tracks := h.tracks.imp fun _ ht => ht.of_eq rfl rfl rfl
  work := WorkList.start Task.top
  sound i hi := by
    obtain rfl := mem_singleton.mp hi
    trivial
  top _ := rfl
  pending _ file hfi hs := by
    obtain ⟨envs, ht⟩ := h.tracks
    obtain ⟨f, hf, rfl⟩ := (ht.files file).mp hfi
    rw [hasSuffix_fileOf] at hs
    exact ⟨.top, mem_singleton_self _, ht.claimed_dir f hf hs⟩

lemma crash (h : m.Inv) : m.crash.Inv where
  tracks := h.tracks.imp fun _ ht => ht.of_eq rfl rfl rfl
  work := h.work.stop
  sound _ hi := absurd hi not_mem_nil
  top hi := absurd hi not_mem_nil
  pending hi := absurd hi not_mem_nil

lemma mailRemote (h : m.Inv) (p : Path) : (m.mailRemote p).Inv := by
  obtain ⟨envs, ht⟩ := h.tracks
  have hf : ∀ file ∈ (m.mailRemote p).files, file ∈ m.files := by
    intro file hfi
    unfold Machine.mailRemote at hfi
    split at hfi
    · exact (mem_removeFile.mp hfi).1
    · exact hfi
  have hs : (m.mailRemote p).todo = m.todo ∧ (m.mailRemote p).handed = m.handed ∧
      (m.mailRemote p).recovery = m.recovery := by
    unfold Machine.mailRemote
    split <;> exact ⟨rfl, rfl, rfl⟩
  obtain ⟨hto, hh, hr⟩ := hs
  refine ⟨ht.mailRemote p, ?_, ?_, ?_, ?_⟩
  · rw [hto, hh]
    exact h.work
  · rw [hto]
    exact h.sound
  · rw [hto]
    exact h.top
  intro htop file hfi hsu
  rw [hto] at htop
  rw [hr]
  exact h.pending htop file (hf file hfi) hsu

lemma queue (h : m.Inv) (hf : f.delivering = false) (hfr : f.path ∉ m.queued.map EnvFile.path) :
    (m.queue f).Inv where
  tracks := by
    obtain ⟨envs, ht⟩ := h.tracks
    exact ⟨f :: envs, ht.queue hf hfr⟩
  work := h.work
  sound := h.sound
  top := h.top
  pending htop file hfi hs := by
    rcases mem_cons.mp hfi with rfl | hfi
    · rw [hasSuffix_fileOf, hf] at hs
      cases hs
    · exact h.pending htop file hfi hs

lemma exec (h : m.Inv) {rest : List Task} (hto : m.todo = i :: rest) (o : Outside) (ok : Bool) :
    (m.after rest (m.exec o ok i)).Inv := by
  have hs := h.sound i (by rw [hto]; exact mem_cons_self)
  obtain ⟨envs, ht⟩ := h.tracks
  have hm := sound_exec m o ok hs
  -- the whole scan is not begun again
  have hn : Task.top ∉ (m.exec o ok i).more ++ rest := by
    intro hmem
    rcases mem_append.mp hmem with hmem | hmem
    · exact (hm .top hmem).2 rfl
    have hw := h.top (by rw [hto]; exact mem_cons_of_mem _ hmem)
    rw [hto] at hw
    rw [(List.cons.inj hw).2] at hmem
    cases hmem
  refine ⟨ht.exec o ok rest hs, ?_, ?_, fun hmem => absurd hmem hn, fun hmem => absurd hmem hn⟩
  · have hwo := h.work
    rw [hto] at hwo
    exact hwo.step (splits_exec m o ok hs)
  intro j hj
  rcases mem_append.mp hj with hj | hj
  · exact (hm j hj).1
  · exact h.sound j (by rw [hto]; exact mem_cons_of_mem _ hj)

variable {rest : List Recovery}

lemma expand (h : m.Inv) {i : Recovery} {more : List Recovery} (hr : m.recovery = i :: rest)
    (hm : ∀ file ∈ m.files, hasSuffix deliveringSuffix file.1.2 = true →
      i.covers file.1 → ∃ j ∈ more, j.covers file.1) :
    ({ m with recovery := more ++ rest } : Machine).Inv where
  tracks := h.tracks.imp fun _ ht => ht.of_eq rfl rfl rfl
  work := h.work
  sound := h.sound
  top := h.top
  pending htop file hf hs := by
    obtain ⟨j, hj, hc⟩ := h.pending htop file hf hs
    rw [hr] at hj
    rcases mem_cons.mp hj with rfl | hj
    · obtain ⟨k, hk, hc⟩ := hm file hf hs hc
      exact ⟨k, mem_append_left _ hk, hc⟩
    · exact ⟨j, mem_append_right _ hj, hc⟩

lemma recoverFile (h : m.Inv) {p : Path} (hr : m.recovery = .file p :: rest) :
    (m.recoverNext rest (.file p)).Inv := by
  obtain ⟨envs, ht⟩ := h.tracks
  obtain ⟨envs', ht', hc⟩ := ht.unclaim p
  refine ⟨⟨envs', ht'.of_eq rfl rfl rfl⟩, h.work, h.sound, h.top, fun htop file hfi hs => ?_⟩
  obtain ⟨f, hf, rfl⟩ := (ht'.files file).mp hfi
  rw [hasSuffix_fileOf] at hs
  obtain ⟨hm, hne⟩ := hc f hf hs
  obtain ⟨j, hj, hco⟩ := h.pending htop _ ((ht.files _).mpr ⟨f, hm, rfl⟩) (by rw [hasSuffix_fileOf, hs])
  rw [hr] at hj
  rcases mem_cons.mp hj with rfl | hj
  · exact absurd hco hne
  · exact ⟨j, hj, hco⟩

lemma recoverNext (h : m.Inv) {i : Recovery} (hr : m.recovery = i :: rest) :
    (m.recoverNext rest i).Inv := by
  cases i with
  | top =>
    refine h.expand hr fun file hf _ hc => ?_
    obtain ⟨t, d, hd⟩ := length_eq_two.mp hc
    exact ⟨.tld t, mem_map_of_mem (mem_tlds_of_mem hf hd), d, hd⟩
  | tld t =>
    refine h.expand hr fun file hf _ ⟨d, hd⟩ => ?_
    exact ⟨.dir t d, mem_map_of_mem (mem_domains_of_mem hf hd), hd⟩
  | dir t d =>
    refine h.expand hr fun file hf hs hd => ?_
    have hn := mem_names.mpr ⟨file, hf, Prod.ext hd rfl⟩
    exact ⟨_, mem_map_of_mem (mem_filter.mpr ⟨hn, hs⟩), Prod.ext hd rfl⟩
  | file p => exact h.recoverFile hr

lemma step (h : m.Inv) {a : Action} (hs : m.step a = some m') : m'.Inv := by
  cases a with
  | start =>
    simp only [Machine.step] at hs
    split_ifs at hs
    exact Option.some.inj hs ▸ h.start
  | next o ok =>
    simp only [Machine.step, Machine.next] at hs
    split at hs
    case h_1 i rest hr => exact Option.some.inj hs ▸ h.recoverNext hr
    case h_2 i rest hr hto => exact Option.some.inj hs ▸ h.exec hto o ok
    case h_3 => cases hs
  | mailRemote p =>
    simp only [Machine.step] at hs
    split_ifs at hs
    exact Option.some.inj hs ▸ h.mailRemote p
  | crash => exact Option.some.inj hs ▸ h.crash
  | body b =>
    cases hs
    exact ⟨h.tracks.imp fun _ ht => ht.of_eq rfl rfl rfl, h.work, h.sound, h.top, h.pending⟩
  | envelope f =>
    simp only [Machine.step] at hs
    split_ifs at hs with hre
    rw [not_or] at hre
    exact Option.some.inj hs ▸ h.queue (Bool.eq_false_iff.mpr hre.1) hre.2

-- When nothing is left to recover, no name has the suffix of a claim.
lemma asQueued (h : m.Inv) (hd : m.Recovered) : m.AsQueued := by
  obtain ⟨envs, ht⟩ := h.tracks
  have hu : ∀ f ∈ envs, fileOf f = (f.path, f.content) := by
    intro f hf
    rcases hfl : f.delivering with _ | _
    · exact Prod.ext (fileOf_unclaimed hfl) rfl
    obtain ⟨j, hj, -⟩ := h.pending (by rw [hd.2]; exact mem_singleton_self _) _
      ((ht.files _).mpr ⟨f, hf, rfl⟩) (by rw [hasSuffix_fileOf, hfl])
    rw [hd.1] at hj
    cases hj
  intro file
  rw [ht.files]
  constructor
  · rintro ⟨f, hf, rfl⟩
    obtain ⟨g, hg, hp, hc⟩ := ht.same f hf
    refine ⟨g, hg, ?_, ?_⟩
    · rw [hp]
      exact ((ht.kept f.path).mp (mem_map_of_mem hf)).2
    · rw [hu f hf, hp, hc]
  · rintro ⟨g, hg, hk, rfl⟩
    obtain ⟨f, hf, hp⟩ := mem_map.mp ((ht.kept g.path).mpr ⟨mem_map_of_mem hg, hk⟩)
    obtain ⟨g', hg', hpa, hc⟩ := ht.same f hf
    obtain rfl := inj_on_of_nodup_map ht.queued hg' hg (hpa.trans hp)
    exact ⟨f, hf, by rw [hu f hf, hpa, hc]⟩

end Machine.Inv

-- Recovery goes down the tree.
def Recovery.rank : Recovery → Nat
  | .top => 3
  | .tld _ => 2
  | .dir _ _ => 1
  | .file _ => 0

lemma recoverNext_eq (m : Machine) (rest : List Recovery) (i : Recovery) :
    ∃ more, (∀ j ∈ more, j.rank < i.rank) ∧ (m.recoverNext rest i).recovery = more ++ rest ∧
      (m.recoverNext rest i).todo = m.todo ∧ (m.recoverNext rest i).removed = m.removed ∧
      (m.recoverNext rest i).queued = m.queued := by
  have hm : ∀ {keys : List Bytes} {f : Bytes → Recovery} {n : Nat}, (∀ k, (f k).rank < n) →
      ∀ j ∈ keys.map f, j.rank < n := by
    intro keys f n hr j hj
    obtain ⟨k, -, rfl⟩ := mem_map.mp hj
    exact hr k
  cases i with
  | top =>
    refine ⟨(tlds m.files).map .tld, hm fun t => ?_, rfl, rfl, rfl, rfl⟩
    exact Nat.lt_succ_self 2
  | tld t =>
    refine ⟨(domains m.files t).map (.dir t), hm fun d => ?_, rfl, rfl, rfl, rfl⟩
    exact Nat.lt_succ_self 1
  | dir t d =>
    refine ⟨_, hm (f := fun name => .file ([t, d], name)) fun name => ?_, rfl, rfl, rfl, rfl⟩
    exact Nat.lt_succ_self 0
  | file p => exact ⟨[], fun _ hj => absurd hj not_mem_nil, rfl, rfl, rfl, rfl⟩

lemma recovery_drains (n : Nat) {m : Machine} (tasks rest : List Recovery) (hr : ∀ i ∈ tasks, i.rank < n)
    (hre : m.recovery = tasks ++ rest) :
    ∃ m', Reaches Machine.step (fun _ _ => True) m m' ∧ m'.recovery = rest ∧ m'.todo = m.todo ∧
      m'.removed = m.removed ∧ m'.queued = m.queued := by
  -- by the rank of the tasks, and then one task after another
  induction n generalizing m tasks rest with
  | zero =>
    obtain rfl : tasks = [] := eq_nil_iff_forall_not_mem.mpr fun i hi => absurd (hr i hi) (Nat.not_lt_zero _)
    exact ⟨m, .refl, hre, rfl, rfl, rfl⟩
  | succ n ih =>
    induction tasks generalizing m with
    | nil => exact ⟨m, .refl, hre, rfl, rfl, rfl⟩
    | cons i tasks ihTasks =>
      obtain ⟨more, hm, hn, ht, hrm, hq⟩ := recoverNext_eq m _ i
      have hs : m.step (.next (.steady 0 fun _ => false) true) = some (m.recoverNext (tasks ++ rest) i) := by
        rw [Machine.step, Machine.next, hre]
        rfl
      have hi := hr i mem_cons_self
      obtain ⟨m₁, hreach₁, hrecovery₁, htodo₁, hremoved₁, hqueued₁⟩ :=
        ih more _ (fun j hj => by have := hm j hj; omega) hn
      obtain ⟨m₂, hreach₂, hrecovery₂, htodo₂, hremoved₂, hqueued₂⟩ :=
        ihTasks (fun j hj => hr j (mem_cons_of_mem _ hj)) hrecovery₁
      refine ⟨m₂, ?_, hrecovery₂, ?_, ?_, ?_⟩
      · exact (Reaches.refl.tail _ trivial hs).trans (hreach₁.trans hreach₂)
      · rw [htodo₂, htodo₁, ht]
      · rw [hremoved₂, hremoved₁, hrm]
      · rw [hqueued₂, hqueued₁, hq]

section Sample

def sampleEnvelope : QueueEnvelope := ⟨0, 0, ascii "a@a.org", ascii "b@b.org", ascii "m", ascii "a@a.org"⟩

def sampleEnvFile : EnvFile := ⟨[ascii "org", ascii "b"], ascii "b@m.0", false, some sampleEnvelope, by decide +kernel⟩

def sampleQueue : QueueContent where
  dirs := [(ascii "org", ascii "b")]
  bodies := [⟨[ascii "org", ascii "a"], ascii "m", []⟩]
  envs := [sampleEnvFile]
  dirs_nodup := List.nodup_singleton _
  distinct := List.nodup_singleton _
  claimed_dir f hf hclaimed := by
    rw [List.mem_singleton.mp hf] at hclaimed
    cases hclaimed

def sampleActions : List Action := .start :: List.replicate 10 (.next (.steady 0 fun _ => true) true)

end Sample

end Maildancer.Scheduler

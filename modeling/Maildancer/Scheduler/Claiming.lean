import Maildancer.Scheduler.Run
import Maildancer.Transition
import Maildancer.WorkList

namespace Maildancer.Scheduler

open List Text Queue

abbrev File := Path × Option QueueEnvelope

def fileOf (f : EnvFile) : File := ((f.dir, f.fileName), f.content)

def claimedPath (p : Path) : Path := (p.1, p.2 ++ deliveringSuffix)

def originalPath (p : Path) : Path := (p.1, trimSuffix deliveringSuffix p.2)

section Files

variable (files : List File)

def contentAt (p : Path) : Option (Option QueueEnvelope) := (files.find? fun f => f.1 = p).map Prod.snd

-- os.Rename replaces what has the new name already.
def rename (src dst : Path) : List File :=
  match contentAt files src with
  | none => files
  | some content => (dst, content) :: files.filter fun f => f.1 ≠ src ∧ f.1 ≠ dst

def removeFile (p : Path) : List File := files.filter fun f => f.1 ≠ p

-- os.ReadDir returns each name once, in order.
def inOrder (names : List Bytes) : List Bytes := names.dedup.insertionSort (· ≤ ·)

def tlds : List Bytes :=
  inOrder (files.filterMap fun f => match f.1.1 with
    | [tld, _] => some tld
    | _ => none)

def domains (tld : Bytes) : List Bytes :=
  inOrder (files.filterMap fun f => match f.1.1 with
    | [t, domain] => if t = tld then some domain else none
    | _ => none)

def names (dir : List Bytes) : List Bytes := inOrder ((files.filter fun f => f.1.1 = dir).map fun f => f.1.2)

def bodyHasFiles (msgid : Bytes) : Bool :=
  files.any fun f => f.1.1.length = 2 && contains (atSign :: (msgid ++ [dot])) f.1.2

def pickFile (o : Outside) (dir : List Bytes) (name : Bytes) : Option (Bytes × Entry) :=
  match extractMsgId name, contentAt files (dir, name) with
  | some msgid, some (some env) =>
    if expired (o.now (dir, name)) env || o.isReady (dir, name) then
      some (msgid, ⟨(dir, name), expired (o.now (dir, name)) env, env⟩)
    else none
  | _, _ => none

end Files

inductive Recovery
  | top
  | tld (tld : Bytes)
  | dir (tld domain : Bytes)
  | file (p : Path)

inductive Task
  | top
  | tld (tld : Bytes)
  | dir (tld domain : Bytes)
  | group (d : Bytes × Bytes) (g : Group)
  | expire (p : Path)
  | claiming (todo claimed : List Entry)
  | final (e : Entry)
  | removeFinal (p : Path)
  | active (batch : List Entry)
  | unclaim (p : Path)
  | orphans
  | orphan (b : BodyFile)

-- The queue on disk with the scheduler at work on it. Beside it, the envelopes that were ever queued, those
-- that were removed, those that this run has handed to mail-remote, and those that any mail-remote was given.
structure Machine where
  files : List File
  bodies : List BodyFile
  recovery : List Recovery
  todo : List Task
  handed : List Path
  given : List Path
  removed : List Path
  queued : List EnvFile

structure Effect where
  files : List File
  bodies : List BodyFile
  more : List Task
  handed : List Path
  removed : List Path

namespace Machine

variable (m : Machine)

def thenDo (more : List Task) : Effect := ⟨m.files, m.bodies, more, [], []⟩

def removing (p : Path) (ok : Bool) : Effect :=
  if ok ∧ (contentAt m.files p).isSome then ⟨removeFile m.files p, m.bodies, [], [], [originalPath p]⟩
  else m.thenDo []

-- One task up to the next change of the queue. Whether the rename or the removal goes through is given.
def exec (o : Outside) (ok : Bool) : Task → Effect
  | .top => m.thenDo ((tlds m.files).map .tld)
  | .tld tld => m.thenDo ((domains m.files tld).map (.dir tld))
  | .dir tld domain =>
    let picked := (names m.files [tld, domain]).filterMap (pickFile m.files o [tld, domain])
    m.thenDo ((o.order (picked.map Prod.fst).dedup).map
      (fun id => .group (tld, domain) (group picked id)) ++ [.orphans])
  | .group d g =>
    if !o.allow (domainFromPath d) g.msgid then m.thenDo []
    else match resolveBody m.bodies g.msgid with
      | none => m.thenDo ((g.entries.filter Entry.expired).map fun e => .expire e.path)
      | some _ => m.thenDo [.claiming g.entries []]
  | .expire p => m.removing p ok
  | .claiming (e :: rest) claimed =>
    if ok ∧ (contentAt m.files e.path).isSome then
      { m.thenDo [.claiming rest (claimed ++ [e])] with files := rename m.files e.path (claimedPath e.path) }
    else m.thenDo [.claiming rest claimed]
  | .claiming [] claimed =>
    let active := claimed.filter fun e => !e.expired
    m.thenDo ((claimed.filter Entry.expired).map .final ++ if active = [] then [] else [.active active])
  | .final e => { m.thenDo [.removeFinal (claimedPath e.path)] with handed := [e.path] }
  | .removeFinal p => m.removing p ok
  | .active batch =>
    { m.thenDo (batch.map fun e => .unclaim (claimedPath e.path)) with handed := batch.map Entry.path }
  | .unclaim p => if ok then { m.thenDo [] with files := rename m.files p (originalPath p) } else m.thenDo []
  | .orphans =>
    m.thenDo ((m.bodies.filter fun b => b.dir.length = 2 && !hasPrefix (ascii "tmp_") b.name).map .orphan)
  | .orphan b =>
    if bodyHasFiles m.files b.name || !ok then m.thenDo []
    else { m.thenDo [] with bodies := m.bodies.filter fun b' => b' ≠ b }

def after (rest : List Task) (e : Effect) : Machine :=
  { m with
    files := e.files
    bodies := e.bodies
    todo := e.more ++ rest
    handed := m.handed ++ e.handed
    given := m.given ++ e.handed
    removed := m.removed ++ e.removed }

def recoverNext (rest : List Recovery) : Recovery → Machine
  | .top => { m with recovery := (tlds m.files).map .tld ++ rest }
  | .tld tld => { m with recovery := (domains m.files tld).map (.dir tld) ++ rest }
  | .dir tld domain =>
    let claimed := (names m.files [tld, domain]).filter fun name => hasSuffix deliveringSuffix name
    { m with recovery := claimed.map (fun name => .file ([tld, domain], name)) ++ rest }
  | .file p => { m with files := rename m.files p (originalPath p), recovery := rest }

def next (o : Outside) (ok : Bool) : Option Machine :=
  match m.recovery, m.todo with
  | i :: rest, _ => some (m.recoverNext rest i)
  | [], i :: rest => some (m.after rest (m.exec o ok i))
  | [], [] => none

def crash : Machine := { m with recovery := [], todo := [] }

-- RunOnce
def start : Machine := { m with recovery := [.top], todo := [.top], handed := [] }

-- mail-remote removes an envelope that it was given, at any later time.
def mailRemote (p : Path) : Machine :=
  if (contentAt m.files (claimedPath p)).isSome then
    { m with files := removeFile m.files (claimedPath p), removed := m.removed ++ [p] }
  else m

-- Write meanwhile queues an envelope under a name that was never there.
def queue (f : EnvFile) : Machine := { m with files := fileOf f :: m.files, queued := f :: m.queued }

end Machine

inductive Action
  | start
  | next (o : Outside) (ok : Bool)
  | mailRemote (p : Path)
  | crash
  | body (b : BodyFile)
  | envelope (f : EnvFile)

def Machine.step (m : Machine) : Action → Option Machine
  | .start => if m.recovery = [] ∧ m.todo = [] then some m.start else none
  | .next o ok => m.next o ok
  | .mailRemote p => if p ∈ m.given then some (m.mailRemote p) else none
  | .crash => some m.crash
  | .body b => some { m with bodies := b :: m.bodies }
  | .envelope f => if f.delivering = true ∨ f.path ∈ m.queued.map EnvFile.path then none else some (m.queue f)

structure QueueContent extends Spool where
  claimed_dir : ∀ f ∈ envs, f.delivering = true → f.dir.length = 2

def Machine.holding (s : QueueContent) : Machine where
  files := s.envs.map fileOf
  bodies := s.bodies
  recovery := []
  todo := []
  handed := []
  given := []
  removed := []
  queued := s.envs

def Machine.Recovered (m : Machine) : Prop := m.recovery = [] ∧ m.todo = [.top]

-- Each envelope that was not removed is there under its own name and no other, as it was queued.
def Machine.AsQueued (m : Machine) : Prop :=
  ∀ file, file ∈ m.files ↔ ∃ f ∈ m.queued, f.path ∉ m.removed ∧ file = (f.path, f.content)

lemma trimSuffix_append_self (name tail : Bytes) : trimSuffix tail (name ++ tail) = name := by
  have hs : hasSuffix tail (name ++ tail) = true := isSuffixOf_iff_suffix.mpr (suffix_append name tail)
  rw [trimSuffix, if_pos hs, length_append, Nat.add_sub_cancel, take_left]

section Names

variable {f g : EnvFile} {p : Path}

lemma fileOf_unclaimed (h : f.delivering = false) : (fileOf f).1 = f.path := by
  simp [fileOf, EnvFile.fileName, EnvFile.path, h]

lemma fileOf_claimed (h : f.delivering = true) : (fileOf f).1 = claimedPath f.path := by
  simp [fileOf, EnvFile.fileName, EnvFile.path, claimedPath, h]

lemma originalPath_claimedPath (p : Path) : originalPath (claimedPath p) = p :=
  Prod.ext rfl (trimSuffix_append_self p.2 deliveringSuffix)

lemma originalPath_fileOf (f : EnvFile) : originalPath (fileOf f).1 = f.path := by
  rcases h : f.delivering with _ | _
  · rw [fileOf_unclaimed h]
    have hp : ¬hasSuffix deliveringSuffix f.path.2 = true := by
      rw [show f.path.2 = f.name from rfl, f.plain]
      exact Bool.false_ne_true
    exact Prod.ext rfl (if_neg hp)
  · rw [fileOf_claimed h, originalPath_claimedPath]

lemma hasSuffix_fileOf (f : EnvFile) : hasSuffix deliveringSuffix (fileOf f).1.2 = f.delivering := by
  rcases h : f.delivering with _ | _
  · rw [fileOf_unclaimed h]
    exact f.plain
  · rw [fileOf_claimed h]
    exact isSuffixOf_iff_suffix.mpr (suffix_append _ _)

lemma path_eq_of_fileOf (h : (fileOf f).1 = (fileOf g).1) : f.path = g.path := by
  rw [← originalPath_fileOf f, h, originalPath_fileOf g]

end Names

section Disk

variable {files : List File} {file : File} {p src dst : Path} {content : Option QueueEnvelope}

lemma mem_of_contentAt (h : contentAt files p = some content) : (p, content) ∈ files := by
  obtain ⟨file, hf, rfl⟩ := Option.map_eq_some_iff.mp h
  have hp : file.1 = p := by simpa using List.find?_some hf
  rw [← hp]
  exact mem_of_find?_eq_some hf

lemma ne_of_contentAt (h : contentAt files p = none) (hf : file ∈ files) : file.1 ≠ p := by
  rw [contentAt, Option.map_eq_none_iff, List.find?_eq_none] at h
  simpa using h file hf

lemma mem_removeFile : file ∈ removeFile files p ↔ file ∈ files ∧ file.1 ≠ p := by
  simp [removeFile]

lemma rename_of_none (h : contentAt files src = none) : rename files src dst = files := by
  unfold rename
  rw [h]

lemma mem_rename (h : contentAt files src = some content) :
    file ∈ rename files src dst ↔ file = (dst, content) ∨ file ∈ files ∧ file.1 ≠ src ∧ file.1 ≠ dst := by
  unfold rename
  rw [h]
  simp

variable {name tld domain : Bytes}

lemma mem_inOrder {l : List Bytes} : name ∈ inOrder l ↔ name ∈ l := by
  rw [inOrder, mem_insertionSort, mem_dedup]

lemma nodup_inOrder (l : List Bytes) : (inOrder l).Nodup :=
  (perm_insertionSort _ _).nodup_iff.mpr l.nodup_dedup

lemma mem_names {dir : List Bytes} : name ∈ names files dir ↔ ∃ file ∈ files, file.1 = (dir, name) := by
  simp only [names, mem_inOrder, mem_map, mem_filter, decide_eq_true_eq]
  constructor
  · rintro ⟨file, ⟨hf, hd⟩, rfl⟩
    exact ⟨file, hf, Prod.ext hd rfl⟩
  · rintro ⟨file, hf, hp⟩
    exact ⟨file, ⟨hf, congrArg Prod.fst hp⟩, congrArg Prod.snd hp⟩

lemma mem_tlds_of_mem (hf : file ∈ files) (hd : file.1.1 = [tld, domain]) :
    tld ∈ tlds files :=
  mem_inOrder.mpr (mem_filterMap.mpr ⟨file, hf, by rw [hd]⟩)

lemma mem_domains_of_mem (hf : file ∈ files) (hd : file.1.1 = [tld, domain]) :
    domain ∈ domains files tld :=
  mem_inOrder.mpr (mem_filterMap.mpr ⟨file, hf, by rw [hd]; exact if_pos rfl⟩)

end Disk

-- The files are those of some of the queued envelopes, each under one of its
-- two names; the others have been removed.
structure Tracks (m : Machine) (envs : List EnvFile) : Prop where
  files : ∀ file, file ∈ m.files ↔ ∃ f ∈ envs, fileOf f = file
  distinct : (envs.map EnvFile.path).Nodup
  queued : (m.queued.map EnvFile.path).Nodup
  kept : ∀ p, p ∈ envs.map EnvFile.path ↔ p ∈ m.queued.map EnvFile.path ∧ p ∉ m.removed
  removed : ∀ p ∈ m.removed, p ∈ m.queued.map EnvFile.path
  same : ∀ f ∈ envs, ∃ g ∈ m.queued, g.path = f.path ∧ g.content = f.content
  claimed_dir : ∀ f ∈ envs, f.delivering = true → f.dir.length = 2

def marked (p : Path) (flag : Bool) (f : EnvFile) : EnvFile := if f.path = p then { f with delivering := flag } else f

lemma path_marked (p : Path) (flag : Bool) (f : EnvFile) : (marked p flag f).path = f.path := by
  unfold marked
  split <;> rfl

lemma content_marked (p : Path) (flag : Bool) (f : EnvFile) : (marked p flag f).content = f.content := by
  unfold marked
  split <;> rfl

lemma marked_of_ne {p : Path} {flag : Bool} {f : EnvFile} (h : f.path ≠ p) : marked p flag f = f := if_neg h

lemma marked_self (f : EnvFile) (flag : Bool) : marked f.path flag f = { f with delivering := flag } := if_pos rfl

namespace Tracks

variable {m : Machine} {envs : List EnvFile} {f g : EnvFile}

lemma eq_of_path (h : Tracks m envs) (hf : f ∈ envs) (hg : g ∈ envs) (hp : f.path = g.path) : f = g :=
  inj_on_of_nodup_map h.distinct hf hg hp

lemma exists_of_contentAt (h : Tracks m envs) {p : Path} {content : Option QueueEnvelope}
    (hc : contentAt m.files p = some content) : ∃ f ∈ envs, fileOf f = (p, content) :=
  (h.files _).mp (mem_of_contentAt hc)

lemma exists_of_isSome (h : Tracks m envs) {p : Path} (hs : (contentAt m.files p).isSome) :
    ∃ f ∈ envs, (fileOf f).1 = p := by
  obtain ⟨content, hc⟩ := Option.isSome_iff_exists.mp hs
  obtain ⟨f, hf, hfi⟩ := h.exists_of_contentAt hc
  exact ⟨f, hf, congrArg Prod.fst hfi⟩

lemma mark (h : Tracks m envs) {files : List File} (flag : Bool) (hf : f ∈ envs) (hd : f.dir.length = 2)
    (hfi : files = rename m.files (fileOf f).1 (fileOf { f with delivering := flag }).1) :
    Tracks { m with files := files } (envs.map (marked f.path flag)) := by
  have hc : ∃ content, contentAt m.files (fileOf f).1 = some content := by
    rw [← Option.isSome_iff_exists, ← Option.ne_none_iff_isSome]
    exact fun hn => ne_of_contentAt hn ((h.files _).mpr ⟨f, hf, rfl⟩) rfl
  obtain ⟨content, hc⟩ := hc
  have hs : content = f.content := by
    obtain ⟨g, hg, hfl⟩ := h.exists_of_contentAt hc
    have hna : (fileOf g).1 = (fileOf f).1 := by rw [hfl]
    have hp := path_eq_of_fileOf hna
    rw [h.eq_of_path hg hf hp] at hfl
    exact (congrArg Prod.snd hfl).symm
  have hnew : (fileOf { f with delivering := flag }) = ((fileOf { f with delivering := flag }).1, content) :=
    Prod.ext rfl hs.symm
  constructor
  · intro file
    rw [show ({ m with files := files } : Machine).files = files from rfl, hfi, mem_rename hc, ← hnew]
    constructor
    · rintro (rfl | ⟨hfl, hsrc, hdst⟩)
      · exact ⟨_, mem_map_of_mem hf, by rw [marked_self]⟩
      · obtain ⟨g, hg, rfl⟩ := (h.files file).mp hfl
        have hne : g.path ≠ f.path := fun hp => hsrc (congrArg (fun e => (fileOf e).1) (h.eq_of_path hg hf hp))
        exact ⟨_, mem_map_of_mem hg, by rw [marked_of_ne hne]⟩
    · rintro ⟨e, he, rfl⟩
      obtain ⟨g, hg, rfl⟩ := mem_map.mp he
      by_cases hp : g.path = f.path
      · rw [h.eq_of_path hg hf hp, marked_self]
        exact .inl rfl
      rw [marked_of_ne hp]
      refine .inr ⟨(h.files _).mpr ⟨g, hg, rfl⟩, fun hsrc => hp (path_eq_of_fileOf hsrc), fun hdst => hp ?_⟩
      have hpa := path_eq_of_fileOf hdst
      exact hpa
  · rw [map_map, show EnvFile.path ∘ marked f.path flag = EnvFile.path from funext fun g => path_marked _ _ g]
    exact h.distinct
  · exact h.queued
  · intro p
    rw [map_map, show EnvFile.path ∘ marked f.path flag = EnvFile.path from funext fun g => path_marked _ _ g]
    exact h.kept p
  · exact h.removed
  · intro e he
    obtain ⟨g, hg, rfl⟩ := mem_map.mp he
    rw [path_marked, content_marked]
    exact h.same g hg
  · intro e he hcl
    obtain ⟨g, hg, rfl⟩ := mem_map.mp he
    by_cases hp : g.path = f.path
    · rw [h.eq_of_path hg hf hp, marked_self]
      exact hd
    · rw [marked_of_ne hp] at hcl ⊢
      exact h.claimed_dir g hg hcl

lemma unclaim (h : Tracks m envs) (p : Path) :
    ∃ envs', Tracks { m with files := rename m.files p (originalPath p) } envs' ∧
      ∀ e ∈ envs', e.delivering = true → e ∈ envs ∧ (fileOf e).1 ≠ p := by
  cases hc : contentAt m.files p with
  | none =>
    rw [rename_of_none hc]
    refine ⟨envs, h, fun e he _ => ⟨he, ?_⟩⟩
    exact ne_of_contentAt hc ((h.files _).mpr ⟨e, he, rfl⟩)
  | some content =>
    obtain ⟨f, hf, hfi⟩ := h.exists_of_contentAt hc
    have hn : (fileOf f).1 = p := congrArg Prod.fst hfi
    cases hfl : f.delivering with
    | true =>
      have ho : originalPath p = (fileOf { f with delivering := false }).1 := by
        have hu : ({ f with delivering := false } : EnvFile).delivering = false := rfl
        rw [← hn, originalPath_fileOf]
        exact (fileOf_unclaimed hu).symm
      refine ⟨_, h.mark false hf (h.claimed_dir f hf hfl) (by rw [hn, ← ho]), fun e he hcl => ?_⟩
      obtain ⟨g, hg, rfl⟩ := mem_map.mp he
      by_cases hpa : g.path = f.path
      · rw [h.eq_of_path hg hf hpa, marked_self] at hcl
        cases hcl
      · rw [marked_of_ne hpa]
        exact ⟨hg, fun hot => hpa (path_eq_of_fileOf (hot.trans hn.symm))⟩
    | false =>
      -- the name has no suffix: it is renamed to itself
      have hs : originalPath p = p := by
        rw [← hn, originalPath_fileOf, fileOf_unclaimed hfl]
      refine ⟨envs, ⟨fun file => ?_, h.distinct, h.queued, h.kept, h.removed, h.same, h.claimed_dir⟩,
        fun e he hcl => ⟨he, fun hot => ?_⟩⟩
      · rw [← h.files, show ({ m with files := rename m.files p _ } : Machine).files =
          rename m.files p _ from rfl, mem_rename hc, hs]
        constructor
        · rintro (rfl | ⟨hfi, -, -⟩)
          · exact mem_of_contentAt hc
          · exact hfi
        intro hm
        by_cases hp : file.1 = p
        · obtain ⟨g, hg, rfl⟩ := (h.files file).mp hm
          have hpa := path_eq_of_fileOf (hp.trans hn.symm)
          rw [h.eq_of_path hg hf hpa]
          exact .inl hfi
        · exact .inr ⟨hm, hp, hp⟩
      · rw [h.eq_of_path he hf (path_eq_of_fileOf (hot.trans hn.symm)), hfl] at hcl
        cases hcl

lemma remove (h : Tracks m envs) {p : Path} (hs : (contentAt m.files p).isSome) :
    ∃ envs', Tracks { m with files := removeFile m.files p, removed := m.removed ++ [originalPath p] } envs' := by
  obtain ⟨f, hf, hn⟩ := h.exists_of_isSome hs
  have hp : ∀ g ∈ envs, (fileOf g).1 ≠ p ↔ g.path ≠ f.path := by
    intro g hg
    constructor
    · exact fun hne hpa => hne (by rw [h.eq_of_path hg hf hpa, hn])
    · exact fun hne hg' => hne (path_eq_of_fileOf (hg'.trans hn.symm))
  have ho : originalPath p = f.path := by rw [← hn, originalPath_fileOf]
  refine ⟨envs.filter fun g => g.path ≠ f.path, ?_, ?_, h.queued, ?_, ?_, ?_, ?_⟩
  · intro file
    rw [mem_removeFile, h.files]
    constructor
    · rintro ⟨⟨g, hg, rfl⟩, hne⟩
      exact ⟨g, mem_filter.mpr ⟨hg, by simpa using (hp g hg).mp hne⟩, rfl⟩
    · rintro ⟨g, hg, rfl⟩
      obtain ⟨hg, hne⟩ := mem_filter.mp hg
      exact ⟨⟨g, hg, rfl⟩, (hp g hg).mpr (by simpa using hne)⟩
  · exact h.distinct.sublist (filter_sublist.map _)
  · intro q
    have hk := h.kept q
    rw [ho, mem_append, mem_singleton, not_or, ← and_assoc, ← hk]
    simp only [mem_map, mem_filter, decide_eq_true_eq]
    constructor
    · rintro ⟨g, ⟨hg, hne⟩, rfl⟩
      exact ⟨⟨g, hg, rfl⟩, hne⟩
    · rintro ⟨⟨g, hg, rfl⟩, hne⟩
      exact ⟨g, ⟨hg, hne⟩, rfl⟩
  · intro q hq
    rcases mem_append.mp hq with hq | hq
    · exact h.removed q hq
    · rw [mem_singleton.mp hq, ho]
      exact ((h.kept f.path).mp (mem_map_of_mem hf)).1
  · exact fun g hg => h.same g (mem_of_mem_filter hg)
  · exact fun g hg => h.claimed_dir g (mem_of_mem_filter hg)

end Tracks

end Maildancer.Scheduler

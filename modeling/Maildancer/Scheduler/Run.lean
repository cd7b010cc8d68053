import Maildancer.Scheduler
import Maildancer.Queue.Names

namespace Maildancer.Scheduler

open List Text Queue

variable {p : Path} {bodies : List BodyFile}

lemma Outcome.mem_given {given : List Path} (out : Outcome given) (h : p ∈ out.deleted) : p ∈ given := by
  obtain ⟨r, hr, rfl, _⟩ := out.reported p h
  exact out.named r hr

variable {f : EnvFile} {g : Group}

section Files

variable (s : Spool)

lemma Spool.remove_remove (gone more : List Path) :
    ((s.remove gone).remove more).envs = (s.remove (gone ++ more)).envs := by
  simp only [Spool.remove, filter_filter]
  refine filter_congr fun f _ => ?_
  simp [Bool.and_comm]

lemma Spool.mark_remove (flag : EnvFile → Bool) (gone : List Path) : ((s.mark flag).remove gone).envs =
      (s.remove gone).envs.map fun f => { f with delivering := flag f } := by
  simp only [Spool.mark, Spool.remove, filter_map]
  rfl

lemma Spool.eq_of_path {g : EnvFile} (hf : f ∈ s.envs) (hg : g ∈ s.envs) (h : f.path = g.path) : f = g :=
  inj_on_of_nodup_map s.distinct hf hg h

end Files

-- A part of a run: the envelopes it removes, the mail-remote runs and the bounces
-- it adds. Nothing else is different at its end.
structure Changes (before after : Run) (gone : List Path) (invocations : List Invocation)
    (bounces : List Bounce) : Prop where
  dirs : after.spool.dirs = before.spool.dirs
  bodies : after.spool.bodies = before.spool.bodies
  envs : after.spool.envs = (before.spool.remove gone).envs
  invocations : after.invocations = before.invocations ++ invocations
  bounces : after.bounces = before.bounces ++ bounces

namespace Changes

variable {before middle after : Run} {gone more : List Path} {invs invs' : List Invocation}
  {bounces bounces' : List Bounce}

lemma refl (run : Run) : Changes run run [] [] [] where
  dirs := rfl
  bodies := rfl
  envs := by simp [Spool.remove]
  invocations := by simp
  bounces := by simp

lemma trans (h : Changes before middle gone invs bounces) (h' : Changes middle after more invs' bounces') :
    Changes before after (gone ++ more) (invs ++ invs') (bounces ++ bounces') where
  dirs := h'.dirs.trans h.dirs
  bodies := h'.bodies.trans h.bodies
  envs := by
    rw [h'.envs, ← Spool.remove_remove]
    simp [Spool.remove, h.envs]
  invocations := by rw [h'.invocations, h.invocations, append_assoc]
  bounces := by rw [h'.bounces, h.bounces, append_assoc]

lemma mem (h : Changes before after gone invs bounces) :
    f ∈ after.spool.envs ↔ f ∈ before.spool.envs ∧ f.path ∉ gone := by
  rw [h.envs]
  simp [Spool.remove]

lemma foldl {ι : Type*} {step : Run → ι → Run} (P : Run → Prop) (todo : List ι)
    {goneOf : ι → List Path} {invsOf : ι → List Invocation} {bouncesOf : ι → List Bounce}
    (hk : ∀ {run after gone invs bounces}, Changes run after gone invs bounces → P run → P after)
    (hs : ∀ run, ∀ i ∈ todo, P run → Changes run (step run i) (goneOf i) (invsOf i) (bouncesOf i))
    (run : Run) (hrun : P run) : Changes run (todo.foldl step run) (todo.flatMap goneOf) (todo.flatMap invsOf)
      (todo.flatMap bouncesOf) := by
  induction todo generalizing run with
  | nil => exact refl run
  | cons i todo ih =>
    have hf := hs run i mem_cons_self hrun
    have hr := ih (fun run i hi => hs run i (mem_cons_of_mem _ hi)) _ (hk hf hrun)
    exact hf.trans hr

end Changes

section Delivery

variable (cfg : Config) (o : Outside) (domain : Bytes) (entries : List Entry)

-- A rename that fails drops the envelope from the batch.
def claimedOf : List Entry := entries.filter fun e => o.claimable e.path

def expiredOf : List Entry := (claimedOf o entries).filter Entry.expired

def activeOf : List Entry := (claimedOf o entries).filter fun e => !e.expired

def finalResults (e : Entry) : List DeliveryResult := (o.mailRemote true [e.path]).results

-- The batch goes to one mail-remote, which removes what it has delivered.
def activeOutcome : Outcome ((activeOf o entries).map Entry.path) :=
  o.mailRemote false ((activeOf o entries).map Entry.path)

-- An expired envelope is removed after its last attempt whatever came of it.
def deliveryGone : List Path :=
  (expiredOf o entries).flatMap (fun e => [e.path]) ++ (activeOutcome o entries).deleted

def deliveryInvocations (body : BodyFile) : List Invocation :=
  (expiredOf o entries).flatMap (fun e => [⟨true, body, [e], finalResults o e⟩]) ++
    if activeOf o entries = [] then []
    else [⟨false, body, activeOf o entries, (activeOutcome o entries).results⟩]

def deliveryBounces : List Bounce :=
  (expiredOf o entries).flatMap (fun e =>
      generateDsnsForExpired cfg (claimedOf o entries) domain (finalResults o e)) ++
    generateDsnsForPermFail cfg (claimedOf o entries) domain (activeOutcome o entries).results

variable {o entries} {e : Entry}

lemma mem_claimedOf : e ∈ claimedOf o entries ↔ e ∈ entries ∧ o.claimable e.path = true :=
  mem_filter

lemma mem_expiredOf :
    e ∈ expiredOf o entries ↔ (e ∈ entries ∧ o.claimable e.path = true) ∧ e.expired = true := by
  rw [expiredOf, mem_filter, mem_claimedOf]

lemma mem_activeOf :
    e ∈ activeOf o entries ↔ (e ∈ entries ∧ o.claimable e.path = true) ∧ e.expired = false := by
  rw [activeOf, mem_filter, mem_claimedOf, Bool.not_eq_true']

end Delivery

section Steps

variable (cfg : Config) (o : Outside) (domain : Bytes) (body : BodyFile) (claimed : List Entry)

lemma finalAttempt_changes (run : Run) (e : Entry) :
    Changes run (finalAttempt cfg o domain body claimed run e) [e.path]
      [⟨true, body, [e], finalResults o e⟩]
      (generateDsnsForExpired cfg claimed domain (finalResults o e)) where
  dirs := rfl
  bodies := rfl
  envs := by
    simp only [finalAttempt, Spool.remove_remove]
    simp only [Spool.remove]
    refine filter_congr fun f _ => ?_
    by_cases he : f.path = e.path
    · simp [he]
    · have hn : f.path ∉ (o.mailRemote true [e.path]).deleted :=
        fun h => he (mem_singleton.mp ((o.mailRemote true [e.path]).mem_given h))
      simp [he, hn]
  invocations := rfl
  bounces := rfl

lemma activeOutcome_of_nil {o : Outside} {entries : List Entry} (h : activeOf o entries = []) :
    (activeOutcome o entries).deleted = [] ∧ (activeOutcome o entries).results = [] := by
  have hn : (activeOf o entries).map Entry.path = [] := by rw [h, map_nil]
  constructor
  · refine eq_nil_iff_forall_not_mem.mpr fun p hp => ?_
    simpa [hn] using (activeOutcome o entries).mem_given hp
  · refine eq_nil_iff_forall_not_mem.mpr fun r hr => ?_
    simpa [hn] using (activeOutcome o entries).named r hr

lemma claim_then_unclaim {o : Outside} {entries : List Entry}
    (hf : f.path ∈ entries.map Entry.path → f.delivering = false)
    (hk : f.path ∉ (expiredOf o entries).map Entry.path) :
    ((f.delivering || decide (f.path ∈ (claimedOf o entries).map Entry.path)) &&
      decide (f.path ∉ (activeOf o entries).map Entry.path)) = f.delivering := by
  by_cases hc : f.path ∈ (claimedOf o entries).map Entry.path
  · obtain ⟨e, he, hp⟩ := mem_map.mp hc
    have hex : e.expired = false := by
      rw [Bool.eq_false_iff]
      exact fun h => hk (mem_map.mpr ⟨e, mem_expiredOf.mpr ⟨mem_claimedOf.mp he, h⟩, hp⟩)
    have ha := mem_map.mpr ⟨e, mem_activeOf.mpr ⟨mem_claimedOf.mp he, hex⟩, hp⟩
    have hen := mem_map.mpr ⟨e, (mem_claimedOf.mp he).1, hp⟩
    simp [ha, hf hen]
  · have ha : f.path ∉ (activeOf o entries).map Entry.path := by
      intro h
      obtain ⟨e, he, hp⟩ := mem_map.mp h
      exact hc (mem_map.mpr ⟨e, mem_claimedOf.mpr (mem_activeOf.mp he).1, hp⟩)
    simp only [hc, ha, decide_false, Bool.or_false, not_false_eq_true, decide_true, Bool.and_true]

lemma activeAttempt_changes (entries : List Entry) (run : Run) : Changes run
      (if activeOf o entries = [] then run
        else activeAttempt cfg o domain body (claimedOf o entries) (activeOf o entries) run)
      (activeOutcome o entries).deleted
      (if activeOf o entries = [] then []
        else [⟨false, body, activeOf o entries, (activeOutcome o entries).results⟩])
      (generateDsnsForPermFail cfg (claimedOf o entries) domain (activeOutcome o entries).results) := by
  split_ifs with ha
  · obtain ⟨hd, hr⟩ := activeOutcome_of_nil ha
    rw [hd, hr]
    exact Changes.refl run
  · exact ⟨rfl, rfl, rfl, rfl, rfl⟩

lemma deliverGroup_changes {entries : List Entry} {run : Run}
    (hfl : ∀ f ∈ run.spool.envs, f.path ∈ entries.map Entry.path → f.delivering = false) :
    Changes run (deliverGroup cfg o domain body entries run) (deliveryGone o entries)
      (deliveryInvocations o entries body) (deliveryBounces cfg o domain entries) := by
  have hfi := Changes.foldl (fun _ => True) (expiredOf o entries) (fun _ _ => trivial)
    (fun run e _ _ => finalAttempt_changes cfg o domain body (claimedOf o entries) run e)
    { run with spool := run.spool.claim ((claimedOf o entries).map Entry.path) } trivial
  have ha := hfi.trans (activeAttempt_changes cfg o domain body entries _)
  refine ⟨ha.dirs, ha.bodies, ?_, ha.invocations, ha.bounces⟩
  simp only [deliverGroup, Spool.unclaim, Spool.mark]
  refine (congrArg (List.map _) ha.envs).trans ?_
  rw [Spool.claim, Spool.mark_remove, map_map]
  refine (map_congr_left fun f hf => ?_).trans (map_id _)
  obtain ⟨hf, hk⟩ := mem_filter.mp hf
  have hk : f.path ∉ deliveryGone o entries := of_decide_eq_true hk
  have hex : f.path ∉ (expiredOf o entries).map Entry.path := by
    intro h
    obtain ⟨e, he, hp⟩ := mem_map.mp h
    exact hk (mem_append_left _ (mem_flatMap.mpr ⟨e, he, by simp [hp]⟩))
  have hfa := claim_then_unclaim (hfl f hf) hex
  exact EnvFile.ext rfl rfl hfa rfl

-- Without a body only what has expired is removed.
def groupGone (bodies : List BodyFile) (g : Group) : List Path :=
  if !o.allow domain g.msgid then []
  else match resolveBody bodies g.msgid with
    | none => (g.entries.filter Entry.expired).map Entry.path
    | some _ => deliveryGone o g.entries

def groupInvocations (bodies : List BodyFile) (g : Group) : List Invocation :=
  if !o.allow domain g.msgid then []
  else match resolveBody bodies g.msgid with
    | none => []
    | some body => deliveryInvocations o g.entries body

def groupBounces (bodies : List BodyFile) (g : Group) : List Bounce :=
  if !o.allow domain g.msgid then []
  else match resolveBody bodies g.msgid with
    | none => []
    | some _ => deliveryBounces cfg o domain g.entries

lemma processGroup_changes {run : Run}
    (hf : ∀ f ∈ run.spool.envs, f.path ∈ g.entries.map Entry.path → f.delivering = false) :
    Changes run (processGroup cfg o domain run g) (groupGone o domain run.spool.bodies g)
      (groupInvocations o domain run.spool.bodies g) (groupBounces cfg o domain run.spool.bodies g) := by
  unfold processGroup groupGone groupInvocations groupBounces
  split_ifs with ha
  · exact Changes.refl run
  · rcases resolveBody run.spool.bodies g.msgid with _ | body
    · exact ⟨rfl, rfl, rfl, by simp, by simp⟩
    · exact deliverGroup_changes cfg o domain body hf

variable {cfg o domain body}

variable {inv : Invocation}

lemma mem_deliveryInvocations {entries : List Entry} : inv ∈ deliveryInvocations o entries body ↔
      (∃ e ∈ expiredOf o entries, inv = ⟨true, body, [e], finalResults o e⟩) ∨ activeOf o entries ≠ [] ∧
          inv = ⟨false, body, activeOf o entries, (activeOutcome o entries).results⟩ := by
  unfold deliveryInvocations
  rw [mem_append, mem_flatMap]
  refine or_congr (by simp) ?_
  split_ifs with ha
  · simp [ha]
  · simp [ha]

lemma mem_groupInvocations : inv ∈ groupInvocations o domain bodies g ↔
      o.allow domain g.msgid = true ∧ ∃ body, resolveBody bodies g.msgid = some body ∧
        inv ∈ deliveryInvocations o g.entries body := by
  unfold groupInvocations
  split_ifs with ha
  · simp [show o.allow domain g.msgid = false by simpa using ha]
  have ha : o.allow domain g.msgid = true := by simpa using ha
  rcases resolveBody bodies g.msgid with _ | body
  · simp
  · simp [ha]

lemma batch_subset {entries : List Entry}
    (h : inv ∈ deliveryInvocations o entries body) : ∀ e ∈ inv.batch, e ∈ entries := by
  intro e he
  rcases mem_deliveryInvocations.mp h with ⟨e', he', rfl⟩ | ⟨_, rfl⟩
  · obtain rfl := mem_singleton.mp he
    exact (mem_expiredOf.mp he').1.1
  · exact (mem_activeOf.mp he).1.1

lemma named_in_batch {entries : List Entry} {r : DeliveryResult}
    (h : inv ∈ deliveryInvocations o entries body) (hr : r ∈ inv.results) :
    ∃ e ∈ inv.batch, e.path = r.envelope := by
  rcases mem_deliveryInvocations.mp h with ⟨e, _, rfl⟩ | ⟨_, rfl⟩
  · refine ⟨e, mem_singleton_self _, ?_⟩
    exact (mem_singleton.mp ((o.mailRemote true [e.path]).named r hr)).symm
  · obtain ⟨e, he, hp⟩ := mem_map.mp ((activeOutcome o entries).named r hr)
    exact ⟨e, he, hp⟩

end Steps

section Scan

variable {o : Outside} {s : Spool} {d : Bytes × Bytes} {m : Bytes} {e : Entry}

-- The envelope that the scan has made an entry of.
structure Picked (o : Outside) (m : Bytes) (e : Entry) (f : EnvFile) : Prop where
  unclaimed : f.delivering = false
  msgId : f.msgId = some m
  content : f.content = some e.env
  path : e.path = f.path
  expired : e.expired = Scheduler.expired (o.now f.path) e.env
  due : (e.expired || o.isReady f.path) = true

lemma pick_eq_some : pick o f = some (m, e) ↔ Picked o m e f := by
  unfold pick
  rw [EnvFile.extractMsgId_fileName]
  constructor
  · intro h
    split at h
    · rename_i msgid env hid hc
      split_ifs at h with hd
      split_ifs at hid with hf
      cases h
      exact ⟨by simpa using hf, hid, hc, rfl, rfl, hd⟩
    · exact nomatch h
  · rintro ⟨hf, hid, hc, hp, he, hd⟩
    rw [he] at hd
    obtain ⟨path, expired, env⟩ := e
    simp only at hp he hc hd
    simp [hf, hid, hc, hd, hp, he]

lemma mem_readDir : f ∈ readDir s d ↔ f ∈ s.envs ∧ f.dir = domainDir d := by
  simp [readDir]

lemma mem_scan : (m, e) ∈ scan o s d ↔ ∃ f ∈ s.envs, f.dir = domainDir d ∧ Picked o m e f := by
  simp only [scan, mem_filterMap, mem_readDir, pick_eq_some]
  exact ⟨fun ⟨f, ⟨hf, hd⟩, h⟩ => ⟨f, hf, hd, h⟩, fun ⟨f, hf, hd, h⟩ => ⟨f, ⟨hf, hd⟩, h⟩⟩

lemma mem_group {picked : List (Bytes × Entry)} : e ∈ (group picked m).entries ↔ (m, e) ∈ picked := by
  simp only [group, mem_filterMap, Prod.exists, Option.ite_none_right_eq_some, Option.some.injEq]
  exact ⟨fun ⟨_, _, h, hm, he⟩ => hm ▸ he ▸ h, fun h => ⟨m, e, h, rfl, rfl⟩⟩

lemma mem_groups : g ∈ groups o s d ↔ ∃ m e, (m, e) ∈ scan o s d ∧ g = group (scan o s d) m := by
  simp only [groups, mem_map, (o.order_perm _).mem_iff, mem_dedup]
  constructor
  · rintro ⟨m, ⟨⟨m', e⟩, he, rfl⟩, rfl⟩
    exact ⟨m', e, he, rfl⟩
  · rintro ⟨m, e, he, rfl⟩
    exact ⟨m, ⟨(m, e), he, rfl⟩, rfl⟩

lemma mem_entries (hg : g ∈ groups o s d) (he : e ∈ g.entries) :
    ∃ f ∈ s.envs, f.dir = domainDir d ∧ Picked o g.msgid e f := by
  obtain ⟨m, _, _, rfl⟩ := mem_groups.mp hg
  exact mem_scan.mp (mem_group.mp he)

lemma groups_unclaimed (hg : g ∈ groups o s d) (hf : f ∈ s.envs)
    (hp : f.path ∈ g.entries.map Entry.path) : f.delivering = false := by
  obtain ⟨e, he, hs⟩ := mem_map.mp hp
  obtain ⟨f', hf', _, hpi⟩ := mem_entries hg he
  obtain rfl := s.eq_of_path hf' hf (hpi.path.symm.trans hs)
  exact hpi.unclaimed

end Scan

section Directories

variable (cfg : Config) (o : Outside)

def dirGone (s : Spool) (d : Bytes × Bytes) : List Path :=
  (groups o s d).flatMap (groupGone o (domainFromPath d) s.bodies)

def dirInvocations (s : Spool) (d : Bytes × Bytes) : List Invocation :=
  (groups o s d).flatMap (groupInvocations o (domainFromPath d) s.bodies)

def dirBounces (s : Spool) (d : Bytes × Bytes) : List Bounce :=
  (groups o s d).flatMap (groupBounces cfg o (domainFromPath d) s.bodies)

lemma processGroups_changes (run : Run) (d : Bytes × Bytes) :
    Changes run ((groups o run.spool d).foldl (processGroup cfg o (domainFromPath d)) run)
      (dirGone o run.spool d) (dirInvocations o run.spool d) (dirBounces cfg o run.spool d) := by
  refine Changes.foldl
    (fun r => r.spool.bodies = run.spool.bodies ∧ ∀ f ∈ r.spool.envs, f ∈ run.spool.envs)
    (groups o run.spool d) ?_ ?_ run ⟨rfl, fun _ hf => hf⟩
  · rintro r after gone invs bounces hc ⟨hb, he⟩
    exact ⟨hc.bodies.trans hb, fun f hf => he f (hc.mem.mp hf).1⟩
  · rintro r g hg ⟨hb, he⟩
    rw [← hb]
    exact processGroup_changes cfg o _ fun f hf hp => groups_unclaimed hg (he f hf) hp

variable {cfg o}

lemma mem_groupGone {domain : Bytes}
    (h : p ∈ groupGone o domain bodies g) : p ∈ g.entries.map Entry.path := by
  unfold groupGone at h
  split_ifs at h
  · exact absurd h not_mem_nil
  split at h
  · obtain ⟨e, he, hp⟩ := mem_map.mp h
    exact mem_map.mpr ⟨e, mem_of_mem_filter he, hp⟩
  rcases mem_append.mp h with h | h
  · obtain ⟨e, he, hp⟩ := mem_flatMap.mp h
    obtain rfl := mem_singleton.mp hp
    exact mem_map.mpr ⟨e, (mem_expiredOf.mp he).1.1, rfl⟩
  · obtain ⟨e, he, hp⟩ := mem_map.mp ((activeOutcome o g.entries).mem_given h)
    exact mem_map.mpr ⟨e, (mem_activeOf.mp he).1.1, hp⟩

lemma dir_of_mem_dirGone {s : Spool} {d : Bytes × Bytes} (h : p ∈ dirGone o s d) :
    p.1 = domainDir d := by
  obtain ⟨g, hg, hp⟩ := mem_flatMap.mp h
  obtain ⟨e, he, rfl⟩ := mem_map.mp (mem_groupGone hp)
  obtain ⟨f, _, hd, hpi⟩ := mem_entries hg he
  rw [hpi.path]
  exact hd

lemma domainDir_inj {d d' : Bytes × Bytes} (h : domainDir d = domainDir d') : d = d' := by
  simp only [domainDir, List.cons.injEq, and_true] at h
  exact Prod.ext h.1 h.2

lemma resolveBody_cleanOrphanBodies {s : Spool} {m : Bytes} (hf : f ∈ s.envs)
    (hd : f.dir.length = 2) (hid : f.msgId = some m) :
    resolveBody s.cleanOrphanBodies.bodies m = resolveBody s.bodies m := by
  have hk := bodyHasEnvelopes_of_mem hf hd hid
  simp only [resolveBody, Spool.cleanOrphanBodies, List.find?_filter]
  congr 1
  funext b
  by_cases hn : b.name = m
  · simp [hn, hk]
  · simp [hn]

-- After the directories done, the run is what each of them would be on the spool at the start.
structure Progress (cfg : Config) (o : Outside) (s : Spool) (done : List (Bytes × Bytes)) (run : Run) :
    Prop where
  envs : run.spool.envs = (s.remove (done.flatMap (dirGone o s))).envs
  bodies : ∀ f ∈ run.spool.envs, ∀ m, f.dir.length = 2 → f.msgId = some m →
    resolveBody run.spool.bodies m = resolveBody s.bodies m
  invocations : run.invocations = done.flatMap (dirInvocations o s)
  bounces : run.bounces = done.flatMap (dirBounces cfg o s)

namespace Progress

variable {s : Spool} {done : List (Bytes × Bytes)} {run : Run} {d : Bytes × Bytes}

lemma start : Progress cfg o s [] ⟨s, [], []⟩ where
  envs := by simp [Spool.remove]
  bodies := fun _ _ _ _ _ => rfl
  invocations := rfl
  bounces := rfl

lemma groups_eq (h : Progress cfg o s done run) (hd : d ∉ done) : groups o run.spool d = groups o s d := by
  have hf : readDir run.spool d = readDir s d := by
    simp only [readDir, h.envs, Spool.remove, filter_filter]
    congr 1
    refine filter_congr fun f _ => ?_
    by_cases hdir : f.dir = domainDir d
    · have hk : f.path ∉ done.flatMap (dirGone o s) := by
        intro hg
        obtain ⟨d', hd', hp⟩ := mem_flatMap.mp hg
        exact hd (domainDir_inj (hdir.symm.trans (dir_of_mem_dirGone hp)) ▸ hd')
      simp [hdir, hk]
    · simp [hdir]
  simp [groups, scan, hf]

lemma resolveBody_eq (h : Progress cfg o s done run) (hg : g ∈ groups o run.spool d) :
    resolveBody run.spool.bodies g.msgid = resolveBody s.bodies g.msgid := by
  obtain ⟨m, e, he, rfl⟩ := mem_groups.mp hg
  obtain ⟨f, hf, hd, hp⟩ := mem_scan.mp he
  exact h.bodies f hf m (by simp [hd, domainDir]) hp.msgId

lemma step (h : Progress cfg o s done run) (hd : d ∉ done) :
    Progress cfg o s (done ++ [d]) (processDomainDir cfg o run d) := by
  have hc := processGroups_changes cfg o run d
  have hs : ∀ {β : Type} (of : List BodyFile → Group → List β),
      (∀ g ∈ groups o s d, of run.spool.bodies g = of s.bodies g) →
      (groups o run.spool d).flatMap (of run.spool.bodies) = (groups o s d).flatMap (of s.bodies) := by
    intro β of hof
    rw [h.groups_eq hd]
    exact flatMap_congr hof
  have hb : ∀ g ∈ groups o s d, resolveBody run.spool.bodies g.msgid = resolveBody s.bodies g.msgid :=
    fun g hg => h.resolveBody_eq (h.groups_eq hd ▸ hg)
  have hgo : dirGone o run.spool d = dirGone o s d :=
    hs (groupGone o (domainFromPath d)) fun g hg => by simp [groupGone, hb g hg]
  have hi : dirInvocations o run.spool d = dirInvocations o s d :=
    hs (groupInvocations o (domainFromPath d)) fun g hg => by simp [groupInvocations, hb g hg]
  have hbo : dirBounces cfg o run.spool d = dirBounces cfg o s d :=
    hs (groupBounces cfg o (domainFromPath d)) fun g hg => by simp [groupBounces, hb g hg]
  rw [hgo, hi, hbo] at hc
  refine ⟨?_, ?_, ?_, ?_⟩
  · refine hc.envs.trans ?_
    rw [flatMap_append, flatMap_singleton, ← Spool.remove_remove]
    simp [Spool.remove, h.envs]
  · intro f hf m hl hid
    have hf : f ∈ ((groups o run.spool d).foldl (processGroup cfg o (domainFromPath d)) run).spool.envs := hf
    refine (resolveBody_cleanOrphanBodies hf hl hid).trans ?_
    rw [hc.bodies]
    exact h.bodies f (hc.mem.mp hf).1 m hl hid
  · refine hc.invocations.trans ?_
    rw [h.invocations, flatMap_append, flatMap_singleton]
  · refine hc.bounces.trans ?_
    rw [h.bounces, flatMap_append, flatMap_singleton]

lemma foldl (h : Progress cfg o s done run) {rest : List (Bytes × Bytes)} (hn : (done ++ rest).Nodup) :
    Progress cfg o s (done ++ rest) (rest.foldl (processDomainDir cfg o) run) := by
  induction rest generalizing done run with
  | nil => simpa using h
  | cons d rest ih =>
    have hd : d ∉ done := fun hm => (nodup_append.mp hn).2.2 d hm d mem_cons_self rfl
    have hne := ih (h.step hd) (by simpa using hn)
    simpa using hne

end Progress

lemma runOnce_progress (cfg : Config) (o : Outside) (s : Spool) :
    Progress cfg o s.recoverStaleDeliveries s.dirs (runOnce cfg o s) :=
  Progress.start.foldl s.dirs_nodup

end Directories

end Maildancer.Scheduler

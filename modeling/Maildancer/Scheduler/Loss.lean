import Maildancer.Scheduler.Run

namespace Maildancer.Scheduler

open List Text Queue

-- The envelope was delivered, or its sender is told.
def Accounted (f : EnvFile) (run : Run) : Prop :=
  (∃ inv ∈ run.invocations, ∃ r ∈ inv.results, r.envelope = f.path ∧ r.status = .delivered) ∨
    ∃ b ∈ run.bounces, b.envelope = f.path ∧ ∃ env ∈ f.content, b.data.origin = env.origin ∧
      b.data.recipient = env.recipient ∧ b.data.queuedAt = env.created

-- The run takes the envelope up for its final attempt: its time is over and the
-- rate limit lets its group pass.
def LastTurn (o : Outside) (s : Spool) (f : EnvFile) (m : Bytes) : Prop :=
  f.msgId = some m ∧ (∃ env ∈ f.content, expired (o.now f.path) env = true) ∧
    ∃ d ∈ s.dirs, f.dir = domainDir d ∧ o.allow (domainFromPath d) m = true

variable {r : DeliveryResult}

section Bounces

variable {cfg : Config} {o : Outside} {domain : Bytes} {bodies : List BodyFile} {g : Group} {b : Bounce}

lemma mem_generateAndDeliverDsn {env : Option QueueEnvelope} {expired : Bool}
    (h : b ∈ generateAndDeliverDsn cfg env r domain expired) : b.envelope = r.envelope := by
  unfold generateAndDeliverDsn at h
  split at h
  · exact absurd h not_mem_nil
  · split at h
    · exact absurd h not_mem_nil
    · rw [mem_singleton.mp h]

lemma exists_bounce {env : QueueEnvelope} (hd : cfg.dsnEnabled = true) (ho : env.origin ≠ [])
    (domain : Bytes) (r : DeliveryResult) (expired : Bool) :
    ∃ b ∈ generateAndDeliverDsn cfg (some env) r domain expired, b.envelope = r.envelope ∧
      b.data.origin = env.origin ∧ b.data.recipient = env.recipient ∧ b.data.queuedAt = env.created := by
  simp [generateAndDeliverDsn, hd, ho]

lemma mem_groupBounces (h : b ∈ groupBounces cfg o domain bodies g) :
    ∃ inv ∈ groupInvocations o domain bodies g, ∃ r ∈ inv.results, r.envelope = b.envelope := by
  unfold groupBounces at h
  split_ifs at h with ha
  · exact absurd h not_mem_nil
  have ha : o.allow domain g.msgid = true := by simpa using ha
  rcases hbo : resolveBody bodies g.msgid with _ | body
  · simp [hbo] at h
  simp only [hbo, deliveryBounces, mem_append, mem_flatMap] at h
  rcases h with ⟨e, he, hb⟩ | hb
  · obtain ⟨r, hr, hb⟩ := mem_flatMap.mp hb
    refine ⟨⟨true, body, [e], finalResults o e⟩, mem_groupInvocations.mpr ⟨ha, body, hbo, ?_⟩,
      r, mem_of_mem_filter hr, (mem_generateAndDeliverDsn hb).symm⟩
    exact mem_deliveryInvocations.mpr (.inl ⟨e, he, rfl⟩)
  · obtain ⟨r, hr, hb⟩ := mem_flatMap.mp hb
    have hr := mem_of_mem_filter hr
    have hac : activeOf o g.entries ≠ [] := by
      intro hn
      rw [(activeOutcome_of_nil hn).2] at hr
      exact absurd hr not_mem_nil
    refine ⟨⟨false, body, activeOf o g.entries, (activeOutcome o g.entries).results⟩,
      mem_groupInvocations.mpr ⟨ha, body, hbo, ?_⟩, r, hr, (mem_generateAndDeliverDsn hb).symm⟩
    exact mem_deliveryInvocations.mpr (.inr ⟨hac, rfl⟩)

end Bounces

section Entries

variable {o : Outside} {s : Spool} {d : Bytes × Bytes} {m m' : Bytes} {e e' : Entry} {f : EnvFile}

lemma Picked.unique (h : Picked o m e f) (h' : Picked o m' e' f) : m = m' ∧ e = e' := by
  refine ⟨Option.some.inj (h.msgId.symm.trans h'.msgId), ?_⟩
  have henv := Option.some.inj (h.content.symm.trans h'.content)
  obtain ⟨path, expired, env⟩ := e
  obtain ⟨path', expired', env'⟩ := e'
  have hp := h.path.trans h'.path.symm
  have he := h.expired
  have hex := h'.expired
  simp only at henv hp he hex
  subst henv hp
  rw [he, hex]

lemma picked_of_path (hf : f ∈ s.envs) {g : Group} (hg : g ∈ groups o s d) (he : e ∈ g.entries)
    (hp : e.path = f.path) : f.dir = domainDir d ∧ Picked o g.msgid e f := by
  obtain ⟨f', hf', hd, hpi⟩ := mem_entries hg he
  obtain rfl := s.eq_of_path hf' hf (hpi.path.symm.trans hp)
  exact ⟨hd, hpi⟩

lemma envByPath_of_picked (hf : f ∈ s.envs) {g : Group} (hg : g ∈ groups o s d) (h : Picked o g.msgid e f)
    (he : e ∈ claimedOf o g.entries) : envByPath (claimedOf o g.entries) f.path = some e.env := by
  unfold envByPath
  cases hfi : (claimedOf o g.entries).find? (·.path = f.path) with
  | none =>
    have hn := List.find?_eq_none.mp hfi e he
    simp [h.path] at hn
  | some e' =>
    have hp : e'.path = f.path := by simpa using List.find?_some hfi
    have he' := (mem_claimedOf.mp (mem_of_find?_eq_some hfi)).1
    obtain ⟨_, hpi⟩ := picked_of_path hf hg he' hp
    rw [(hpi.unique h).2]
    rfl

end Entries

section Run

variable {cfg : Config} {o : Outside} {s : Spool} {run : Run} {d : Bytes × Bytes} {m : Bytes} {e : Entry}
  {f : EnvFile}

variable {done : List (Bytes × Bytes)}

lemma Progress.gone_iff (h : Progress cfg o s done run) (hf : f ∈ s.envs) :
    f.path ∉ run.spool.envs.map EnvFile.path ↔ ∃ d ∈ done, f.path ∈ dirGone o s d := by
  rw [← mem_flatMap, h.envs, not_iff_comm]
  constructor
  · intro hk
    exact mem_map.mpr ⟨f, mem_filter.mpr ⟨hf, decide_eq_true hk⟩, rfl⟩
  intro hm
  obtain ⟨f', hf', hp⟩ := mem_map.mp hm
  rw [← hp]
  exact of_decide_eq_true (mem_filter.mp hf').2

lemma mem_groupGone_iff (domain : Bytes) {g : Group} (hf : f ∈ s.envs) (hg : g ∈ groups o s d)
    (he : e ∈ g.entries) (h : Picked o g.msgid e f) :
    f.path ∈ groupGone o domain s.bodies g ↔ o.allow domain g.msgid = true ∧
      ((resolveBody s.bodies g.msgid = none ∧ e.expired = true) ∨
        (∃ body, resolveBody s.bodies g.msgid = some body) ∧
          (e ∈ expiredOf o g.entries ∨ f.path ∈ (activeOutcome o g.entries).deleted)) := by
  have hs : ∀ {entries : List Entry}, (∀ e' ∈ entries, e' ∈ g.entries) →
      (f.path ∈ entries.map Entry.path ↔ e ∈ entries) := by
    intro entries hsub
    constructor
    · intro hm
      obtain ⟨e', he', hp⟩ := mem_map.mp hm
      rwa [← ((picked_of_path hf hg (hsub e' he') hp).2.unique h).2]
    · exact fun hm => mem_map.mpr ⟨e, hm, h.path⟩
  unfold groupGone
  split_ifs with ha
  · simp [show o.allow domain g.msgid = false by simpa using ha]
  have ha : o.allow domain g.msgid = true := by simpa using ha
  rcases resolveBody s.bodies g.msgid with _ | body
  · simp [ha, hs fun _ => mem_of_mem_filter, he]
  have hex : f.path ∈ (expiredOf o g.entries).flatMap (fun e => [e.path]) ↔
      e ∈ expiredOf o g.entries := by
    rw [← hs fun e' he' => (mem_expiredOf.mp he').1.1]
    simp [eq_comm]
  simp [ha, deliveryGone, hex]

lemma final_of_result {inv : Invocation} (hf : f ∈ s.envs) (h : Picked o m e f)
    (he : e.expired = true) (hi : inv ∈ dirInvocations o s d) (hr : r ∈ inv.results)
    (hp : r.envelope = f.path) : resolveBody s.bodies m ≠ none ∧ r ∈ finalResults o e := by
  obtain ⟨g, hg, hi⟩ := mem_flatMap.mp hi
  obtain ⟨_, body, hb, hd⟩ := mem_groupInvocations.mp hi
  obtain ⟨e', he', hn⟩ := named_in_batch hd hr
  obtain ⟨_, hpi⟩ := picked_of_path hf hg (batch_subset hd e' he') (hn.trans hp)
  obtain ⟨rfl, rfl⟩ := hpi.unique h
  refine ⟨by simp [hb], ?_⟩
  rcases mem_deliveryInvocations.mp hd with ⟨e, _, rfl⟩ | ⟨_, rfl⟩
  · obtain rfl := mem_singleton.mp he'
    exact hr
  · have ha := (mem_activeOf.mp he').2
    simp [he] at ha

lemma Progress.accounted_result (h : Progress cfg o s done run)
    (ha : Accounted f run) : ∃ d, ∃ inv ∈ dirInvocations o s d, ∃ r ∈ inv.results, r.envelope = f.path := by
  rcases ha with ⟨inv, hi, r, hr, hp, _⟩ | ⟨b, hb, hp, _⟩
  · rw [h.invocations] at hi
    obtain ⟨d, _, hi⟩ := mem_flatMap.mp hi
    exact ⟨d, inv, hi, r, hr, hp⟩
  rw [h.bounces] at hb
  obtain ⟨d, _, hb⟩ := mem_flatMap.mp hb
  obtain ⟨g, hg, hb⟩ := mem_flatMap.mp hb
  obtain ⟨inv, hi, r, hr, hs⟩ := mem_groupBounces hb
  exact ⟨d, inv, mem_flatMap.mpr ⟨g, hg, hi⟩, r, hr, hs.trans hp⟩

-- The body is found, and the final attempt, if the claim succeeds, reports something.
def Answered (o : Outside) (s : Spool) (f : EnvFile) (m : Bytes) : Prop :=
  resolveBody s.bodies m ≠ none ∧
    (o.claimable f.path = true → (o.mailRemote true [f.path]).results ≠ [])

lemma Progress.accounted_of_gone (h : Progress cfg o s s.dirs run) (hdsn : cfg.dsnEnabled = true)
    (hf : f ∈ s.envs) (ho : ∀ env ∈ f.content, env.origin ≠ [])
    (ha : ∀ m, LastTurn o s f m → Answered o s f m) (hd : d ∈ s.dirs)
    (hgo : f.path ∈ dirGone o s d) : Accounted f run := by
  obtain ⟨g, hg, hgo⟩ := mem_flatMap.mp hgo
  obtain ⟨e, he, hp⟩ := mem_map.mp (mem_groupGone hgo)
  obtain ⟨hdir, hpi⟩ := picked_of_path hf hg he hp
  obtain ⟨hal, hc⟩ := (mem_groupGone_iff _ hf hg he hpi).mp hgo
  have ht : e.expired = true → Answered o s f g.msgid := by
    intro hex
    rw [hpi.expired] at hex
    exact ha _ ⟨hpi.msgId, ⟨e.env, hpi.content, hex⟩, d, hd, hdir, hal⟩
  rcases hc with ⟨hn, hex⟩ | ⟨⟨body, hbo⟩, hc⟩
  · exact absurd hn (ht hex).1
  have hl : ∀ inv ∈ deliveryInvocations o g.entries body, inv ∈ run.invocations := by
    intro inv hi
    rw [h.invocations]
    exact mem_flatMap.mpr ⟨d, hd, mem_flatMap.mpr
      ⟨g, hg, mem_groupInvocations.mpr ⟨hal, body, hbo, hi⟩⟩⟩
  have hbu : ∀ b ∈ deliveryBounces cfg o (domainFromPath d) g.entries, b ∈ run.bounces := by
    intro b hb
    rw [h.bounces]
    refine mem_flatMap.mpr ⟨d, hd, mem_flatMap.mpr ⟨g, hg, ?_⟩⟩
    simpa [groupBounces, hal, hbo] using hb
  have ho := ho e.env hpi.content
  rcases hc with hex | hde
  · obtain ⟨⟨_, hcl⟩, hov⟩ := mem_expiredOf.mp hex
    obtain ⟨r, hr⟩ := exists_mem_of_ne_nil _ ((ht hov).2 (hp ▸ hcl))
    have hna := mem_singleton.mp ((o.mailRemote true [f.path]).named r hr)
    have hr : r ∈ finalResults o e := by
      rw [finalResults, hp]
      exact hr
    by_cases hs : r.status = .delivered
    · exact .inl ⟨_, hl _ (mem_deliveryInvocations.mpr (.inl ⟨e, hex, rfl⟩)), r, hr, hna, hs⟩
    obtain ⟨b, hb, hnm, hda⟩ := exists_bounce hdsn ho _ r true
    refine .inr ⟨b, hbu b (mem_append_left _ (mem_flatMap.mpr ⟨e, hex, ?_⟩)),
      hnm.trans hna, e.env, hpi.content, hda⟩
    refine mem_flatMap.mpr ⟨r, mem_filter.mpr ⟨hr, by simpa using hs⟩, ?_⟩
    rwa [hna, envByPath_of_picked hf hg hpi (mem_claimedOf.mpr ⟨he, hcl⟩)]
  · obtain ⟨r, hr, hna, hs⟩ := (activeOutcome o g.entries).reported f.path hde
    obtain ⟨e', he', hpa⟩ := mem_map.mp ((activeOutcome o g.entries).mem_given hde)
    obtain ⟨_, hpc⟩ := picked_of_path hf hg (mem_activeOf.mp he').1.1 hpa
    obtain rfl := (hpc.unique hpi).2
    rcases hs with hs | hs
    · exact .inl ⟨_, hl _ (mem_deliveryInvocations.mpr (.inr ⟨ne_nil_of_mem he', rfl⟩)), r, hr, hna, hs⟩
    obtain ⟨b, hb, hnm, hda⟩ := exists_bounce hdsn ho _ r false
    refine .inr ⟨b, hbu b (mem_append_right _ ?_), hnm.trans hna, e'.env, hpi.content, hda⟩
    refine mem_flatMap.mpr ⟨r, mem_filter.mpr ⟨hr, by simpa using hs⟩, ?_⟩
    rwa [hna, envByPath_of_picked hf hg hpi (mem_claimedOf.mpr (mem_activeOf.mp he').1)]

lemma Progress.answered_of_accounted (h : Progress cfg o s s.dirs run) (hf : f ∈ s.envs)
    (hu : f.dir.length = 2 → f.delivering = false) (ht : LastTurn o s f m)
    (hacc : f.path ∉ run.spool.envs.map EnvFile.path → Accounted f run) : Answered o s f m := by
  obtain ⟨hid, ⟨env, hc, ho⟩, d, hd, hdir, ha⟩ := ht
  have hp : Picked o m ⟨f.path, true, env⟩ f :=
    ⟨hu (by simp [hdir, domainDir]), hid, hc, rfl, ho.symm, Bool.true_or _⟩
  have hs := mem_scan.mpr ⟨f, hf, hdir, hp⟩
  have hg := mem_groups.mpr ⟨m, _, hs, rfl⟩
  have he := mem_group.mpr hs
  have hre : f.path ∈ groupGone o (domainFromPath d) s.bodies (group (scan o s d) m) →
      resolveBody s.bodies m ≠ none ∧ (o.mailRemote true [f.path]).results ≠ [] := by
    intro hgo
    have hgo := (h.gone_iff hf).mpr ⟨d, hd, mem_flatMap.mpr ⟨_, hg, hgo⟩⟩
    obtain ⟨d', inv, hi, r, hr, hpa⟩ := h.accounted_result (hacc hgo)
    obtain ⟨hb, hr⟩ := final_of_result hf hp rfl hi hr hpa
    exact ⟨hb, ne_nil_of_mem hr⟩
  have hca := mem_groupGone_iff (domainFromPath d) hf hg he hp
  have hb : resolveBody s.bodies m ≠ none := by
    intro hn
    exact (hre (hca.mpr ⟨ha, .inl ⟨hn, rfl⟩⟩)).1 hn
  refine ⟨hb, fun hcl => (hre (hca.mpr ⟨ha, .inr ⟨?_, .inl ?_⟩⟩)).2⟩
  · exact Option.ne_none_iff_exists'.mp hb
  · exact mem_expiredOf.mpr ⟨⟨he, hcl⟩, rfl⟩

end Run

-- At the start a claim is given back, where the scan would look.
def recovered (f : EnvFile) : EnvFile :=
  { f with delivering := f.delivering && f.dir.length ≠ 2 }

lemma recovered_mem {s : Spool} {f : EnvFile} (hf : f ∈ s.envs) :
    recovered f ∈ s.recoverStaleDeliveries.envs :=
  mem_map.mpr ⟨f, hf, rfl⟩

lemma recovered_unclaimed {f : EnvFile} (h : (recovered f).dir.length = 2) :
    (recovered f).delivering = false := by
  simp [recovered, show f.dir.length = 2 from h]

def overdueFile : EnvFile where
  dir := [ascii "com", ascii "example"]
  name := envName (ascii "bob") (List.replicate 32 97) 0
  delivering := false
  content := some ⟨10, 1, ascii "bounces+bob=example.com@mx.example.org", ascii "bob@example.com",
    List.replicate 32 97 ++ ascii "@example.org", ascii "alice@example.org"⟩
  plain := envName_plain _ _ _

def overdueSpool : Spool :=
  .inDir (ascii "com", ascii "example")
    [⟨[ascii "org", ascii "example"], List.replicate 32 97, ascii "hi"⟩] [overdueFile]
    (List.nodup_singleton _)

def remoteCrash : Outside := .steady 11 fun _ => true

end Maildancer.Scheduler

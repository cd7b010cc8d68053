import Maildancer.Queue.Concurrent

namespace Maildancer.Queue

open List Text

variable {g : EnvFile} {b e : BodyFile} {bodies : List BodyFile}

lemma mem_putEnv {f : EnvFile} {envs : List EnvFile} (h : g ∈ putEnv f envs) : g ∈ envs ∨ g = f := by
  simp only [putEnv, mem_append, mem_filter, mem_singleton] at h
  exact h.imp_left And.left

lemma path_putEnv {f : EnvFile} {envs : List EnvFile} (h : g ∈ envs) :
    ∃ e ∈ putEnv f envs, e.path = g.path := by
  by_cases hs : g.path = f.path ∧ g.delivering = f.delivering
  · exact ⟨f, by simp [putEnv], hs.1.symm⟩
  · exact ⟨g, mem_append_left _ (mem_filter.mpr ⟨h, decide_eq_true hs⟩), rfl⟩

lemma mem_putBody :
    e ∈ putBody b bodies ↔ (e ∈ bodies ∧ ¬ (e.dir = b.dir ∧ e.name = b.name)) ∨ e = b := by
  simp only [putBody, mem_append, mem_filter, mem_singleton, decide_eq_true_eq]

lemma mem_removeBody :
    e ∈ removeBody b bodies ↔ e ∈ bodies ∧ ¬ (e.dir = b.dir ∧ e.name = b.name) := by
  simp only [removeBody, mem_filter, decide_eq_true_eq]

-- A Write still goes on for the message, or an envelope of it is queued.
def Live (s : State) (msgid : Bytes) : Prop :=
  (∃ w, s.writers msgid = some w ∧ w.running = true) ∨ ∃ f ∈ s.envs, f.msgId = some msgid

-- An envelope where the scan looks, two levels down.
def Visible (s : State) (msgid : Bytes) (here : List Bytes → Prop) : Prop :=
  ∃ f ∈ s.envs, f.msgId = some msgid ∧ f.dir.length = 2 ∧ here f.dir

def Kept (s : State) (b : BodyFile) (here : List Bytes → Prop) : Prop :=
  (¬ Live s b.name ∧ s.writers b.name ≠ none) ∨ Visible s b.name here

-- What the sweep will still read holds an envelope of the body, unless the body has had its day.
def SweepOk (s : State) : Prop :=
  match s.sweep with
  | .off | .listing => True
  | .top b => Kept s b fun _ => True
  | .middle b todo found => Kept s b fun d => d.dropLast ∈ todo ∨ d ∈ found
  | .bottom b todo matched => matched = true ∨ Kept s b (· ∈ todo)

structure Writer.Sound (m : Bytes) (w : Writer) : Prop where
  bodyName : w.body.name = m
  todo : ∀ f ∈ w.todo, f.msgId = some m

-- Files belong to a Write that has begun, and a live message has its body.
structure Inv (s : State) : Prop where
  writers : ∀ m w, s.writers m = some w → w.Sound m
  envOwner : ∀ f ∈ s.envs, ∃ m, f.msgId = some m ∧ s.writers m ≠ none
  bodyOwner : ∀ b ∈ s.bodies, s.writers b.name ≠ none
  present : ∀ m w, s.writers m = some w → Live s m → w.body ∈ s.bodies
  dirs : ∀ f ∈ s.envs, ∀ d ∈ f.dir.inits, d ≠ [] → d ∈ s.dirs
  sweep : SweepOk s

lemma inv_empty : Inv State.empty where
  writers := by simp [State.empty]
  envOwner := by simp [State.empty]
  bodyOwner := by simp [State.empty]
  present := by simp [State.empty]
  dirs := by simp [State.empty]
  sweep := trivial

lemma SweepOk.carry {s t : State} (h : SweepOk s) (hs : t.sweep = s.sweep)
    (hk : ∀ b here, Kept s b here → Kept t b here) : SweepOk t := by
  unfold SweepOk at h ⊢
  rw [hs]
  cases hp : s.sweep with
  | off | listing => trivial
  | top b | middle b todo found =>
    rw [hp] at h
    exact hk _ _ h
  | bottom b todo matched =>
    rw [hp] at h
    exact h.imp_right (hk _ _)

section Writers

variable {c : CaseMap} {cfg : Config} {s t : State} {m m' : Bytes} {w w' : Writer}

lemma setWriter_cases (h : (setWriter s m w).writers m' = some w') :
    (m' = m ∧ w' = w) ∨ (m' ≠ m ∧ s.writers m' = some w') := by
  by_cases hm : m' = m
  · subst hm
    exact .inl ⟨rfl, by simpa [setWriter] using h.symm⟩
  · exact .inr ⟨hm, by simpa [setWriter, hm] using h⟩

lemma setWriter_ne_none (w : Writer) (h : s.writers m' ≠ none) : (setWriter s m w).writers m' ≠ none := by
  by_cases hm : m' = m
  · simp [setWriter, hm]
  · simpa [setWriter, hm] using h

lemma live_setWriter (w : Writer) (h : m' ≠ m) : Live (setWriter s m w) m' ↔ Live s m' := by
  simp [Live, setWriter, h]

lemma Inv.beginWrite {req : Request} (h : Inv s) (hs : beginWrite c cfg s req = some t) : Inv t := by
  unfold Queue.beginWrite at hs
  split at hs
  case h_2 => exact nomatch hs
  case h_1 out hfr hwr =>
  cases hs
  obtain ⟨hn, _⟩ := write_body hwr
  refine ⟨?_, ?_, ?_, ?_, h.dirs, ?_⟩
  · intro m' w' hw
    obtain ⟨rfl, rfl⟩ | ⟨_, hold⟩ := setWriter_cases hw
    · exact ⟨hn, fun f hf => write_msgId hwr hf⟩
    · exact h.writers m' w' hold
  · intro f hf
    obtain ⟨m', hid, ho⟩ := h.envOwner f hf
    exact ⟨m', hid, setWriter_ne_none _ ho⟩
  · intro b hb
    rcases mem_putBody.mp hb with ⟨hold, _⟩ | rfl
    · exact setWriter_ne_none _ (h.bodyOwner b hold)
    · simp [hn, setWriter]
  · intro m' w' hw hl
    obtain ⟨rfl, rfl⟩ | ⟨hm, hold⟩ := setWriter_cases hw
    · exact mem_putBody.mpr (.inr rfl)
    · refine mem_putBody.mpr (.inl ⟨h.present m' w' hold ((live_setWriter _ hm).mp hl), ?_⟩)
      rintro ⟨_, hsa⟩
      exact hm ((h.writers m' w' hold).bodyName.symm.trans (hsa.trans hn))
  · refine h.sweep.carry rfl ?_
    rintro b here (⟨hd, ho⟩ | hv)
    · have hb : b.name ≠ req.msgIdHex := fun he => ho (he ▸ hfr)
      exact .inl ⟨fun hl => hd ((live_setWriter _ hb).mp hl), setWriter_ne_none _ ho⟩
    · exact .inr hv

lemma Inv.makeDirStep (h : Inv s) (hs : makeDirStep s m = some t) : Inv t := by
  unfold Queue.makeDirStep at hs
  split at hs
  case h_2 => exact nomatch hs
  case h_1 =>
  cases hs
  refine ⟨h.writers, h.envOwner, h.bodyOwner, h.present, ?_, h.sweep⟩
  intro f hf d hd hne
  exact mem_append_left _ (h.dirs f hf d hd hne)

lemma Inv.renameStep (h : Inv s) (hs : renameStep s m = some t) : Inv t := by
  unfold Queue.renameStep at hs
  split at hs
  case h_2 => exact nomatch hs
  case h_1 body f todo hwr =>
  split_ifs at hs with hd
  cases hs
  obtain ⟨hn, ht⟩ := h.writers m _ hwr
  have hid := ht f mem_cons_self
  have hbo := h.present m _ hwr (.inl ⟨_, hwr, rfl⟩)
  have hold : ∀ {m'}, m' ≠ m →
      Live (setWriter { s with envs := putEnv f s.envs } m ⟨body, todo, true⟩) m' → Live s m' := by
    intro m' hm hl
    rcases (live_setWriter _ hm).mp hl with hr | ⟨g, hg, hgid⟩
    · exact .inl hr
    · rcases mem_putEnv hg with hold | rfl
      · exact .inr ⟨g, hold, hgid⟩
      · exact absurd (Option.some.inj (hid.symm.trans hgid)).symm hm
  refine ⟨?_, ?_, ?_, ?_, ?_, ?_⟩
  · intro m' w' hw
    obtain ⟨rfl, rfl⟩ | ⟨_, hw⟩ := setWriter_cases hw
    · exact ⟨hn, fun g hg => ht g (mem_cons_of_mem _ hg)⟩
    · exact h.writers m' w' hw
  · intro g hg
    rcases mem_putEnv hg with hg | rfl
    · obtain ⟨m', hgid, ho⟩ := h.envOwner g hg
      exact ⟨m', hgid, setWriter_ne_none _ ho⟩
    · exact ⟨m, hid, by simp [setWriter]⟩
  · exact fun b hb => setWriter_ne_none _ (h.bodyOwner b hb)
  · intro m' w' hw hl
    obtain ⟨rfl, rfl⟩ | ⟨hm, hw⟩ := setWriter_cases hw
    · exact hbo
    · exact h.present m' w' hw (hold hm hl)
  · intro g hg
    rcases mem_putEnv hg with hg | rfl
    · exact h.dirs g hg
    · exact hd
  · refine h.sweep.carry rfl ?_
    rintro b here (⟨hde, ho⟩ | ⟨g, hg, hgid, hlen, hh⟩)
    · have hb : b.name ≠ m := fun he => hde (.inl ⟨_, he ▸ hwr, rfl⟩)
      exact .inl ⟨fun hl => hde (hold hb hl), setWriter_ne_none _ ho⟩
    · obtain ⟨e, he, hp⟩ := path_putEnv (f := f) hg
      have hdir : e.dir = g.dir := congrArg Prod.fst hp
      exact .inr ⟨e, he, (EnvFile.msgId_of_path hp).trans hgid, hdir ▸ hlen, hdir ▸ hh⟩

lemma Inv.finishStep (h : Inv s) (hs : finishStep s m = some t) : Inv t := by
  unfold Queue.finishStep at hs
  split at hs
  case h_2 => exact nomatch hs
  case h_1 body todo hwr =>
  cases hs
  have hbo := h.present m _ hwr (.inl ⟨_, hwr, rfl⟩)
  have hold : ∀ {m'}, Live (setWriter s m ⟨body, todo, false⟩) m' → Live s m' := by
    rintro m' (⟨w, hw, hr⟩ | he)
    · obtain ⟨rfl, rfl⟩ | ⟨_, hw⟩ := setWriter_cases hw
      · exact absurd hr Bool.false_ne_true
      · exact .inl ⟨w, hw, hr⟩
    · exact .inr he
  refine ⟨?_, ?_, ?_, ?_, h.dirs, ?_⟩
  · intro m' w' hw
    obtain ⟨rfl, rfl⟩ | ⟨_, hw⟩ := setWriter_cases hw
    · obtain ⟨hn, ht⟩ := h.writers m' _ hwr
      exact ⟨hn, ht⟩
    · exact h.writers m' w' hw
  · intro f hf
    obtain ⟨m', hid, ho⟩ := h.envOwner f hf
    exact ⟨m', hid, setWriter_ne_none _ ho⟩
  · exact fun b hb => setWriter_ne_none _ (h.bodyOwner b hb)
  · intro m' w' hw hl
    obtain ⟨rfl, rfl⟩ | ⟨_, hw⟩ := setWriter_cases hw
    · exact hbo
    · exact h.present m' w' hw (hold hl)
  · refine h.sweep.carry rfl ?_
    rintro b here (⟨hd, ho⟩ | hv)
    · exact .inl ⟨fun hl => hd (hold hl), setWriter_ne_none _ ho⟩
    · exact .inr hv

end Writers

section Scheduler

variable {s t : State} {f : EnvFile} {envs : List EnvFile}

lemma Inv.envStep (h : Inv s) (hp : ∀ g ∈ envs, ∃ e ∈ s.envs, e.path = g.path)
    (hs : envStep s f envs = some t) : Inv t := by
  unfold Queue.envStep at hs
  split at hs
  case h_2 => exact nomatch hs
  case h_1 ho =>
  split_ifs at hs
  cases hs
  refine ⟨h.writers, ?_, h.bodyOwner, ?_, ?_, by simp [SweepOk, ho]⟩
  · intro g hg
    obtain ⟨e, he, hpa⟩ := hp g hg
    rw [← EnvFile.msgId_of_path hpa]
    exact h.envOwner e he
  · rintro m w hw (hr | ⟨g, hg, hid⟩)
    · exact h.present m w hw (.inl hr)
    · obtain ⟨e, he, hpa⟩ := hp g hg
      exact h.present m w hw (.inr ⟨e, he, (EnvFile.msgId_of_path hpa).trans hid⟩)
  · intro g hg
    obtain ⟨e, he, hpa⟩ := hp g hg
    have hd : e.dir = g.dir := congrArg Prod.fst hpa
    rw [← hd]
    exact h.dirs e he

lemma path_moveEnv (hf : f ∈ s.envs) (hp : g.path = f.path) :
    ∀ e ∈ moveEnv f g s.envs, ∃ e' ∈ s.envs, e'.path = e.path := by
  intro e he
  rcases mem_putEnv he with hold | rfl
  · exact ⟨e, mem_of_mem_filter hold, rfl⟩
  · exact ⟨f, hf, hp.symm⟩

lemma envStep_mem (hs : envStep s f envs = some t) : f ∈ s.envs := by
  unfold envStep at hs
  split at hs
  · split_ifs at hs with hm
    exact hm.1
  · exact nomatch hs

variable {pos : Sweep}

lemma Inv.setSweep (h : Inv s) (hok : SweepOk { s with sweep := pos }) :
    Inv { s with sweep := pos } :=
  ⟨h.writers, h.envOwner, h.bodyOwner, h.present, h.dirs, hok⟩

lemma Kept.setSweep {here there : List Bytes → Prop}
    (h : Kept s b here) (hi : ∀ f ∈ s.envs, f.dir.length = 2 → here f.dir → there f.dir) :
    Kept { s with sweep := pos } b there := by
  rcases h with hd | ⟨f, hf, hid, hl, hh⟩
  · exact .inl hd
  · exact .inr ⟨f, hf, hid, hl, hi f hf hl hh⟩

lemma Inv.startSweep {dir : List Bytes} (h : Inv s) (hs : startSweep s dir = some t) : Inv t := by
  unfold Queue.startSweep at hs
  split at hs
  · split_ifs at hs
    cases hs
    exact h.setSweep trivial
  · exact nomatch hs

lemma Inv.endSweep (h : Inv s) (hs : endSweep s = some t) : Inv t := by
  unfold Queue.endSweep at hs
  split at hs
  · cases hs
    exact ⟨h.writers, h.envOwner, h.bodyOwner, h.present, h.dirs, trivial⟩
  · exact nomatch hs

-- The sweep takes up a body only while an envelope of it is in sight, unless none is left and none will come.
def Timely (s : State) : Action → Prop
  | .examine b => Live s b.name → Visible s b.name fun _ => True
  | _ => True

instance (msgid : Bytes) : Decidable (Live s msgid) :=
  decidable_of_iff ((s.writers msgid).any Writer.running = true ∨ ∃ f ∈ s.envs, f.msgId = some msgid)
    (or_congr_left (Option.any_eq_true _ _))

instance : (a : Action) → Decidable (Timely s a)
  | .examine b => inferInstanceAs (Decidable (Live s b.name → ∃ f ∈ s.envs, _))
  | .begin _ | .makeDir _ | .rename _ | .finish _ | .claim _ | .unclaim _ | .remove _ | .startSweep _ | .advance
  | .endSweep => isTrue trivial

lemma Inv.examine (h : Inv s) (ht : Timely s (.examine b)) (hs : examine s b = some t) : Inv t := by
  unfold Queue.examine at hs
  split at hs
  case h_2 => exact nomatch hs
  case h_1 =>
  split_ifs at hs with hb
  cases hs
  refine h.setSweep ?_
  by_cases hl : Live s b.name
  · exact .inr (ht hl)
  · exact .inl ⟨hl, h.bodyOwner b hb.1⟩

lemma Inv.mem_dirs (h : Inv s) (hf : f ∈ s.envs) (hl : f.dir.length = 2) :
    (f.dir.dropLast ∈ s.dirs ∧ f.dir.dropLast.length = 1) ∧ f.dir ∈ s.dirs := by
  have hne : f.dir.dropLast ≠ [] := by
    intro hn
    simpa [hl] using congrArg List.length hn
  have hd : f.dir ≠ [] := by
    intro hn
    simp [hn] at hl
  refine ⟨⟨h.dirs f hf _ ?_ hne, by simp [hl]⟩, h.dirs f hf _ ?_ hd⟩
  · exact (mem_inits _ _).mpr <| dropLast_prefix _
  · exact (mem_inits _ _).mpr (prefix_refl _)

lemma Inv.advance (h : Inv s) (hs : advance s = some t) : Inv t := by
  have hsw := h.sweep
  unfold SweepOk at hsw
  unfold Queue.advance at hs
  split at hs
  · exact nomatch hs
  · exact nomatch hs
  case h_3 b hp =>
    rw [hp] at hsw
    cases hs
    refine h.setSweep (Kept.setSweep hsw fun f hf hlen _ => ?_)
    obtain ⟨⟨hmem, ho⟩, _⟩ := h.mem_dirs hf hlen
    exact .inl (mem_filter.mpr ⟨hmem, decide_eq_true ho⟩)
  case h_4 b d todo found hp =>
    rw [hp] at hsw
    cases hs
    refine h.setSweep (Kept.setSweep hsw fun f hf hlen hh => ?_)
    rcases hh with hmem | hmem
    · rcases mem_cons.mp hmem with hd | hmem
      · refine .inr (mem_append_right _ (mem_filter.mpr ⟨(h.mem_dirs hf hlen).2, ?_⟩))
        exact decide_eq_true ⟨hlen, hd⟩
      · exact .inl hmem
    · exact .inr (mem_append_left _ hmem)
  case h_5 b found hp =>
    rw [hp] at hsw
    cases hs
    refine h.setSweep (.inr (Kept.setSweep hsw fun f hf hlen hh => ?_))
    exact hh.resolve_left not_mem_nil
  case h_6 b d todo matched hp =>
    rw [hp] at hsw
    cases hs
    refine h.setSweep ?_
    rcases hsw with rfl | hde | ⟨f, hf, hid, hlen, hh⟩
    · exact .inl (Bool.true_or _)
    · exact .inr (.inl hde)
    rcases mem_cons.mp hh with hd | hmem
    · have hin : f ∈ s.envs.filter (·.dir = d) := mem_filter.mpr ⟨hf, decide_eq_true hd⟩
      exact .inl (by simp [bodyHasEnvelopes_of_mem hin hlen hid])
    · exact .inr (.inr ⟨f, hf, hid, hlen, hmem⟩)
  case h_7 =>
    cases hs
    exact h.setSweep trivial
  case h_8 b hp =>
    rw [hp] at hsw
    cases hs
    have hde : ¬ Live s b.name := by
      rcases hsw with hm | hde | ⟨_, _, _, _, hnil⟩
      · exact absurd hm Bool.false_ne_true
      · exact hde.1
      · exact absurd hnil not_mem_nil
    refine ⟨h.writers, h.envOwner, ?_, ?_, h.dirs, trivial⟩
    · exact fun e he => h.bodyOwner e (mem_removeBody.mp he).1
    intro m w hw hl
    refine mem_removeBody.mpr ⟨h.present m w hw hl, ?_⟩
    rintro ⟨_, hn⟩
    exact hde (hn ▸ (h.writers m w hw).bodyName.symm ▸ hl)

end Scheduler

lemma Inv.step {c : CaseMap} {cfg : Config} {s t : State} {a : Action} (h : Inv s)
    (ht : Timely s a) (hs : step c cfg s a = some t) : Inv t := by
  cases a with
  | begin req => exact h.beginWrite hs
  | makeDir msgid => exact h.makeDirStep hs
  | rename msgid => exact h.renameStep hs
  | finish msgid => exact h.finishStep hs
  | claim f =>
    simp only [Queue.step] at hs
    split_ifs at hs
    exact h.envStep (path_moveEnv (g := f.claim) (envStep_mem hs) rfl) hs
  | unclaim f =>
    simp only [Queue.step] at hs
    split_ifs at hs
    exact h.envStep (path_moveEnv (g := f.unclaim) (envStep_mem hs) rfl) hs
  | remove f => exact h.envStep (fun g hg => ⟨g, mem_of_mem_filter hg, rfl⟩) hs
  | startSweep dir => exact h.startSweep hs
  | examine b => exact h.examine ht hs
  | advance => exact h.advance hs
  | endSweep => exact h.endSweep hs

def BodyPresent (s : State) : Prop :=
  ∀ f ∈ s.envs, ∀ m, f.msgId = some m → ∃ w, s.writers m = some w ∧ w.body ∈ s.bodies

lemma Inv.bodyPresent {s : State} (h : Inv s) : BodyPresent s := by
  intro f hf m hid
  obtain ⟨m', hid', ho⟩ := h.envOwner f hf
  obtain rfl := Option.some.inj (hid'.symm.trans hid)
  obtain ⟨w, hw⟩ := Option.ne_none_iff_exists'.mp ho
  exact ⟨w, hw, h.present m' w hw (.inr ⟨f, hf, hid⟩)⟩

theorem envelope_has_body {c : CaseMap} {cfg : Config} {s : State}
    (h : Reaches (step c cfg) Timely State.empty s) : BodyPresent s :=
  (h.invariant inv_empty fun _ _ _ hinv htimely hstep => hinv.step htimely hstep).bodyPresent

def sampleConfig : Config := ⟨10, ascii "mx.example.org", none⟩

def sampleRequest : Request where
  origin := ascii "alice@example.org"
  recipients := [ascii "bob@example.com"]
  presetMsgIdHex := []
  freshMsgIdHex := sampleMsgIdHex
  body := ascii "hi"
  now := 0

def sampleBody : BodyFile where
  dir := [ascii "org", ascii "example"]
  name := sampleRequest.msgIdHex
  data := messageIdHeader (sampleRequest.msgId CaseMap.asciiOnly) ++ sampleRequest.body

-- The sweep runs after the body has appeared and before its first envelope.
def sweepEarly : List Action :=
  [.begin sampleRequest, .makeDir sampleRequest.msgIdHex, .startSweep [ascii "com", ascii "example"],
    .examine sampleBody] ++ List.replicate 5 .advance ++ [.endSweep, .rename sampleRequest.msgIdHex]

theorem envelope_outlives_body :
    ∃ s, Reaches (step CaseMap.asciiOnly sampleConfig) (fun _ _ => True) State.empty s ∧
      ¬ BodyPresent s := by
  have hr : (runSteps (step CaseMap.asciiOnly sampleConfig) State.empty sweepEarly).map
      (fun s => (s.envs.map EnvFile.msgId, s.bodies)) = some ([some sampleRequest.msgIdHex], []) := by
    decide +kernel
  obtain ⟨s, hs, hfi⟩ := Option.map_eq_some_iff.mp hr
  obtain ⟨hi, hb⟩ := Prod.mk.inj hfi
  refine ⟨s, Reaches.of_runSteps (fun _ _ _ => trivial) hs, fun hp => ?_⟩
  obtain ⟨f, hf, hid⟩ := mem_map.mp (hi ▸ mem_singleton_self _)
  obtain ⟨w, _, hbo⟩ := hp f hf _ hid
  simp [hb] at hbo

-- The sweep runs once the envelope is there, and leaves the body where it is.
def sweepLate : List Action :=
  [.begin sampleRequest, .makeDir sampleRequest.msgIdHex, .rename sampleRequest.msgIdHex,
    .startSweep [ascii "com", ascii "example"], .examine sampleBody] ++ List.replicate 5 .advance ++ [.endSweep]

theorem envelope_has_body_sample :
    ∃ s, runSteps (step CaseMap.asciiOnly sampleConfig) State.empty sweepLate = some s ∧
      s.bodies = [sampleBody] ∧ BodyPresent s := by
  have hr : (runSteps (step CaseMap.asciiOnly sampleConfig) State.empty sweepLate).map State.bodies =
      some [sampleBody] := by
    decide +kernel
  obtain ⟨s, hs, hb⟩ := Option.map_eq_some_iff.mp hr
  have htimely : Along (step CaseMap.asciiOnly sampleConfig) Timely State.empty sweepLate := by
    decide +kernel
  exact ⟨s, hs, hb, envelope_has_body (Reaches.of_along htimely hs)⟩

end Maildancer.Queue

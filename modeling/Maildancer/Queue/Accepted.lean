import Maildancer.Queue.Findable

namespace Maildancer.Queue

open List Text

structure Owned where
  call : Nat
  file : EnvFile
deriving DecidableEq

-- A recipient that a call has accepted: its envelope as written, the id of the
-- message and the content of the body the call wrote.
structure Accepted where
  call : Nat
  env : EnvFile
  msgid : Bytes
  data : Bytes
deriving DecidableEq

def Accepted.owns (a : Accepted) (o : Owned) : Prop :=
  o.call = a.call ∧ o.file.path = a.env.path ∧ o.file.content = a.env.content

instance (a : Accepted) (o : Owned) : Decidable (a.owns o) := inferInstanceAs (Decidable (_ ∧ _ ∧ _))

-- The queue directory, the calls made so far and the accepted recipients whose
-- envelope has not been removed by a delivery.
structure Account where
  calls : Nat
  files : List Owned
  bodies : List BodyFile
  owed : List Accepted

def Account.empty : Account := ⟨0, [], [], []⟩

def Owned.sameName (o : Owned) (f : EnvFile) : Prop := o.file.path = f.path ∧ o.file.delivering = f.delivering

instance (o : Owned) (f : EnvFile) : Decidable (o.sameName f) := inferInstanceAs (Decidable (_ ∧ _))

-- os.Rename replaces what stands under the new name.
def putOwned (o : Owned) (files : List Owned) : List Owned :=
  files.filter (fun x => ¬ x.sameName o.file) ++ [o]

def putAll (call : Nat) (envs : List EnvFile) (files : List Owned) : List Owned :=
  envs.foldl (fun files f => putOwned ⟨call, f⟩ files) files

-- A successful call of Write, what the scheduler and mail-remote do to single
-- envelopes, and the removal of bodies without envelopes.
inductive Event
  | write (req : Request)
  | claim (o : Owned)
  | unclaim (o : Owned)
  | remove (o : Owned)
  | clean

namespace Account

def envs (s : Account) : List EnvFile := s.files.map Owned.file

def rename (s : Account) (o : Owned) (f : EnvFile) : Account :=
  { s with files := putOwned ⟨o.call, f⟩ (s.files.filter (· ≠ o)) }

def step (c : CaseMap) (cfg : Config) (s : Account) : Event → Option Account
  | .write req =>
    match write c cfg req with
    | .error _ => none
    | .ok out =>
      if out.failure = none then some {
        calls := s.calls + 1
        files := putAll s.calls out.envs s.files
        bodies := putBody out.body s.bodies
        owed := s.owed ++ out.envs.map fun f => ⟨s.calls, f, req.msgIdHex, out.body.data⟩ }
      else none
  | .claim o =>
    if o ∈ s.files ∧ o.file.delivering = false then some (s.rename o o.file.claim) else none
  | .unclaim o =>
    if o ∈ s.files ∧ o.file.delivering = true then some (s.rename o o.file.unclaim) else none
  | .remove o =>
    if o ∈ s.files then
      some { s with files := s.files.filter (· ≠ o), owed := s.owed.filter fun a => ¬ a.owns o }
    else none
  | .clean => some { s with bodies := s.bodies.filter fun b =>
    b.dir.length ≠ 2 || hasPrefix (ascii "tmp_") b.name || bodyHasEnvelopes s.envs b.name }

def shown (s : Account) (msgid : Bytes) : Option BodyFile := resolveBody (globOrder s.bodies) msgid

end Account

-- Every accepted recipient has an envelope file of its own and a body with the content of its own call.
structure Accounted (s : Account) : Prop where
  owned : ∀ a ∈ s.owed, ∃ o ∈ s.files, a.owns o
  single : ∀ a ∈ s.owed, ∀ a' ∈ s.owed, ∀ o ∈ s.files, a.owns o → a'.owns o → a = a'
  body : ∀ a ∈ s.owed, ∃ b, s.shown a.msgid = some b ∧ b.data = a.data

def Vacant (s : Account) (f : EnvFile) : Prop := ∀ o ∈ s.files, ¬ o.sameName f

def ComesFirst (c : CaseMap) (req : Request) (b : BodyFile) : Prop :=
  TwoLevels (extractDomain c req.origin) ∧
    labelDir (splitDomainLabels (extractDomain c req.origin)) ≤ b.dir

-- What the body of a call needs: no accepted recipient of the same id gets to
-- see another content, and the new ones get to see theirs.
def BodyFits (c : CaseMap) (cfg : Config) (s : Account) (req : Request) : Prop :=
  match s.shown req.msgIdHex with
  | none => TwoLevels (extractDomain c req.origin) ∨ req.recipients = []
  | some b => signed c cfg req = some b.data ∨
      (ComesFirst c req b ∧ ∀ a ∈ s.owed, a.msgid ≠ req.msgIdHex) ∨
      (¬ ComesFirst c req b ∧ req.recipients = [])

def Safe (c : CaseMap) (cfg : Config) (s : Account) : Event → Prop
  | .write req => (∀ f ∈ envFiles c cfg req, Vacant s f) ∧ BodyFits c cfg s req
  | .claim o => Vacant s o.file.claim
  | .unclaim o => Vacant s o.file.unclaim
  | .remove _ => True
  | .clean => ∀ a ∈ s.owed, bodyHasEnvelopes s.envs a.msgid = true

structure Account.Inv (s : Account) : Prop where
  owned : ∀ a ∈ s.owed, ∃ o ∈ s.files, a.owns o
  body : ∀ a ∈ s.owed, ∃ b, s.shown a.msgid = some b ∧ b.data = a.data
  held : ∀ o ∈ s.files, ∃ a ∈ s.owed, a.owns o
  unique : ∀ o ∈ s.files, ∀ x ∈ s.files, o.call = x.call → o.file.path = x.file.path → o = x
  single : ∀ a ∈ s.owed, ∀ a' ∈ s.owed, a.call = a'.call → a.env.path = a'.env.path → a = a'
  past : ∀ a ∈ s.owed, a.call < s.calls
  valid : ∀ a ∈ s.owed, validMsgIdHex a.msgid = true
  distinct : Distinct s.bodies

namespace Account

variable {c : CaseMap} {cfg : Config} {s t : Account}

lemma inv_empty : empty.Inv := by
  refine ⟨?_, ?_, ?_, ?_, ?_, ?_, ?_, ?_⟩ <;> intro a ha <;> cases ha

lemma Inv.accounted (h : s.Inv) : Accounted s := by
  refine ⟨h.owned, fun a ha a' ha' o _ ho how => ?_, h.body⟩
  exact h.single a ha a' ha' (ho.1.symm.trans how.1) (ho.2.1.symm.trans how.2.1)

lemma Inv.call_lt (h : s.Inv) {o : Owned} (ho : o ∈ s.files) : o.call < s.calls := by
  obtain ⟨a, ha, how⟩ := h.held o ho
  rw [how.1]
  exact h.past a ha

variable {x : Owned} {files : List Owned} {call : Nat} {envs : List EnvFile}

lemma mem_putOwned {o : Owned} :
    x ∈ putOwned o files ↔ (x ∈ files ∧ ¬ x.sameName o.file) ∨ x = o := by
  simp [putOwned]

lemma mem_putAll (h : x ∈ putAll call envs files) :
    (x ∈ files ∧ ∀ f ∈ envs, ¬ x.sameName f) ∨ x.call = call ∧ x.file ∈ envs := by
  induction envs generalizing files with
  | nil => exact Or.inl ⟨h, by simp⟩
  | cons f envs ih =>
    rcases ih h with ⟨hx, hn⟩ | ⟨hc, hf⟩
    · rcases mem_putOwned.mp hx with ⟨hx, hna⟩ | rfl
      · refine Or.inl ⟨hx, fun g hg => ?_⟩
        rcases mem_cons.mp hg with rfl | hg
        · exact hna
        · exact hn g hg
      · exact Or.inr ⟨rfl, mem_cons_self⟩
    · exact Or.inr ⟨hc, mem_cons_of_mem _ hf⟩

lemma mem_putAll_of_mem
    (hx : x ∈ files) (hn : ∀ f ∈ envs, ¬ x.sameName f) : x ∈ putAll call envs files := by
  induction envs generalizing files with
  | nil => exact hx
  | cons f envs ih =>
    apply ih
    · exact mem_putOwned.mpr (Or.inl ⟨hx, hn f mem_cons_self⟩)
    · exact fun g hg => hn g (mem_cons_of_mem _ hg)

lemma mem_putAll_new (files : List Owned) {f : EnvFile}
    (hp : (envs.map EnvFile.path).Nodup) (hf : f ∈ envs) : (⟨call, f⟩ : Owned) ∈ putAll call envs files := by
  induction envs generalizing files with
  | nil => cases hf
  | cons g envs ih =>
    obtain ⟨hfr, hp⟩ := nodup_cons.mp hp
    rcases mem_cons.mp hf with rfl | hf
    · apply mem_putAll_of_mem (mem_putOwned.mpr (Or.inr rfl))
      intro e he hn
      apply hfr
      rw [hn.1]
      exact mem_map_of_mem he
    · exact ih _ hp hf

lemma write_cases {req : Request} (hs : step c cfg s (.write req) = some t) :
    ∃ out, write c cfg req = .ok out ∧ out.failure = none ∧ t = {
      calls := s.calls + 1
      files := putAll s.calls out.envs s.files
      bodies := putBody out.body s.bodies
      owed := s.owed ++ out.envs.map fun f => ⟨s.calls, f, req.msgIdHex, out.body.data⟩ } := by
  simp only [step] at hs
  split at hs
  · cases hs
  · next out hw =>
      split_ifs at hs with hf
      exact ⟨out, hw, hf, (Option.some.inj hs).symm⟩

section Body

variable {req : Request} {out : Written} {b : BodyFile}

lemma Inv.lookup_none (h : s.Inv) (hw : write c cfg req = .ok out) (hs : s.shown req.msgIdHex = none) :
    (∃ b, resolveBody (globOrder (putBody out.body s.bodies)) req.msgIdHex = some b ∧
      b.data = out.body.data) ↔ TwoLevels (extractDomain c req.origin) := by
  obtain ⟨hn, hd⟩ := write_body hw
  have hno := resolveBody_eq_none.mp hs
  rw [← labelDir_length, ← hd]
  constructor
  · intro hf
    obtain ⟨b, hb, -⟩ := hf
    obtain ⟨hb, ⟨hl, hid⟩, -⟩ := (resolveBody_eq_some (h.distinct.putBody _)).mp hb
    rcases mem_putBody.mp hb with ⟨hb, -⟩ | rfl
    · exact absurd hid (hno b hb hl)
    · exact hl
  · intro hl
    refine ⟨out.body, ?_, rfl⟩
    rw [← hn, resolveBody_putBody h.distinct]
    exact ⟨hl, fun e he hsub hid => absurd (hid.trans hn) (hno e he hsub)⟩

lemma Inv.lookup_first (h : s.Inv) (hw : write c cfg req = .ok out)
    (hs : s.shown req.msgIdHex = some b) (hf : ComesFirst c req b) :
    resolveBody (globOrder (putBody out.body s.bodies)) req.msgIdHex = some out.body := by
  obtain ⟨hn, hd⟩ := write_body hw
  rw [← hn, resolveBody_putBody h.distinct, hd, labelDir_length]
  refine ⟨hf.1, fun e he hsub hid => ?_⟩
  have hle := ((resolveBody_eq_some h.distinct).mp hs).2.2 e he hsub (hid.trans hn)
  exact List.le_trans hf.2 hle

lemma Inv.lookup_later (h : s.Inv) (hw : write c cfg req = .ok out)
    (hs : s.shown req.msgIdHex = some b) (hl : ¬ ComesFirst c req b) :
    resolveBody (globOrder (putBody out.body s.bodies)) req.msgIdHex = some b := by
  obtain ⟨hn, hd⟩ := write_body hw
  rw [← hn]
  apply resolveBody_put_later h.distinct (by rw [hn]; exact hs)
  rw [hd, labelDir_length]
  exact hl

variable {a : Accepted}

lemma Inv.lookup_other (h : s.Inv) (hw : write c cfg req = .ok out) (ha : a ∈ s.owed)
    (hne : a.msgid ≠ req.msgIdHex) :
    ∃ b, resolveBody (globOrder (putBody out.body s.bodies)) a.msgid = some b ∧ b.data = a.data := by
  rw [resolveBody_put_other h.distinct (by rw [(write_body hw).1]; exact Ne.symm hne)]
  exact h.body a ha

lemma Inv.shown_data (h : s.Inv) (hs : s.shown req.msgIdHex = some b) (ha : a ∈ s.owed)
    (heq : a.msgid = req.msgIdHex) : b.data = a.data := by
  obtain ⟨b', hb', hsa⟩ := h.body a ha
  rw [heq, hs] at hb'
  rw [Option.some.inj hb', hsa]

lemma Inv.served_iff (h : s.Inv) (hw : write c cfg req = .ok out) (hs : s.shown req.msgIdHex = some b)
    {x : BodyFile} (hl : resolveBody (globOrder (putBody out.body s.bodies)) req.msgIdHex = some x) :
    ((∀ a ∈ s.owed, ∃ b, resolveBody (globOrder (putBody out.body s.bodies)) a.msgid = some b ∧
        b.data = a.data) ∧
      (req.recipients ≠ [] → ∃ b, resolveBody (globOrder (putBody out.body s.bodies)) req.msgIdHex = some b ∧
        b.data = out.body.data)) ↔
      ((∃ a ∈ s.owed, a.msgid = req.msgIdHex) → x.data = b.data) ∧
        (req.recipients ≠ [] → x.data = out.body.data) := by
  constructor
  · intro hg
    refine ⟨fun he => ?_, fun hr => ?_⟩
    · obtain ⟨a, ha, heq⟩ := he
      obtain ⟨b', hb', hsa⟩ := hg.1 a ha
      rw [heq, hl] at hb'
      rw [Option.some.inj hb', hsa, h.shown_data hs ha heq]
    · obtain ⟨b', hb', hsa⟩ := hg.2 hr
      rw [hl] at hb'
      rw [Option.some.inj hb', hsa]
  · intro hse
    refine ⟨fun a ha => ?_, fun hr => ⟨x, hl, hse.2 hr⟩⟩
    by_cases heq : a.msgid = req.msgIdHex
    · refine ⟨x, ?_, (hse.1 ⟨a, ha, heq⟩).trans (h.shown_data hs ha heq)⟩
      rw [heq]
      exact hl
    · exact h.lookup_other hw ha heq

lemma Inv.bodyFits_iff (h : s.Inv) (hw : write c cfg req = .ok out) : BodyFits c cfg s req ↔
      (∀ a ∈ s.owed, ∃ b, resolveBody (globOrder (putBody out.body s.bodies)) a.msgid = some b ∧
        b.data = a.data) ∧
      (req.recipients ≠ [] → ∃ b,
        resolveBody (globOrder (putBody out.body s.bodies)) req.msgIdHex = some b ∧
          b.data = out.body.data) := by
  unfold BodyFits
  rcases hs : s.shown req.msgIdHex with _ | b
  · have ho : ∀ a ∈ s.owed, a.msgid ≠ req.msgIdHex := by
      intro a ha heq
      obtain ⟨b, hb, -⟩ := h.body a ha
      rw [heq, hs] at hb
      cases hb
    simp only [h.lookup_none hw hs]
    constructor
    · intro hf
      exact ⟨fun a ha => h.lookup_other hw ha (ho a ha), fun hr => hf.resolve_right hr⟩
    intro hg
    by_cases hr : req.recipients = []
    · exact Or.inr hr
    · exact Or.inl (hg.2 hr)
  · have hd : signed c cfg req = some b.data ↔ out.body.data = b.data := by
      rw [write_data hw, Option.some.injEq]
    simp only [hd]
    by_cases hfi : ComesFirst c req b
    · rw [h.served_iff hw hs (h.lookup_first hw hs hfi)]
      constructor
      · intro hf
        refine ⟨fun he => ?_, fun _ => rfl⟩
        obtain ⟨a, ha, heq⟩ := he
        rcases hf with hsa | ⟨-, hn⟩ | ⟨hl, -⟩
        · exact hsa
        · exact absurd heq (hn a ha)
        · exact absurd hfi hl
      · intro hse
        by_cases he : ∃ a ∈ s.owed, a.msgid = req.msgIdHex
        · exact Or.inl (hse.1 he)
        · exact Or.inr (Or.inl ⟨hfi, fun a ha heq => he ⟨a, ha, heq⟩⟩)
    · rw [h.served_iff hw hs (h.lookup_later hw hs hfi)]
      constructor
      · intro hf
        refine ⟨fun _ => rfl, fun hr => ?_⟩
        rcases hf with hsa | ⟨hfr, -⟩ | ⟨-, hn⟩
        · exact hsa.symm
        · exact absurd hfr hfi
        · exact absurd hn hr
      · intro hse
        by_cases hr : req.recipients = []
        · exact Or.inr (Or.inr ⟨hfi, hr⟩)
        · exact Or.inl (hse.2 hr).symm

end Body

lemma Inv.write {req : Request} (h : s.Inv) (hs : Safe c cfg s (.write req))
    (hst : step c cfg s (.write req) = some t) : t.Inv := by
  obtain ⟨out, hw, hfa, rfl⟩ := write_cases hst
  have he := write_envs hw
  have hv : ∀ f ∈ out.envs, Vacant s f := by
    rw [he]
    exact hs.1
  have hp : (out.envs.map EnvFile.path).Nodup := by
    rw [he]
    exact envFile_paths_nodup c cfg req _
  obtain ⟨hold, hn⟩ := (h.bodyFits_iff hw).mp hs.2
  have hsp : ∀ a : Accepted, a ∈ s.owed ++ out.envs.map (fun f =>
      (⟨s.calls, f, req.msgIdHex, out.body.data⟩ : Accepted)) →
      a ∈ s.owed ∨ a.call = s.calls ∧ a.env ∈ out.envs ∧ a.msgid = req.msgIdHex ∧ a.data = out.body.data := by
    intro a ha
    rcases mem_append.mp ha with ha | ha
    · exact Or.inl ha
    · obtain ⟨f, hf, rfl⟩ := mem_map.mp ha
      exact Or.inr ⟨rfl, hf, rfl, rfl⟩
  have hsa : ∀ f ∈ out.envs, ∀ g ∈ out.envs, f.path = g.path → f = g := fun f hf g hg hpa =>
    inj_on_of_nodup_map hp hf hg hpa
  have hr : ∀ f ∈ out.envs, req.recipients ≠ [] := by
    intro f hf hnil
    rw [he, envFiles, hnil] at hf
    cases hf
  refine ⟨fun a ha => ?_, fun a ha => ?_, fun o ho => ?_, fun o ho x hx hc hpa => ?_,
    fun a ha a' ha' hc hpa => ?_, fun a ha => ?_, fun a ha => ?_, h.distinct.putBody _⟩
  · rcases hsp a ha with ha | ⟨hc, hf, -, -⟩
    · obtain ⟨o, ho, how⟩ := h.owned a ha
      exact ⟨o, mem_putAll_of_mem ho fun f hf => hv f hf o ho, how⟩
    · exact ⟨⟨s.calls, a.env⟩, mem_putAll_new s.files hp hf, hc.symm, rfl, rfl⟩
  · rcases hsp a ha with ha | ⟨-, hf, hid, hd⟩
    · exact hold a ha
    · rw [hid, hd]
      exact hn (hr _ hf)
  · rcases mem_putAll ho with ⟨ho, -⟩ | ⟨hc, hf⟩
    · obtain ⟨a, ha, how⟩ := h.held o ho
      exact ⟨a, mem_append_left _ ha, how⟩
    · exact ⟨⟨s.calls, o.file, req.msgIdHex, out.body.data⟩,
        mem_append_right _ (mem_map_of_mem hf), hc, rfl, rfl⟩
  · rcases mem_putAll ho with ⟨ho, -⟩ | ⟨hoc, hof⟩
    · rcases mem_putAll hx with ⟨hx, -⟩ | ⟨hxc, -⟩
      · exact h.unique o ho x hx hc hpa
      · have hlt := h.call_lt ho
        omega
    · rcases mem_putAll hx with ⟨hx, -⟩ | ⟨hxc, hxf⟩
      · have hlt := h.call_lt hx
        omega
      have hfi := hsa _ hof _ hxf hpa
      cases o
      cases x
      simp_all
  · rcases hsp a ha with hold | ⟨hac, haf, haid, had⟩
    · rcases hsp a' ha' with hold' | ⟨haa, -⟩
      · exact h.single a hold a' hold' hc hpa
      · have hlt := h.past a hold
        omega
    · rcases hsp a' ha' with hold' | ⟨haa, haf', haid', hat⟩
      · have hlt := h.past a' hold'
        omega
      have hfi := hsa _ haf _ haf' hpa
      cases a
      cases a'
      simp_all
  · rcases hsp a ha with hold | ⟨hac, -⟩
    · exact Nat.lt_succ_of_lt (h.past a hold)
    · rw [hac]
      exact Nat.lt_succ_self _
  · rcases hsp a ha with hold | ⟨-, -, haid, -⟩
    · exact h.valid a hold
    · rw [haid]
      exact write_msgIdHex hw

section Rename

variable {o : Owned} {f : EnvFile}

lemma mem_rename :
    x ∈ (s.rename o f).files ↔ (x ∈ s.files ∧ x ≠ o ∧ ¬ x.sameName f) ∨ x = ⟨o.call, f⟩ := by
  simp [rename, mem_putOwned, and_assoc]

lemma Inv.rename (h : s.Inv) (ho : o ∈ s.files) (hp : f.path = o.file.path)
    (hc : f.content = o.file.content) (hv : Vacant s f) : (s.rename o f).Inv := by
  have hm : ∀ a : Accepted, a.owns o ↔ a.owns ⟨o.call, f⟩ := by
    intro a
    rw [Accepted.owns, Accepted.owns, hp, hc]
  refine ⟨fun a ha => ?_, h.body, fun x hx => ?_, fun x hx y hy hca hpa => ?_, h.single, h.past, h.valid,
    h.distinct⟩
  · obtain ⟨x, hx, how⟩ := h.owned a ha
    by_cases heq : x = o
    · rw [heq, hm] at how
      exact ⟨_, mem_rename.mpr (Or.inr rfl), how⟩
    · exact ⟨x, mem_rename.mpr (Or.inl ⟨hx, heq, hv x hx⟩), how⟩
  · rcases mem_rename.mp hx with ⟨hx, -, -⟩ | rfl
    · exact h.held x hx
    · obtain ⟨a, ha, how⟩ := h.held o ho
      exact ⟨a, ha, (hm a).mp how⟩
  · rcases mem_rename.mp hx with ⟨hx, hxo, -⟩ | rfl
    · rcases mem_rename.mp hy with ⟨hy, -, -⟩ | rfl
      · exact h.unique x hx y hy hca hpa
      · exact absurd (h.unique x hx o ho hca (hpa.trans hp)) hxo
    · rcases mem_rename.mp hy with ⟨hy, hyo, -⟩ | rfl
      · exact absurd (h.unique y hy o ho hca.symm (hpa.symm.trans hp)) hyo
      · rfl

lemma Inv.vacant_of_rename (h : s.Inv) (ho : o ∈ s.files) (hp : f.path = o.file.path)
    (hd : f.delivering ≠ o.file.delivering) (haf : Accounted (s.rename o f)) : Vacant s f := by
  intro x hx hn
  obtain ⟨a, ha, how⟩ := h.held x hx
  obtain ⟨y, hy, hon⟩ := haf.owned a ha
  have hc := how.1.trans hon.1.symm
  have hpa := how.2.1.trans hon.2.1.symm
  rcases mem_rename.mp hy with ⟨hy, -, hot⟩ | rfl
  · rw [h.unique x hx y hy hc hpa] at hn
    exact hot hn
  · have hs := h.unique x hx o ho hc (hpa.trans hp)
    rw [hs] at hn
    exact hd hn.2.symm

end Rename

lemma Inv.remove {o : Owned} (h : s.Inv) (ho : o ∈ s.files) :
    Inv { s with files := s.files.filter (· ≠ o), owed := s.owed.filter fun a => ¬ a.owns o } := by
  have how : ∀ a, a ∈ s.owed.filter (fun a => ¬ a.owns o) ↔ a ∈ s.owed ∧ ¬ a.owns o := by
    intro a
    rw [mem_filter, decide_eq_true_eq]
  have hf : ∀ x, x ∈ s.files.filter (· ≠ o) ↔ x ∈ s.files ∧ x ≠ o := by
    intro x
    rw [mem_filter, decide_eq_true_eq]
  refine ⟨fun a ha => ?_, fun a ha => h.body a ((how a).mp ha).1, fun x hx => ?_,
    fun x hx y hy => h.unique x ((hf x).mp hx).1 y ((hf y).mp hy).1,
    fun a ha a' ha' => h.single a ((how a).mp ha).1 a' ((how a').mp ha').1,
    fun a ha => h.past a ((how a).mp ha).1, fun a ha => h.valid a ((how a).mp ha).1, h.distinct⟩
  · obtain ⟨ha, hn⟩ := (how a).mp ha
    obtain ⟨x, hx, hon⟩ := h.owned a ha
    exact ⟨x, (hf x).mpr ⟨hx, fun heq => hn (heq ▸ hon)⟩, hon⟩
  obtain ⟨hx, hne⟩ := (hf x).mp hx
  obtain ⟨a, ha, hon⟩ := h.held x hx
  refine ⟨a, (how a).mpr ⟨ha, fun hot => hne ?_⟩, hon⟩
  exact h.unique x hx o ho (hon.1.trans hot.1.symm) (hon.2.1.trans hot.2.1.symm)

lemma hasPrefix_tmp_hex {name : Bytes} (h : validMsgIdHex name = true) :
    hasPrefix (ascii "tmp_") name = false := by
  have hu : (95 : UInt8) ∉ name := not_mem_hex h (by decide)
  rw [hasPrefix, Bool.eq_false_iff]
  intro hp
  have hpr := isPrefixOf_iff_prefix.mp hp
  exact hu (hpr.subset (by decide))

lemma Inv.shown_clean (h : s.Inv) {msgid : Bytes} (hv : validMsgIdHex msgid = true)
    (hs : step c cfg s .clean = some t) :
    t.shown msgid = if bodyHasEnvelopes s.envs msgid then s.shown msgid else none := by
  cases hs
  have ht := hasPrefix_tmp_hex hv
  have hm : ∀ e : BodyFile, e.dir.length = 2 → e.name = msgid →
      (e ∈ s.bodies.filter (fun b => b.dir.length ≠ 2 || hasPrefix (ascii "tmp_") b.name ||
        bodyHasEnvelopes s.envs b.name) ↔ e ∈ s.bodies ∧ bodyHasEnvelopes s.envs msgid = true) := by
    intro e hl hn
    rw [mem_filter, hn, ht]
    simp [hl]
  have hd : Distinct (s.bodies.filter fun b => b.dir.length ≠ 2 ||
      hasPrefix (ascii "tmp_") b.name || bodyHasEnvelopes s.envs b.name) := fun a ha b hb =>
    h.distinct a (mem_of_mem_filter ha) b (mem_of_mem_filter hb)
  split_ifs with hf
  · ext b
    rw [shown, shown, resolveBody_eq_some hd, resolveBody_eq_some h.distinct]
    constructor
    · intro hb
      obtain ⟨hb, hk, hle⟩ := hb
      refine ⟨((hm b hk.1 hk.2).mp hb).1, hk, fun e he hl hn => ?_⟩
      exact hle e ((hm e hl hn).mpr ⟨he, hf⟩) hl hn
    · intro hb
      obtain ⟨hb, hk, hle⟩ := hb
      refine ⟨(hm b hk.1 hk.2).mpr ⟨hb, hf⟩, hk, fun e he hl hn => ?_⟩
      exact hle e ((hm e hl hn).mp he).1 hl hn
  · rw [shown, resolveBody_eq_none]
    intro e he hl hn
    exact hf ((hm e hl hn).mp he).2

lemma Inv.clean (h : s.Inv) (hs : Safe c cfg s .clean) (hst : step c cfg s .clean = some t) : t.Inv := by
  have hsh : ∀ a ∈ s.owed, t.shown a.msgid = s.shown a.msgid := by
    intro a ha
    rw [h.shown_clean (h.valid a ha) hst, if_pos (hs a ha)]
  cases hst
  refine ⟨h.owned, fun a ha => ?_, h.held, h.unique, h.single, h.past, h.valid, fun a ha b hb => ?_⟩
  · rw [hsh a ha]
    exact h.body a ha
  · exact h.distinct a (mem_of_mem_filter ha) b (mem_of_mem_filter hb)

lemma claim_cases {o : Owned} (hs : step c cfg s (.claim o) = some t) :
    o ∈ s.files ∧ o.file.delivering = false ∧ t = s.rename o o.file.claim := by
  simp only [step] at hs
  split_ifs at hs with hc
  exact ⟨hc.1, hc.2, (Option.some.inj hs).symm⟩

lemma unclaim_cases {o : Owned} (hs : step c cfg s (.unclaim o) = some t) :
    o ∈ s.files ∧ o.file.delivering = true ∧ t = s.rename o o.file.unclaim := by
  simp only [step] at hs
  split_ifs at hs with hc
  exact ⟨hc.1, hc.2, (Option.some.inj hs).symm⟩

lemma remove_cases {o : Owned} (hs : step c cfg s (.remove o) = some t) : o ∈ s.files ∧
      t = { s with files := s.files.filter (· ≠ o), owed := s.owed.filter fun a => ¬ a.owns o } := by
  simp only [step] at hs
  split_ifs at hs with hc
  exact ⟨hc, (Option.some.inj hs).symm⟩

lemma Inv.step {e : Event} (h : s.Inv) (hs : Safe c cfg s e) (hst : step c cfg s e = some t) : t.Inv := by
  cases e with
  | write req => exact h.write hs hst
  | claim o =>
    obtain ⟨ho, -, rfl⟩ := claim_cases hst
    exact h.rename ho rfl rfl hs
  | unclaim o =>
    obtain ⟨ho, -, rfl⟩ := unclaim_cases hst
    exact h.rename ho rfl rfl hs
  | remove o =>
    obtain ⟨ho, rfl⟩ := remove_cases hst
    exact h.remove ho
  | clean => exact h.clean hs hst

lemma Inv.safe_of_accounted {e : Event} (h : s.Inv) (hs : Account.step c cfg s e = some t)
    (haf : Accounted t) : Safe c cfg s e := by
  cases e with
  | write req =>
    obtain ⟨out, hw, hfa, rfl⟩ := write_cases hs
    refine ⟨fun f hf o ho hn => ?_, (h.bodyFits_iff hw).mpr ⟨fun a ha => ?_, fun hr => ?_⟩⟩
    · -- The file at that name is gone and its recipient has no other.
      obtain ⟨a, ha, how⟩ := h.held o ho
      obtain ⟨x, hx, hon⟩ := haf.owned a (mem_append_left _ ha)
      have hc := how.1.trans hon.1.symm
      rcases mem_putAll hx with ⟨hx, hna⟩ | ⟨hxc, -⟩
      · have heq := h.unique o ho x hx hc (how.2.1.trans hon.2.1.symm)
        rw [heq] at hn
        rw [write_envs hw] at hna
        exact hna f hf hn
      · have hlt := h.call_lt ho
        omega
    · exact haf.body a (mem_append_left _ ha)
    · obtain ⟨rcpt, rest, hl⟩ := exists_cons_of_ne_nil hr
      have hf : envFile c cfg req rcpt 0 ∈ out.envs := by
        rw [write_envs hw]
        exact envFile_mem hw hfa (by rw [hl]; rfl)
      exact haf.body _ (mem_append_right _ (mem_map_of_mem hf))
  | claim o =>
    obtain ⟨ho, hp, rfl⟩ := claim_cases hs
    exact h.vacant_of_rename ho rfl (by simp [EnvFile.claim, hp]) haf
  | unclaim o =>
    obtain ⟨ho, hcl, rfl⟩ := unclaim_cases hs
    exact h.vacant_of_rename ho rfl (by simp [EnvFile.unclaim, hcl]) haf
  | remove o => trivial
  | clean =>
    intro a ha
    by_contra hno
    have hoe : a ∈ t.owed := by
      cases hs
      exact ha
    obtain ⟨b, hb, -⟩ := haf.body a hoe
    rw [h.shown_clean (h.valid a ha) hs, if_neg hno] at hb
    cases hb

end Account

-- Along every run of safe steps each accepted recipient keeps its envelope and
-- its body, and a step after such a run keeps them exactly if it is safe.
theorem accepted_kept {c : CaseMap} {cfg : Config} {s : Account}
    (h : Reaches (Account.step c cfg) (Safe c cfg) Account.empty s) :
    Accounted s ∧ ∀ e t, Account.step c cfg s e = some t → (Accounted t ↔ Safe c cfg s e) := by
  have hi := h.invariant Account.inv_empty fun _ _ _ hi hs hst => hi.step hs hst
  refine ⟨hi.accounted, fun e t hst => ⟨hi.safe_of_accounted hst, fun hs => ?_⟩⟩
  exact (hi.step hs hst).accounted

-- A forward, which is enqueued under the msgid of the message that is forwarded.
def forwardTo (rcpt : Bytes) : Event :=
  .write { sampleRequest with recipients := [rcpt], presetMsgIdHex := sampleMsgIdHex }

def twoForwards : List Event := [forwardTo (ascii "bob@a.example.com"), forwardTo (ascii "bob@b.example.com")]

theorem second_forward_overwrites :
    ∃ s, Reaches (Account.step CaseMap.asciiOnly sampleConfig) (fun _ _ => True) Account.empty s ∧
      ∃ a ∈ s.owed, ∀ o ∈ s.files, ¬ a.owns o := by
  have hr : (runSteps (Account.step CaseMap.asciiOnly sampleConfig) Account.empty twoForwards).any
      (fun s => decide (∃ a ∈ s.owed, ∀ o ∈ s.files, ¬ a.owns o)) = true := by decide +kernel
  rw [Option.any_eq_true] at hr
  obtain ⟨s, hs, hl⟩ := hr
  exact ⟨s, Reaches.of_runSteps (fun _ _ _ => trivial) hs, of_decide_eq_true hl⟩

theorem accepted_kept_sample :
    ∃ s, Reaches (Account.step CaseMap.asciiOnly sampleConfig) (Safe CaseMap.asciiOnly sampleConfig)
        Account.empty s ∧ s.owed.length = 1 ∧ Accounted s ∧
      ∀ e t, Account.step CaseMap.asciiOnly sampleConfig s e = some t →
        (Accounted t ↔ Safe CaseMap.asciiOnly sampleConfig s e) := by
  have hs : Safe CaseMap.asciiOnly sampleConfig Account.empty (.write sampleRequest) := by
    refine ⟨fun f _ o ho => ?_, Or.inl ?_⟩
    · cases ho
    · rw [← labelDir_length]
      decide +kernel
  have hr : Reaches (Account.step CaseMap.asciiOnly sampleConfig) (Safe CaseMap.asciiOnly sampleConfig)
      Account.empty _ := Reaches.refl.tail _ hs rfl
  exact ⟨_, hr, by decide +kernel, accepted_kept hr⟩

end Maildancer.Queue

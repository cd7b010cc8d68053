import Maildancer.Scheduler.Run

namespace Maildancer.Scheduler

open List Text Queue

def domainOf (c : CaseMap) (rcpt : Bytes) : Bytes := (splitAddress c rcpt).2

-- mail-remote looks up the exchangers of one domain, taken from the first envelope, for the whole batch.
def SingleDomain (c : CaseMap) (batch : List Entry) : Prop :=
  ∀ first ∈ batch.head?,
    (∀ e ∈ batch, domainOf c e.env.recipient = domainOf c first.env.recipient) ∧
      ∀ domain ∈ recipientDomain first.env, c.lower domain = domainOf c first.env.recipient

lemma processDomainDir_invocations (cfg : Config) (o : Outside) (s : Spool) (d : Bytes × Bytes) :
    (processDomainDir cfg o ⟨s, [], []⟩ d).invocations = dirInvocations o s d :=
  (processGroups_changes cfg o ⟨s, [], []⟩ d).invocations

variable {o : Outside} {inv : Invocation} {body : BodyFile}

lemma mem_dirInvocations {s : Spool} {d : Bytes × Bytes} (h : inv ∈ dirInvocations o s d) :
    ∃ g ∈ groups o s d, resolveBody s.bodies g.msgid = some inv.body ∧ ∀ e ∈ inv.batch, e ∈ g.entries := by
  obtain ⟨g, hg, hi⟩ := mem_flatMap.mp h
  obtain ⟨_, body, hb, hd⟩ := mem_groupInvocations.mp hi
  refine ⟨g, hg, ?_, batch_subset hd⟩
  rcases mem_deliveryInvocations.mp hd with ⟨_, _, rfl⟩ | ⟨_, rfl⟩
  · exact hb
  · exact hb

-- An envelope two levels below env/ that a scan can take up.
structure Waiting (s : Spool) (m : Bytes) (f : EnvFile) (env : QueueEnvelope) : Prop where
  present : f ∈ s.envs
  unclaimed : f.delivering = false
  content : f.content = some env
  msgId : f.msgId = some m

-- Among the envelopes of a message whose body is found, those that share a directory
-- share the domain, and each recipient has one at sign to cut at.
def Separable (c : CaseMap) (s : Spool) : Prop :=
  ∀ m, (resolveBody s.bodies m).isSome = true → ∀ d f env, Waiting s m f env → f.dir = domainDir d →
    (∀ domain ∈ recipientDomain env, c.lower domain = domainOf c env.recipient) ∧
      ∀ f' env', Waiting s m f' env' → f'.dir = f.dir → domainOf c env'.recipient = domainOf c env.recipient

def Outside.dueOnly (due : List Path) : Outside := .steady 0 fun p => p ∈ due

section DueOnly

variable {due : List Path} {s : Spool} {d : Bytes × Bytes} {m : Bytes} {f : EnvFile} {env : QueueEnvelope}

lemma picked_dueOnly {e : Entry} (h : Picked (Outside.dueOnly due) m e f) :
    e.expired = false ∧ f.path ∈ due := by
  have he : e.expired = false := by
    rw [h.expired]
    simp [expired, Outside.dueOnly, Outside.steady]
  have hd := h.due
  rw [he] at hd
  exact ⟨he, by simpa [Outside.dueOnly, Outside.steady] using hd⟩

lemma Waiting.mem_scan (h : Waiting s m f env) (hd : f.dir = domainDir d) (hdue : f.path ∈ due) :
    (m, (⟨f.path, false, env⟩ : Entry)) ∈ scan (Outside.dueOnly due) s d := by
  refine Scheduler.mem_scan.mpr ⟨f, h.present, hd, h.unclaimed, h.msgId, h.content, rfl, ?_, ?_⟩
  · simp [expired, Outside.dueOnly, Outside.steady]
  · simp [Outside.dueOnly, Outside.steady, hdue]

lemma exists_invocation_dueOnly (due : List Path) (hw : Waiting s m f env) (hd : f.dir = domainDir d)
    (hdue : f.path ∈ due) (hb : resolveBody s.bodies m = some body) :
    ∃ inv ∈ dirInvocations (Outside.dueOnly due) s d,
      (∀ e, e ∈ inv.batch ↔ (m, e) ∈ scan (Outside.dueOnly due) s d) ∧
        (⟨f.path, false, env⟩ : Entry) ∈ inv.batch := by
  have hs := hw.mem_scan hd hdue
  have ha : ∀ e, e ∈ activeOf (Outside.dueOnly due) (group (scan (Outside.dueOnly due) s d) m).entries ↔
      (m, e) ∈ scan (Outside.dueOnly due) s d := by
    intro e
    rw [mem_activeOf, mem_group]
    constructor
    · exact fun he => he.1.1
    · intro he
      obtain ⟨f', _, _, hpi⟩ := mem_scan.mp he
      exact ⟨⟨he, rfl⟩, (picked_dueOnly hpi).1⟩
  have hba := (ha _).mpr hs
  have hg := mem_groups.mpr ⟨m, _, hs, rfl⟩
  exact ⟨⟨false, body, _, _⟩, mem_flatMap.mpr ⟨_, hg, mem_groupInvocations.mpr ⟨rfl, body, hb,
    mem_deliveryInvocations.mpr (.inr ⟨ne_nil_of_mem hba, rfl⟩)⟩⟩, ha, hba⟩

end DueOnly

section Main

variable {c : CaseMap} {s : Spool}

lemma Separable.singleDomain (h : Separable c s) {d : Bytes × Bytes} (hi : inv ∈ dirInvocations o s d) :
    SingleDomain c inv.batch := by
  obtain ⟨g, hg, hb, hba⟩ := mem_dirInvocations hi
  have hw : ∀ e ∈ inv.batch, ∃ f, f.dir = domainDir d ∧ Waiting s g.msgid f e.env := by
    intro e he
    obtain ⟨f, hf, hd, hp⟩ := mem_entries hg (hba e he)
    exact ⟨f, hd, hf, hp.unclaimed, hp.content, hp.msgId⟩
  intro first hf
  obtain ⟨f, hd, hwf⟩ := hw first (mem_of_mem_head? hf)
  obtain ⟨hc, hs⟩ := h g.msgid (by rw [hb]; rfl) d f first.env hwf hd
  refine ⟨fun e he => ?_, hc⟩
  obtain ⟨f', hd', hwf'⟩ := hw e he
  exact hs f' e.env hwf' (hd'.trans hd.symm)

lemma separable_of_singleDomain (hs : ∀ o d, ∀ inv ∈ dirInvocations o s d, SingleDomain c inv.batch) :
    Separable c s := by
  intro m hm d f env hw hdir
  obtain ⟨body, hb⟩ := Option.isSome_iff_exists.mp hm
  constructor
  · -- only this envelope is due, so it is the first of its batch
    obtain ⟨inv, hi, hba, hme⟩ := exists_invocation_dueOnly [f.path] hw hdir (mem_singleton_self _) hb
    have hfi := List.head?_eq_some_head (ne_nil_of_mem hme)
    obtain ⟨f', hf', _, hp⟩ := mem_scan.mp ((hba _).mp (mem_of_mem_head? hfi))
    obtain rfl := s.eq_of_path hf' hw.present (mem_singleton.mp (picked_dueOnly hp).2)
    have he := Option.some.inj (hp.content.symm.trans hw.content)
    have hri := (hs _ _ inv hi _ hfi).2
    rw [he] at hri
    exact hri
  · -- with another one due as well, both are in the batch
    intro f' env' hw' hsa
    obtain ⟨inv, hi, hba, hme⟩ := exists_invocation_dueOnly [f.path, f'.path] hw hdir mem_cons_self hb
    have hme' := (hba _).mpr (hw'.mem_scan (hsa.trans hdir) (mem_cons_of_mem _ (mem_singleton_self _)))
    have hfi := List.head?_eq_some_head (ne_nil_of_mem hme)
    have ha := (hs _ _ inv hi _ hfi).1
    exact (ha _ hme').trans (ha _ hme).symm

end Main

def siblingConfig : Queue.Config := ⟨10, ascii "mx.example.org", none⟩

-- With an id of the caller, as for the targets of a redirect.
def siblingRequest (recipients : List Bytes) : Request where
  origin := ascii "alice@example.org"
  recipients := recipients
  presetMsgIdHex := sampleMsgIdHex
  freshMsgIdHex := sampleMsgIdHex
  body := ascii "hi"
  now := 0

def siblingBody : BodyFile where
  dir := [ascii "org", ascii "example"]
  name := sampleMsgIdHex
  data := messageIdHeader ((siblingRequest []).msgId CaseMap.asciiOnly) ++ ascii "hi"

def siblingSpool : Spool :=
  .inDir (ascii "com", ascii "example") [siblingBody]
    (envFiles CaseMap.asciiOnly siblingConfig (siblingRequest [ascii "x@a.example.com", ascii "y@b.example.com"]))
    (by decide +kernel)

def redirectSpool : Spool :=
  .inDir (ascii "com", ascii "example") [siblingBody]
    (envFiles CaseMap.asciiOnly siblingConfig (siblingRequest [ascii "x@a.example.com"]) ++
      envFiles CaseMap.asciiOnly siblingConfig (siblingRequest [ascii "y@b.example.com"])) (by decide +kernel)

lemma not_separable {c : CaseMap} {s : Spool} (m : Bytes) (d : Bytes × Bytes) {f f' : EnvFile}
    {env env' : QueueEnvelope}
    (hm : (resolveBody s.bodies m).isSome = true) (hw : Waiting s m f env) (hd : f.dir = domainDir d)
    (hw' : Waiting s m f' env') (hd' : f'.dir = f.dir) (hne : domainOf c env'.recipient ≠ domainOf c env.recipient) :
    ¬ Separable c s :=
  fun h => hne ((h m hm d f env hw hd).2 f' env' hw' hd')

end Maildancer.Scheduler

import Maildancer.Queue.Bodies

namespace Maildancer.Queue

open Text

instance : Std.Total fun a b : BodyFile => a.dir ≤ b.dir := ⟨fun a b => List.le_total a.dir b.dir⟩

instance : IsTrans BodyFile fun a b => a.dir ≤ b.dir := ⟨fun _ _ _ => List.le_trans⟩

-- filepath.Glob visits the directories of each level in the order of their names.
def globOrder (bodies : List BodyFile) : List BodyFile := bodies.insertionSort fun a b => a.dir ≤ b.dir

def Distinct (bodies : List BodyFile) : Prop :=
  ∀ a ∈ bodies, ∀ b ∈ bodies, a.dir = b.dir → a.name = b.name → a = b

lemma Distinct.putBody {bodies : List BodyFile} (h : Distinct bodies) (b : BodyFile) :
    Distinct (putBody b bodies) := by
  intro x hx y hy hd hn
  rcases mem_putBody.mp hx with ⟨hx, hxb⟩ | rfl
  · rcases mem_putBody.mp hy with ⟨hy, -⟩ | rfl
    · exact h x hx y hy hd hn
    · exact absurd ⟨hd, hn⟩ hxb
  · rcases mem_putBody.mp hy with ⟨hy, hyb⟩ | rfl
    · exact absurd ⟨hd.symm, hn.symm⟩ hyb
    · rfl

variable {bodies : List BodyFile} {msgid : Bytes} {b : BodyFile}

lemma resolveBody_eq_some (h : Distinct bodies) :
    resolveBody (globOrder bodies) msgid = some b ↔ b ∈ bodies ∧ (b.dir.length = 2 ∧ b.name = msgid) ∧
        ∀ e ∈ bodies, e.dir.length = 2 → e.name = msgid → b.dir ≤ e.dir := by
  rw [resolveBody, globOrder, find?_insertionSort_eq_some]
  · simp [and_imp]
  · intro x hx y hy hpx hpy hxy hyx
    simp only [Bool.and_eq_true, decide_eq_true_eq] at hpx hpy
    exact h x hx y hy (List.le_antisymm hxy hyx) (hpx.2.trans hpy.2.symm)

lemma resolveBody_eq_none :
    resolveBody (globOrder bodies) msgid = none ↔ ∀ e ∈ bodies, e.dir.length = 2 → e.name ≠ msgid := by
  rw [resolveBody, globOrder, List.find?_eq_none]
  simp

lemma resolveBody_put_other (h : Distinct bodies) (hne : b.name ≠ msgid) :
    resolveBody (globOrder (putBody b bodies)) msgid = resolveBody (globOrder bodies) msgid := by
  have hm : ∀ e : BodyFile, e.name = msgid → (e ∈ putBody b bodies ↔ e ∈ bodies) := by
    intro e hn
    rw [mem_putBody]
    constructor
    · intro he
      rcases he with he | rfl
      · exact he.1
      · exact absurd hn hne
    · exact fun he => Or.inl ⟨he, fun hs => hne (hs.2 ▸ hn)⟩
  ext e
  rw [resolveBody_eq_some (h.putBody b), resolveBody_eq_some h]
  constructor
  · intro hf
    obtain ⟨he, hk, hl⟩ := hf
    exact ⟨(hm e hk.2).mp he, hk, fun x hx hle hn =>
      hl x ((hm x hn).mpr hx) hle hn⟩
  · intro hf
    obtain ⟨he, hk, hl⟩ := hf
    exact ⟨(hm e hk.2).mpr he, hk, fun x hx hle hn =>
      hl x ((hm x hn).mp hx) hle hn⟩

def TwoLevels (domain : Bytes) : Prop :=
  (splitDomainLabels domain).1 ≠ [] ∧ (splitDomainLabels domain).2 ≠ []

lemma labelDir_length {domain : Bytes} : (labelDir (splitDomainLabels domain)).length = 2 ↔ TwoLevels domain := by
  unfold labelDir TwoLevels
  by_cases hf : (splitDomainLabels domain).1 = []
  · by_cases hs : (splitDomainLabels domain).2 = [] <;> simp [hf, hs]
  · by_cases hs : (splitDomainLabels domain).2 = [] <;> simp [hf, hs]

variable {c : CaseMap} {cfg : Config} {req : Request} {out : Written}

lemma envs_twoLevels (h : write c cfg req = .ok out) (hfa : out.failure = none) :
    (∀ f ∈ out.envs, f.dir.length = 2) ↔ ∀ rcpt ∈ req.recipients, TwoLevels (splitAddress c rcpt).2 := by
  rw [write_envs h]
  constructor
  · intro hd rcpt hr
    obtain ⟨n, hn⟩ := List.mem_iff_getElem?.mp hr
    exact labelDir_length.mp (hd _ (envFile_mem h hfa hn))
  · intro hl f hf
    obtain ⟨rcpt, n, hn, rfl⟩ := mem_envFiles hf
    exact labelDir_length.mpr (hl rcpt (List.mem_of_getElem? hn))

lemma resolveBody_putBody (hd : Distinct bodies) (b : BodyFile) :
    resolveBody (globOrder (putBody b bodies)) b.name = some b ↔
      b.dir.length = 2 ∧ ∀ e ∈ bodies, e.dir.length = 2 → e.name = b.name → b.dir ≤ e.dir := by
  rw [resolveBody_eq_some (hd.putBody b)]
  constructor
  · intro hf
    obtain ⟨-, ⟨hl, -⟩, hle⟩ := hf
    refine ⟨hl, fun e he hln hn => ?_⟩
    by_cases hdir : e.dir = b.dir
    · rw [hdir]
      exact List.le_refl _
    · exact hle e (mem_putBody.mpr (Or.inl ⟨he, fun hs => hdir hs.1⟩)) hln hn
  · intro hfi
    refine ⟨mem_putBody.mpr (Or.inr rfl), ⟨hfi.1, rfl⟩, fun e he hln hn => ?_⟩
    rcases mem_putBody.mp he with ⟨he, -⟩ | rfl
    · exact hfi.2 e he hln hn
    · exact List.le_refl _

lemma resolveBody_put_later (h : Distinct bodies) {e : BodyFile}
    (hf : resolveBody (globOrder bodies) b.name = some e) (hl : ¬ (b.dir.length = 2 ∧ b.dir ≤ e.dir)) :
    resolveBody (globOrder (putBody b bodies)) b.name = some e := by
  obtain ⟨he, hk, hla⟩ := (resolveBody_eq_some h).mp hf
  refine (resolveBody_eq_some (h.putBody b)).mpr ⟨mem_putBody.mpr (Or.inl ⟨he, fun hs => ?_⟩), hk,
    fun x hx hln hn => ?_⟩
  · exact hl ⟨hs.1 ▸ hk.1, by rw [hs.1]; exact List.le_refl _⟩
  rcases mem_putBody.mp hx with ⟨hx, -⟩ | rfl
  · exact hla x hx hln hn
  · rcases List.le_total e.dir x.dir with hle | hle
    · exact hle
    · exact absurd ⟨hln, hle⟩ hl

-- An envelope is found again exactly where the labels of both domains make two
-- directory levels and no older body of the same id comes first in the glob.
theorem accepted_findable_iff (h : write c cfg req = .ok out) (hfailure : out.failure = none)
    {bodies : List BodyFile} (hdistinct : Distinct bodies) :
    ((∀ f ∈ out.envs, f.dir.length = 2 ∧ extractMsgId f.fileName = some req.msgIdHex) ∧
        resolveBody (globOrder (putBody out.body bodies)) req.msgIdHex = some out.body ∧
        ∀ f ∈ out.envs, ∀ envs, f ∈ envs ∨ f.claim ∈ envs → bodyHasEnvelopes envs req.msgIdHex = true) ↔
      (∀ rcpt ∈ req.recipients, TwoLevels (splitAddress c rcpt).2) ∧
        TwoLevels (extractDomain c req.origin) ∧
        ∀ b ∈ bodies, b.dir.length = 2 → b.name = req.msgIdHex →
          labelDir (splitDomainLabels (extractDomain c req.origin)) ≤ b.dir := by
  obtain ⟨hn, hd⟩ := write_body h
  have hl := resolveBody_putBody hdistinct out.body
  rw [hn, hd, labelDir_length] at hl
  rw [hl, ← envs_twoLevels h hfailure]
  constructor
  · intro hfo
    exact ⟨fun f hf => (hfo.1 f hf).1, hfo.2.1⟩
  intro hle
  refine ⟨fun f hf => ⟨hle.1 f hf, ?_⟩, hle.2, fun f hf envs hp => ?_⟩
  · have hpl : f.delivering = false := by
      rw [write_envs h] at hf
      obtain ⟨rcpt, n, -, rfl⟩ := mem_envFiles hf
      rfl
    rw [EnvFile.extractMsgId_fileName, hpl, write_msgId h hf]
    rfl
  · have hid := write_msgId h hf
    rcases hp with hpl | hc
    · exact bodyHasEnvelopes_of_mem hpl (hle.1 f hf) hid
    · exact bodyHasEnvelopes_of_mem hc (hle.1 f hf) hid

def dottedRequest : Request := { sampleRequest with recipients := [ascii "bob@example.com."] }

theorem dotted_recipient_unfindable :
    ∃ out, write CaseMap.asciiOnly sampleConfig dottedRequest = .ok out ∧ out.failure = none ∧
      (∃ f ∈ out.envs, f.dir = [ascii "com"]) ∧ bodyHasEnvelopes out.envs dottedRequest.msgIdHex = false := by
  refine ⟨_, rfl, ?_⟩
  decide +kernel

theorem accepted_findable_iff_sample : ∃ out, write CaseMap.asciiOnly sampleConfig sampleRequest = .ok out ∧
      (((∀ f ∈ out.envs, f.dir.length = 2 ∧ extractMsgId f.fileName = some sampleRequest.msgIdHex) ∧
        resolveBody (globOrder (putBody out.body [])) sampleRequest.msgIdHex = some out.body ∧
        ∀ f ∈ out.envs, ∀ envs, f ∈ envs ∨ f.claim ∈ envs →
          bodyHasEnvelopes envs sampleRequest.msgIdHex = true) ↔
      (∀ rcpt ∈ sampleRequest.recipients, TwoLevels (splitAddress CaseMap.asciiOnly rcpt).2) ∧
        TwoLevels (extractDomain CaseMap.asciiOnly sampleRequest.origin) ∧
        ∀ b ∈ ([] : List BodyFile), b.dir.length = 2 → b.name = sampleRequest.msgIdHex →
          labelDir (splitDomainLabels (extractDomain CaseMap.asciiOnly sampleRequest.origin)) ≤ b.dir) := by
  have hw : write CaseMap.asciiOnly sampleConfig sampleRequest = .ok _ := rfl
  refine ⟨_, hw, accepted_findable_iff hw ?_ ?_⟩
  · decide +kernel
  · intro a ha
    cases ha

end Maildancer.Queue

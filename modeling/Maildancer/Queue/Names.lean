import Maildancer.Queue
import Mathlib.Data.List.TakeWhile

namespace Maildancer.Queue

open List Text

lemma not_mem_hex {s : Bytes} {b : UInt8} (hs : validMsgIdHex s = true)
    (hb : isHexDigit b = false) : b ∉ s := by
  intro hm
  simp only [validMsgIdHex, Bool.and_eq_true, all_eq_true] at hs
  rw [hs.2 b hm] at hb
  exact absurd hb (by decide)

variable {n : Nat} {msgidHex msgid : Bytes}

lemma not_mem_decimal {b : UInt8} (hb : isDigit b = false) : b ∉ decimal n := by
  intro hm
  rw [decimal_isDigit n b hm] at hb
  exact absurd hb (by decide)

-- Neither sign is in an id or a number, so both cuts fall where the name was put together.
lemma extractMsgId_envName (localPart : Bytes) (n : Nat)
    (hh : validMsgIdHex msgidHex = true) : extractMsgId (envName localPart msgidHex n) = some msgidHex := by
  have hr : atSign ∉ msgidHex ++ dot :: decimal n := by
    simp only [mem_append, mem_cons, not_or]
    exact ⟨not_mem_hex hh (by decide), by decide, not_mem_decimal (by decide)⟩
  have hat : cutLast atSign (envName localPart msgidHex n) =
      some (localPart, msgidHex ++ dot :: decimal n) := cutLast_eq_some.mpr ⟨rfl, hr⟩
  have hd : cutLast dot (msgidHex ++ dot :: decimal n) = some (msgidHex, decimal n) :=
    cutLast_eq_some.mpr ⟨rfl, not_mem_decimal (by decide)⟩
  simp [extractMsgId, envName_plain, hat, hd]

lemma eq_of_extractMsgId {name : Bytes} (h : extractMsgId name = some msgid) :
    ∃ front tail, name = front ++ atSign :: (msgid ++ dot :: tail) := by
  unfold extractMsgId at h
  split_ifs at h
  rcases hat : cutLast atSign name with _ | parts
  · simp [hat] at h
  obtain ⟨front, rest⟩ := parts
  simp only [hat, Option.map_eq_some_iff, Prod.exists, exists_and_right, exists_eq_right] at h
  obtain ⟨tail, hd⟩ := h
  obtain ⟨rfl, _⟩ := cutLast_eq_some.mp hat
  obtain ⟨rfl, _⟩ := cutLast_eq_some.mp hd
  exact ⟨front, tail, rfl⟩

-- The msgid is read off the name of the file, not from its content.
def EnvFile.msgId (f : EnvFile) : Option Bytes := extractMsgId f.name

variable {f : EnvFile} {c : CaseMap} {cfg : Config} {req : Request} {out : Written}

lemma EnvFile.msgId_of_path {g : EnvFile} (h : f.path = g.path) : f.msgId = g.msgId :=
  congrArg (fun p : List Bytes × Bytes => extractMsgId p.2) h

lemma EnvFile.extractMsgId_fileName (f : EnvFile) :
    extractMsgId f.fileName = if f.delivering then none else f.msgId := by
  unfold EnvFile.fileName
  split_ifs
  · have hs : hasSuffix deliveringSuffix (f.name ++ deliveringSuffix) = true :=
      isSuffixOf_iff_suffix.mpr ⟨f.name, rfl⟩
    simp [extractMsgId, hs]
  · rfl

-- The pattern of the sweep also finds envelopes that are being delivered.
lemma EnvFile.glob_fileName (h : f.msgId = some msgid) :
    contains (atSign :: (msgid ++ [dot])) f.fileName = true := by
  obtain ⟨front, tail, hn⟩ := eq_of_extractMsgId h
  rw [contains_iff]
  unfold EnvFile.fileName
  split_ifs
  · exact ⟨front, tail ++ deliveringSuffix, by simp [hn]⟩
  · exact ⟨front, tail, by simp [hn]⟩

lemma bodyHasEnvelopes_of_mem {envs : List EnvFile} (hf : f ∈ envs)
    (hd : f.dir.length = 2) (hid : f.msgId = some msgid) : bodyHasEnvelopes envs msgid = true := by
  simp only [bodyHasEnvelopes, any_eq_true, Bool.and_eq_true, decide_eq_true_eq]
  exact ⟨f, hf, hd, EnvFile.glob_fileName hid⟩

lemma write_msgIdHex (h : write c cfg req = .ok out) : validMsgIdHex req.msgIdHex = true := by
  unfold write at h
  unfold Request.msgIdHex
  dsimp only at h
  split_ifs at h with hs hp
  split_ifs with he
  · exact req.freshMsgIdHex.property
  · simpa [he] using hp

lemma write_body (h : write c cfg req = .ok out) : out.body.name = req.msgIdHex ∧
      out.body.dir = labelDir (splitDomainLabels (extractDomain c req.origin)) := by
  unfold write at h
  dsimp only at h
  split_ifs at h
  split at h
  · exact nomatch h
  · cases h
    exact ⟨rfl, rfl⟩

lemma write_data (h : write c cfg req = .ok out) : signed c cfg req = some out.body.data := by
  unfold write at h
  dsimp only at h
  split_ifs at h
  split at h
  · exact nomatch h
  · next data hs =>
      cases h
      exact hs

lemma write_envs (h : write c cfg req = .ok out) : out.envs = envFiles c cfg req := by
  unfold write at h
  dsimp only at h
  split_ifs at h
  split at h
  · exact nomatch h
  · cases h
    rfl

lemma mem_envFiles (h : f ∈ envFiles c cfg req) :
    ∃ rcpt n, req.recipients[n]? = some rcpt ∧ f = envFile c cfg req rcpt n := by
  obtain ⟨⟨rcpt, n⟩, hm, rfl⟩ := mem_map.mp h
  have hat := mem_zipIdx_iff_getElem?.mp hm
  have hlt := (List.getElem?_eq_some_iff.mp hat).1
  obtain ⟨rest, hr⟩ := takeWhile_prefix _ (l := req.recipients)
  refine ⟨rcpt, n, ?_, rfl⟩
  rw [← hr, List.getElem?_append_left hlt]
  exact hat

lemma envFile_mem {rcpt : Bytes} (h : write c cfg req = .ok out) (hf : out.failure = none)
    (hr : req.recipients[n]? = some rcpt) : envFile c cfg req rcpt n ∈ envFiles c cfg req := by
  have ha : ∀ r ∈ req.recipients, validRecipient c r = true := by
    unfold write at h
    dsimp only at h
    split_ifs at h
    split at h
    · exact nomatch h
    · cases h
      simpa using hf
  have ht := takeWhile_eq_self_iff.mpr ha
  refine mem_map.mpr ⟨(rcpt, n), ?_, rfl⟩
  rw [ht]
  exact mem_zipIdx_iff_getElem?.mpr hr

lemma write_msgId (h : write c cfg req = .ok out) (hf : f ∈ out.envs) : f.msgId = some req.msgIdHex := by
  rw [write_envs h] at hf
  obtain ⟨rcpt, n, _, rfl⟩ := mem_envFiles hf
  exact extractMsgId_envName _ n (write_msgIdHex h)

-- The index alone keeps the names of one request apart.
lemma envName_index {localPart localPart' msgidHex' : Bytes} {n' : Nat}
    (h : envName localPart msgidHex n = envName localPart' msgidHex' n') : n = n' := by
  have hc : ∀ (localPart msgidHex : Bytes) (n : Nat),
      cutLast dot (envName localPart msgidHex n) = some (localPart ++ atSign :: msgidHex, decimal n) := by
    intro localPart msgidHex n
    rw [cutLast_eq_some, envName]
    exact ⟨by simp, not_mem_decimal (by decide)⟩
  have hs := (hc localPart msgidHex n).symm.trans ((congrArg _ h).trans (hc localPart' msgidHex' n'))
  have hd := (Prod.mk.inj (Option.some.inj hs)).2
  rw [← digitsValue_decimal n, hd, digitsValue_decimal]

lemma envFile_paths_nodup (c : CaseMap) (cfg : Config) (req : Request) (recipients : List Bytes) :
    ((recipients.zipIdx.map fun (rcpt, n) => envFile c cfg req rcpt n).map EnvFile.path).Nodup := by
  have hi : (recipients.zipIdx.map Prod.snd).Nodup := by
    rw [zipIdx_map_snd]
    exact nodup_range'
  rw [map_map]
  refine pairwise_map.mpr ((pairwise_map.mp hi).imp fun hne hp => hne ?_)
  exact envName_index (Prod.mk.inj hp).2

end Maildancer.Queue

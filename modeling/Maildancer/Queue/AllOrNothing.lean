import Maildancer.Procedure
import Maildancer.Queue.Bodies

namespace Maildancer.Queue

open List Text

inductive QueueFile
  | body (b : BodyFile)
  | env (f : EnvFile)
deriving DecidableEq

-- The queue directory. A temporary file stands here as the file that it is to become, the newest one first.
structure Spool where
  bodies : List BodyFile
  envs : List EnvFile
  temps : List QueueFile
deriving DecidableEq

def putEnvs (files envs : List EnvFile) : List EnvFile := files.foldl (fun envs f => putEnv f envs) envs

def Spool.put (s : Spool) : QueueFile → Spool
  | .body b => { s with bodies := putBody b s.bodies }
  | .env f => { s with envs := putEnv f s.envs }

-- What Write calls on. The operations on an open file are those on the newest
-- temporary one. What the signer makes of the message goes with its call.
inductive StoreOp
  | random
  | sign (made : Option Bytes)
  | mkdirAll (path : List Bytes)
  | chownDir (path : List Bytes)
  | createTemp (f : QueueFile)
  | fill
  | sync
  | chown
  | close
  | rename
  | remove

namespace StoreOp

abbrev reply : StoreOp → Type
  | .sign _ => Option Bytes
  | .random | .mkdirAll _ | .chownDir _ | .createTemp _ | .fill | .sync | .chown | .close | .rename | .remove => Bool

def answer : (o : StoreOp) → Spool → Spool × o.reply
  | .sign made, s => (s, made)
  | .createTemp f, s => ({ s with temps := f :: s.temps }, true)
  | .rename, s =>
    match s.temps with
    | [] => (s, false)
    | f :: temps => (Spool.put { s with temps := temps } f, true)
  | .remove, s => ({ s with temps := s.temps.tail }, true)
  | .random, s | .mkdirAll _, s | .chownDir _, s | .fill, s | .sync, s | .chown, s | .close, s => (s, true)

def refusal : (o : StoreOp) → o.reply
  | .sign _ => none
  | .random | .mkdirAll _ | .chownDir _ | .createTemp _ | .fill | .sync | .chown | .close | .rename | .remove => false

end StoreOp

-- An operation fails, the reading of the message in it included, or the process ends there.
inductive StoreTrouble
  | fails
  | stops

def StoreOp.upset (o : StoreOp) : StoreTrouble → Spool → Spool × Option o.reply
  | .fails, s => (s, some o.refusal)
  | .stops, s => (s, none)

def storage : Surroundings StoreOp.reply Spool StoreTrouble := ⟨StoreOp.answer, StoreOp.upset⟩

abbrev StoreSteps := Procedure StoreOp.reply

inductive Failure
  | invalidSenderDomain (domain : Bytes)
  | invalidPresetMsgId (preset : Bytes)
  | generateMsgId
  | dkimSign
  | mkdir (path : List Bytes)
  | writeBody
  | invalidRecipient (rcpt : Bytes)
  | writeEnvelope (rcpt : Bytes)
deriving DecidableEq

def chownLevels : List (List Bytes) → StoreSteps Bool
  | [] => .finish true
  | level :: rest => .call (.chownDir level) fun given : Bool => if given then chownLevels rest else .finish false

-- Every level below the root is given to the owner. The path is below the root.
def mkdirAllOwned (owned : Bool) (path : List Bytes) : StoreSteps Bool :=
  .call (.mkdirAll path) fun made : Bool =>
    if made then if owned then chownLevels path.inits.tail else .finish true
    else .finish false

def discard : StoreSteps Bool := .call .remove fun _ => .finish false

def closeAndDiscard : StoreSteps Bool := .call .close fun _ => discard

def closeAndRename : StoreSteps Bool :=
  .call .close fun closed : Bool =>
    if closed then .call .rename fun renamed : Bool => if renamed then .finish true else discard
    else discard

def atomicWrite (owned : Bool) (f : QueueFile) : StoreSteps Bool :=
  .call (.createTemp f) fun created : Bool =>
    if created then
      .call .fill fun filled : Bool =>
        if filled then
          .call .sync fun synced : Bool =>
            if synced then
              if owned then .call .chown fun given : Bool => if given then closeAndRename else closeAndDiscard
              else closeAndRename
            else closeAndDiscard
        else closeAndDiscard
    else .finish false

section Write

variable (c : CaseMap) (cfg : Config) (owned : Bool) (req : Request)

def writeEnvelopes : List (Bytes × Nat) → StoreSteps (Except Failure Bytes)
  | [] => .finish (.ok (req.msgId c))
  | (rcpt, n) :: rest =>
    if validRecipient c rcpt then
      (mkdirAllOwned owned (ascii "env" :: recipientDir c rcpt)).bind fun made =>
        if made then
          (atomicWrite owned (.env (envFile c cfg req rcpt n))).bind fun written =>
            if written then writeEnvelopes rest else .finish (.error (.writeEnvelope rcpt))
        else .finish (.error (.mkdir (ascii "env" :: recipientDir c rcpt)))
    else .finish (.error (.invalidRecipient rcpt))

def Request.bodyDir : List Bytes := labelDir (splitDomainLabels (extractDomain c req.origin))

def Request.bodyFile (data : Bytes) : BodyFile := ⟨req.bodyDir c, req.msgIdHex, data⟩

def writeMessage (data : Bytes) : StoreSteps (Except Failure Bytes) :=
  (mkdirAllOwned owned (ascii "msg" :: req.bodyDir c)).bind fun made =>
    if made then
      (atomicWrite owned (.body (req.bodyFile c data))).bind fun written =>
        if written then writeEnvelopes c cfg owned req req.recipients.zipIdx else .finish (.error .writeBody)
    else .finish (.error (.mkdir (ascii "msg" :: req.bodyDir c)))

def signMessage : StoreSteps (Except Failure Bytes) :=
  match cfg.dkimSign with
  | none => writeMessage c cfg owned req (messageIdHeader (req.msgId c) ++ req.body)
  | some sign =>
    .call (.sign (sign (extractDomain c req.origin) (messageIdHeader (req.msgId c) ++ req.body)))
      fun made : Option Bytes =>
        match made with
        | none => .finish (.error .dkimSign)
        | some data => writeMessage c cfg owned req data

def writeSteps : StoreSteps (Except Failure Bytes) :=
  if !validAddressComponent (extractDomain c req.origin) then
    .finish (.error (.invalidSenderDomain (extractDomain c req.origin)))
  else if req.presetMsgIdHex ≠ [] && !validMsgIdHex req.presetMsgIdHex then
    .finish (.error (.invalidPresetMsgId req.presetMsgIdHex))
  else if req.presetMsgIdHex ≠ [] then signMessage c cfg owned req
  else .call .random fun drawn : Bool =>
    if drawn then signMessage c cfg owned req else .finish (.error .generateMsgId)

end Write

section Rules

variable {ρ : Type} {Q : Spool → Option ρ → Prop} {s : Spool}

lemma store_ensures {o : StoreOp} {next : o.reply → StoreSteps ρ} (hs : Q s none)
    (hd : (next (o.answer s).2).Ensures storage Q (o.answer s).1) (hf : (next o.refusal).Ensures storage Q s) :
    (Procedure.call o next : StoreSteps ρ).Ensures storage Q s := by
  refine ⟨hs, hd, fun x => ?_⟩
  cases x with
  | stops => exact ⟨hs, fun _ h => by cases h⟩
  | fails =>
    refine ⟨hs, fun a ha => ?_⟩
    cases ha
    exact hf

lemma plain_ensures {o : StoreOp} {next : o.reply → StoreSteps ρ} (hp : (o.answer s).1 = s) (hs : Q s none)
    (hn : ∀ a, (next a).Ensures storage Q s) : (Procedure.call o next : StoreSteps ρ).Ensures storage Q s :=
  store_ensures hs (hp.symm ▸ hn _) (hn _)

lemma chownLevels_ensures (levels : List (List Bytes)) (s : Spool) :
    (chownLevels levels).Ensures storage (fun t _ => t = s) s := by
  induction levels with
  | nil => rfl
  | cons level rest ih =>
    refine plain_ensures rfl rfl fun given => ?_
    cases given with
    | false => rfl
    | true => exact ih

lemma mkdirAllOwned_ensures (owned : Bool) (path : List Bytes) (s : Spool) :
    (mkdirAllOwned owned path).Ensures storage (fun t _ => t = s) s := by
  refine plain_ensures rfl rfl fun made => ?_
  rcases made with _ | _
  · rfl
  · cases owned with
    | false => rfl
    | true => exact chownLevels_ensures _ s

def Hidden (s : Spool) (f : QueueFile) (t : Spool) : Prop :=
  t.bodies = s.bodies ∧ t.envs = s.envs ∧ (t.temps = s.temps ∨ t.temps = f :: s.temps)

def Wrote (s : Spool) (f : QueueFile) (t : Spool) (r : Option Bool) : Prop :=
  (r = some true ∧ t = s.put f) ∨ (r ≠ some true ∧ Hidden s f t)

def Spool.opened (s : Spool) (f : QueueFile) : Spool := { s with temps := f :: s.temps }

lemma hidden_opened (s : Spool) (f : QueueFile) : Hidden s f (s.opened f) := ⟨rfl, rfl, .inr rfl⟩

lemma discard_ensures (s : Spool) (f : QueueFile) : discard.Ensures storage (Wrote s f) (s.opened f) :=
  store_ensures (.inr ⟨by simp, hidden_opened s f⟩) (.inr ⟨by simp, rfl, rfl, .inl rfl⟩)
    (.inr ⟨by simp, hidden_opened s f⟩)

lemma closeAndDiscard_ensures (s : Spool) (f : QueueFile) :
    closeAndDiscard.Ensures storage (Wrote s f) (s.opened f) :=
  plain_ensures rfl (.inr ⟨by simp, hidden_opened s f⟩) fun _ => discard_ensures s f

lemma rename_ensures (s : Spool) (f : QueueFile) : (Procedure.call .rename fun renamed : Bool =>
      if renamed then Procedure.finish true else discard : StoreSteps Bool).Ensures storage (Wrote s f) (s.opened f) :=
  store_ensures (.inr ⟨by simp, hidden_opened s f⟩) (.inl ⟨rfl, rfl⟩) (discard_ensures s f)

lemma closeAndRename_ensures (s : Spool) (f : QueueFile) :
    closeAndRename.Ensures storage (Wrote s f) (s.opened f) := by
  refine plain_ensures rfl (.inr ⟨by simp, hidden_opened s f⟩) fun closed => ?_
  cases closed with
  | false => exact discard_ensures s f
  | true => exact rename_ensures s f

lemma atomicWrite_ensures (owned : Bool) (f : QueueFile) (s : Spool) :
    (atomicWrite owned f).Ensures storage (Wrote s f) s := by
  have hb : ∀ r, r ≠ some true → Wrote s f s r := fun r hr => .inr ⟨hr, rfl, rfl, .inl rfl⟩
  have ho : Wrote s f (s.opened f) none := .inr ⟨by simp, hidden_opened s f⟩
  refine store_ensures (hb none (by simp)) ?_ (hb _ (by simp))
  refine plain_ensures rfl ho fun filled => ?_
  rcases filled with _ | _
  · exact closeAndDiscard_ensures s f
  refine plain_ensures rfl ho fun synced => ?_
  rcases synced with _ | _
  · exact closeAndDiscard_ensures s f
  cases owned with
  | false => exact closeAndRename_ensures s f
  | true =>
    refine plain_ensures rfl ho fun given => ?_
    cases given with
    | false => exact closeAndDiscard_ensures s f
    | true => exact closeAndRename_ensures s f

end Rules

def Failure.late : Failure → Bool
  | .invalidRecipient _ | .writeEnvelope _ => true
  | .mkdir path => path.head? = some (ascii "env")
  | .invalidSenderDomain _ | .invalidPresetMsgId _ | .generateMsgId | .dkimSign | .writeBody => false

def Failure.concerns (c : CaseMap) (rcpt : Bytes) : Failure → Prop
  | .invalidRecipient rcpt' => rcpt' = rcpt ∧ validRecipient c rcpt = false
  | .writeEnvelope rcpt' => rcpt' = rcpt ∧ validRecipient c rcpt = true
  | .mkdir path => path = ascii "env" :: recipientDir c rcpt ∧ validRecipient c rcpt = true
  | .invalidSenderDomain _ | .invalidPresetMsgId _ | .generateMsgId | .dkimSign | .writeBody => False

section Outcome

variable (c : CaseMap) (cfg : Config) (req : Request)

def envelopesFor (recipients : List (Bytes × Nat)) : List EnvFile :=
  recipients.map fun (rcpt, n) => envFile c cfg req rcpt n

def Leftover (s t : Spool) : Prop := t.temps = s.temps ∨ ∃ f, t.temps = f :: s.temps

def LoopEnds (recipients : List (Bytes × Nat)) (s t : Spool) : Option (Except Failure Bytes) → Prop
  | none => True
  | some (.ok msgid) => msgid = req.msgId c ∧ (∀ p ∈ recipients, validRecipient c p.1 = true) ∧
      t = { s with envs := putEnvs (envelopesFor c cfg req recipients) s.envs }
  | some (.error e) => ∃ k rcpt n, recipients[k]? = some (rcpt, n) ∧ e.concerns c rcpt ∧ e.late = true ∧
      t.bodies = s.bodies ∧ t.envs = putEnvs (envelopesFor c cfg req (recipients.take k)) s.envs ∧ Leftover s t

variable {c cfg req}

lemma LoopEnds.cons {rcpt : Bytes} {n : Nat} {rest : List (Bytes × Nat)} {s t : Spool}
    {r : Option (Except Failure Bytes)} (hv : validRecipient c rcpt = true)
    (h : LoopEnds c cfg req rest (s.put (.env (envFile c cfg req rcpt n))) t r) :
    LoopEnds c cfg req ((rcpt, n) :: rest) s t r := by
  match r, h with
  | none, _ => trivial
  | some (.ok _), ⟨hid, ha, ht⟩ =>
    refine ⟨hid, fun p hp => ?_, ht⟩
    obtain rfl | hp := mem_cons.mp hp
    · exact hv
    · exact ha p hp
  | some (.error _), ⟨k, rcpt', n', hat, hc, hl, hb, he, hle⟩ =>
    exact ⟨k + 1, rcpt', n', hat, hc, hl, hb, he, hle⟩

lemma writeEnvelopes_ensures (owned : Bool) (recipients : List (Bytes × Nat)) (s : Spool) :
    (writeEnvelopes c cfg owned req recipients).Ensures storage (LoopEnds c cfg req recipients s) s := by
  induction recipients generalizing s with
  | nil => exact ⟨rfl, by simp, rfl⟩
  | cons entry rest ih =>
    obtain ⟨rcpt, n⟩ := entry
    rw [writeEnvelopes]
    by_cases hv : validRecipient c rcpt = true
    · rw [if_pos hv]
      refine .bind (mkdirAllOwned_ensures owned _ s) (fun _ _ => trivial) fun t made ht => ?_
      obtain rfl := ht
      rcases made with _ | _
      · exact ⟨0, rcpt, n, rfl, ⟨rfl, hv⟩, by simp [Failure.late], rfl, rfl, .inl rfl⟩
      rw [if_pos rfl]
      refine .bind (atomicWrite_ensures owned _ t) (fun _ _ => trivial) fun u written hu => ?_
      obtain ⟨hw, rfl⟩ | ⟨hw, hb, he, hte⟩ := hu
      · rw [if_pos (Option.some.inj hw)]
        exact (ih _).mono fun _ _ h => h.cons hv
      · rw [if_neg (by simpa using hw)]
        exact ⟨0, rcpt, n, rfl, ⟨rfl, hv⟩, rfl, hb, he, hte.imp_right fun h => ⟨_, h⟩⟩
    · rw [if_neg hv]
      exact ⟨0, rcpt, n, rfl, ⟨rfl, by simpa using hv⟩, rfl, rfl, rfl, .inl rfl⟩

variable (c cfg req)

def WriteEnds (s t : Spool) : Option (Except Failure Bytes) → Prop
  | none => True
  | some (.ok msgid) => msgid = req.msgId c ∧ (∀ rcpt ∈ req.recipients, validRecipient c rcpt = true) ∧
      ∃ data, signed c cfg req = some data ∧ t.bodies = putBody (req.bodyFile c data) s.bodies ∧
        t.envs = putEnvs (envelopesFor c cfg req req.recipients.zipIdx) s.envs ∧ t.temps = s.temps
  | some (.error e) =>
    if e.late then ∃ k rcpt data, req.recipients[k]? = some rcpt ∧ e.concerns c rcpt ∧
      signed c cfg req = some data ∧ t.bodies = putBody (req.bodyFile c data) s.bodies ∧
      t.envs = putEnvs (envelopesFor c cfg req (req.recipients.take k).zipIdx) s.envs ∧ Leftover s t
    else t.bodies = s.bodies ∧ t.envs = s.envs ∧ Leftover s t

variable {c cfg req}

lemma zipIdx_take {α : Type*} (l : List α) (k : Nat) : l.zipIdx.take k = (l.take k).zipIdx := by
  apply ext_getElem?
  intro i
  grind

lemma LoopEnds.writeEnds {s t : Spool} {data : Bytes} {r : Option (Except Failure Bytes)}
    (hd : signed c cfg req = some data)
    (h : LoopEnds c cfg req req.recipients.zipIdx (s.put (.body (req.bodyFile c data))) t r) :
    WriteEnds c cfg req s t r := by
  match r, h with
  | none, _ => trivial
  | some (.ok _), ⟨hid, ha, ht⟩ =>
    subst ht
    refine ⟨hid, fun rcpt hr => ?_, data, hd, rfl, rfl, rfl⟩
    obtain ⟨k, hk⟩ := mem_iff_getElem?.mp hr
    exact ha (rcpt, k) (mem_zipIdx_iff_getElem?.mpr hk)
  | some (.error e), ⟨k, rcpt, n, hat, hc, hl, hb, he, hle⟩ =>
    rw [WriteEnds, if_pos hl]
    refine ⟨k, rcpt, data, ?_, hc, hd, hb, ?_, hle⟩
    · rw [List.getElem?_zipIdx] at hat
      exact (show req.recipients[k]? = some rcpt ∧ k = n by simpa using hat).1
    · rw [he, zipIdx_take]
      rfl

lemma writeMessage_ensures (owned : Bool) {data : Bytes} (hd : signed c cfg req = some data) (s : Spool) :
    (writeMessage c cfg owned req data).Ensures storage (WriteEnds c cfg req s) s := by
  have hm : ascii "msg" ≠ ascii "env" := by decide
  refine .bind (mkdirAllOwned_ensures owned _ s) (fun _ _ => trivial) fun t made ht => ?_
  obtain rfl := ht
  rcases made with _ | _
  · have he : (Failure.mkdir (ascii "msg" :: req.bodyDir c)).late = false := by simpa [Failure.late] using hm
    rw [if_neg (by simp), Procedure.Ensures, WriteEnds, he]
    exact ⟨rfl, rfl, .inl rfl⟩
  rw [if_pos rfl]
  refine .bind (atomicWrite_ensures owned _ t) (fun _ _ => trivial) fun u written hu => ?_
  obtain ⟨hw, rfl⟩ | ⟨hw, hb, hen, hte⟩ := hu
  · rw [if_pos (Option.some.inj hw)]
    exact (writeEnvelopes_ensures owned _ _).mono fun _ _ h => h.writeEnds hd
  · rw [if_neg (by simpa using hw)]
    exact ⟨hb, hen, hte.imp_right fun h => ⟨_, h⟩⟩

lemma signMessage_ensures (owned : Bool) (s : Spool) :
    (signMessage c cfg owned req).Ensures storage (WriteEnds c cfg req s) s := by
  unfold signMessage
  rcases hs : cfg.dkimSign with _ | sign
  · exact writeMessage_ensures owned (by rw [signed, hs]) s
  refine store_ensures trivial ?_ ⟨rfl, rfl, .inl rfl⟩
  rcases hm : sign (extractDomain c req.origin) (messageIdHeader (req.msgId c) ++ req.body) with _ | data
  · exact ⟨rfl, rfl, .inl rfl⟩
  · refine writeMessage_ensures owned ?_ s
    rw [signed, hs]
    exact hm

lemma writeSteps_ensures (owned : Bool) (s : Spool) :
    (writeSteps c cfg owned req).Ensures storage (WriteEnds c cfg req s) s := by
  have hea : ∀ e : Failure, e.late = false →
      (Procedure.finish (.error e) : StoreSteps _).Ensures storage (WriteEnds c cfg req s) s := by
    intro e he
    rw [Procedure.Ensures, WriteEnds, he]
    exact ⟨rfl, rfl, .inl rfl⟩
  unfold writeSteps
  split_ifs
  · exact hea _ rfl
  · exact hea _ rfl
  · exact signMessage_ensures owned s
  refine plain_ensures rfl trivial fun drawn => ?_
  cases drawn with
  | false => exact hea _ rfl
  | true => exact signMessage_ensures owned s

lemma write_ends {owned : Bool} {schedule : List (Option StoreTrouble)} {s t : Spool}
    {r : Option (Except Failure Bytes)} (hr : (writeSteps c cfg owned req).run storage schedule s = (t, r)) :
    WriteEnds c cfg req s t r := by
  have h : WriteEnds c cfg req s _ _ := (writeSteps_ensures owned s).run schedule
  rwa [hr] at h

end Outcome

section Retry

variable {c : CaseMap} {cfg : Config} {req : Request} {s t : Spool}

lemma putEnvs_fresh {files envs : List EnvFile} (hd : (files.map EnvFile.path).Nodup)
    (hfr : ∀ f ∈ files, ∀ g ∈ envs, g.path ≠ f.path) : putEnvs files envs = envs ++ files := by
  induction files generalizing envs with
  | nil => simp [putEnvs]
  | cons f rest ih =>
    obtain ⟨hf, hr⟩ := nodup_cons.mp hd
    have hp : putEnv f envs = envs ++ [f] := by
      rw [putEnv, filter_eq_self.mpr]
      intro g hg
      simp [hfr f mem_cons_self g hg]
    rw [putEnvs, foldl_cons, hp]
    refine (ih hr fun f' hf' g hg => ?_).trans (by simp)
    obtain hg | hg := mem_append.mp hg
    · exact hfr f' (mem_cons_of_mem _ hf') g hg
    · obtain rfl := mem_singleton.mp hg
      exact fun heq => hf (heq ▸ mem_map_of_mem hf')

lemma envelopesFor_nodup (c : CaseMap) (cfg : Config) (req : Request) (recipients : List Bytes) :
    ((envelopesFor c cfg req recipients.zipIdx).map EnvFile.path).Nodup := envFile_paths_nodup c cfg req recipients

lemma mem_envelopesFor {recipients : List Bytes} {f : EnvFile} :
    f ∈ envelopesFor c cfg req recipients.zipIdx ↔
      ∃ k rcpt, recipients[k]? = some rcpt ∧ f = envFile c cfg req rcpt k := by
  rw [envelopesFor, mem_map]
  constructor
  · rintro ⟨⟨rcpt, k⟩, hm, rfl⟩
    exact ⟨k, rcpt, mem_zipIdx_iff_getElem?.mp hm, rfl⟩
  · rintro ⟨k, rcpt, hk, rfl⟩
    exact ⟨(rcpt, k), mem_zipIdx_iff_getElem?.mpr hk, rfl⟩

def copies (envs : List EnvFile) (f : EnvFile) : Nat := (envs.map EnvFile.path).count f.path

lemma copies_append (envs envs' : List EnvFile) (f : EnvFile) :
    copies (envs ++ envs') f = copies envs f + copies envs' f := by
  rw [copies, map_append, count_append, copies, copies]

def Unused (envs : List EnvFile) (req : Request) : Prop := ∀ f ∈ envs, f.msgId ≠ some req.msgIdHex

lemma msgId_envFile (hid : validMsgIdHex req.msgIdHex = true) (rcpt : Bytes) (k : Nat) :
    (envFile c cfg req rcpt k).msgId = some req.msgIdHex := extractMsgId_envName _ k hid

lemma Unused.path_ne {envs : List EnvFile} (h : Unused envs req) (hid : validMsgIdHex req.msgIdHex = true)
    {f : EnvFile} (hf : f ∈ envs) (rcpt : Bytes) (k : Nat) : f.path ≠ (envFile c cfg req rcpt k).path :=
  fun hp => h f hf ((EnvFile.msgId_of_path hp).trans (msgId_envFile hid rcpt k))

lemma Unused.copies {envs : List EnvFile} (h : Unused envs req) (hid : validMsgIdHex req.msgIdHex = true)
    (rcpt : Bytes) (k : Nat) : copies envs (envFile c cfg req rcpt k) = 0 := by
  refine count_eq_zero_of_not_mem fun hm => ?_
  obtain ⟨f, hf, hp⟩ := mem_map.mp hm
  exact h.path_ne hid hf rcpt k hp

lemma Unused.putEnvs {envs : List EnvFile} (h : Unused envs req) (hid : validMsgIdHex req.msgIdHex = true)
    (recipients : List Bytes) :
    putEnvs (envelopesFor c cfg req recipients.zipIdx) envs = envs ++ envelopesFor c cfg req recipients.zipIdx := by
  refine putEnvs_fresh (envelopesFor_nodup c cfg req _) fun f hf g hg => ?_
  obtain ⟨i, rcpt, -, rfl⟩ := mem_envelopesFor.mp hf
  exact h.path_ne hid hg rcpt i

lemma unused_envelopesFor {other : Request} (hid : validMsgIdHex req.msgIdHex = true)
    (ho : other.msgIdHex ≠ req.msgIdHex) (recipients : List Bytes) :
    Unused (envelopesFor c cfg req recipients.zipIdx) other := by
  intro f hf heq
  obtain ⟨k, rcpt, -, rfl⟩ := mem_envelopesFor.mp hf
  rw [msgId_envFile hid] at heq
  exact ho (Option.some.inj heq).symm

lemma copies_envelopesFor (c : CaseMap) (cfg : Config) {req : Request} {k : Nat} {rcpt : Bytes}
    (hk : req.recipients[k]? = some rcpt) (j : Nat) :
    copies (envelopesFor c cfg req (req.recipients.take j).zipIdx) (envFile c cfg req rcpt k) =
      if k < j then 1 else 0 := by
  split_ifs with hlt
  · refine count_eq_one_of_mem (envelopesFor_nodup c cfg req _) (mem_map_of_mem ?_)
    exact mem_envelopesFor.mpr ⟨k, rcpt, by rw [List.getElem?_take_of_lt hlt, hk], rfl⟩
  refine count_eq_zero_of_not_mem fun hm => ?_
  obtain ⟨f, hf, hp⟩ := mem_map.mp hm
  obtain ⟨i, rcpt', hi, rfl⟩ := mem_envelopesFor.mp hf
  obtain rfl : i = k := envName_index (Prod.mk.inj hp).2
  have hb := (List.getElem?_eq_some_iff.mp hi).1
  rw [length_take] at hb
  omega

structure Retries (req retry : Request) : Prop where
  recipients : retry.recipients = req.recipients
  valid : validMsgIdHex req.msgIdHex = true
  retryValid : validMsgIdHex retry.msgIdHex = true
  other : retry.msgIdHex ≠ req.msgIdHex

lemma WriteEnds.envs {e : Failure} (h : WriteEnds c cfg req s t (some (.error e))) (hu : Unused s.envs req)
    (hid : validMsgIdHex req.msgIdHex = true) : ∃ k, (k = 0 ∨ k < req.recipients.length) ∧
      t.envs = s.envs ++ envelopesFor c cfg req (req.recipients.take k).zipIdx := by
  rw [WriteEnds] at h
  split_ifs at h with hl
  · obtain ⟨k, rcpt, data, hk, -, -, -, he, -⟩ := h
    exact ⟨k, .inr (List.getElem?_eq_some_iff.mp hk).1, he.trans (hu.putEnvs hid _)⟩
  · exact ⟨0, .inl rfl, by simp [h.2.1, envelopesFor]⟩

lemma Unused.append {envs envs' : List EnvFile} (h : Unused envs req) (h' : Unused envs' req) :
    Unused (envs ++ envs') req :=
  fun f hf => (mem_append.mp hf).elim (h f) (h' f)

-- After a retry that has gone through, every recipient has one envelope exactly if
-- the failed call has left none.
lemma retry_once_iff {e : Failure} {retry : Request} {u : Spool} {msgid : Bytes} (hr : Retries req retry)
    (hu : Unused s.envs req) (hun : Unused s.envs retry) (h : WriteEnds c cfg req s t (some (.error e)))
    (h' : WriteEnds c cfg retry t u (some (.ok msgid))) : (∀ k rcpt, req.recipients[k]? = some rcpt →
      copies u.envs (envFile c cfg req rcpt k) + copies u.envs (envFile c cfg retry rcpt k) = 1) ↔ t.envs = s.envs := by
  obtain ⟨j, hj, hf⟩ := h.envs hu hr.valid
  obtain ⟨-, -, data, -, -, hs, -⟩ := h'
  have hc : Unused t.envs retry := by
    rw [hf]
    exact hun.append (unused_envelopesFor hr.valid hr.other _)
  have ha := hs.trans (hc.putEnvs hr.retryValid _)
  have hco : ∀ k rcpt, req.recipients[k]? = some rcpt →
      copies u.envs (envFile c cfg req rcpt k) + copies u.envs (envFile c cfg retry rcpt k) =
        (if k < j then 1 else 0) + 1 := by
    intro k rcpt hk
    have hk' : retry.recipients[k]? = some rcpt := by rw [hr.recipients, hk]
    have hnew : copies (envelopesFor c cfg retry retry.recipients.zipIdx) (envFile c cfg retry rcpt k) = 1 := by
      have ht := copies_envelopesFor c cfg hk' retry.recipients.length
      rwa [take_length, if_pos (List.getElem?_eq_some_iff.mp hk').1] at ht
    rw [ha, copies_append, copies_append, hnew, hc.copies hr.retryValid,
      (unused_envelopesFor hr.retryValid hr.other.symm _).copies hr.valid, hf, copies_append,
      hu.copies hr.valid, copies_envelopesFor c cfg hk]
    omega
  constructor
  · intro ho
    obtain rfl | hlt := hj
    · simp [hf, envelopesFor]
    have hz := ho 0 _ (List.getElem?_eq_getElem (by omega))
    rw [hco 0 _ (List.getElem?_eq_getElem (by omega))] at hz
    obtain rfl : j = 0 := by
      split_ifs at hz <;> omega
    simp [hf, envelopesFor]
  · intro hsa k rcpt hk
    have hn : envelopesFor c cfg req (req.recipients.take j).zipIdx = [] := by
      rw [hsa] at hf
      exact self_eq_append_right.mp hf
    have hl := congrArg List.length hn
    simp only [envelopesFor, length_map, length_zipIdx, length_take, length_nil] at hl
    rw [hco k rcpt hk, if_neg (by omega)]

end Retry

-- A call that fails before its body is in place leaves nothing to be seen. One that
-- fails later leaves the body and the envelopes of the recipients it has come past.
theorem failed_write_leaves (c : CaseMap) (cfg : Config) (owned : Bool) {req : Request}
    {schedule : List (Option StoreTrouble)} {s t : Spool} {e : Failure}
    (hrun : (writeSteps c cfg owned req).run storage schedule s = (t, some (.error e))) :
    (e.late = false → t.bodies = s.bodies ∧ t.envs = s.envs) ∧
      (e.late = true → ∃ k rcpt data, req.recipients[k]? = some rcpt ∧ e.concerns c rcpt ∧
        signed c cfg req = some data ∧ t.bodies = putBody (req.bodyFile c data) s.bodies ∧
        t.envs = putEnvs (envelopesFor c cfg req (req.recipients.take k).zipIdx) s.envs) ∧
      Leftover s t ∧
      ∀ retry schedule' u msgid, Retries req retry → Unused s.envs req → Unused s.envs retry →
        (writeSteps c cfg owned retry).run storage schedule' t = (u, some (.ok msgid)) →
        ((∀ k rcpt, req.recipients[k]? = some rcpt →
            copies u.envs (envFile c cfg req rcpt k) + copies u.envs (envFile c cfg retry rcpt k) = 1) ↔
          t.envs = s.envs) := by
  have he := write_ends hrun
  refine ⟨fun hea => ?_, fun hl => ?_, ?_, ?_⟩
  · rw [WriteEnds, hea] at he
    exact ⟨he.1, he.2.1⟩
  · rw [WriteEnds, if_pos hl] at he
    obtain ⟨k, rcpt, data, hk, hc, hd, hb, hen, -⟩ := he
    exact ⟨k, rcpt, data, hk, hc, hd, hb, hen⟩
  · rw [WriteEnds] at he
    split_ifs at he
    · obtain ⟨k, rcpt, data, -, -, -, -, -, hle⟩ := he
      exact hle
    · exact he.2.2
  · intro retry schedule' u msgid hr hu hun hre
    exact retry_once_iff hr hu hun he (write_ends hre)

def emptySpool : Spool := ⟨[], [], []⟩

def calm : List (Option StoreTrouble) := List.replicate 40 none

def bob : Bytes := ascii "bob@example.com"

def slashed : Bytes := ascii "a/b@example.com"

def carol : Bytes := ascii "carol@example.net"

def otherMsgIdHex : { s : Bytes // validMsgIdHex s = true } := ⟨List.replicate 32 98, by decide⟩

def slashRequest : Request := { sampleRequest with recipients := [bob, slashed] }

def slashRetry : Request := { slashRequest with freshMsgIdHex := otherMsgIdHex }

-- Nothing fails but the check of the second recipient, and every try leaves one more envelope for the first.
theorem refused_write_visible :
    ∃ t u, (writeSteps CaseMap.asciiOnly sampleConfig false slashRequest).run storage calm emptySpool =
        (t, some (.error (.invalidRecipient slashed))) ∧
      t.bodies.map BodyFile.name = [slashRequest.msgIdHex] ∧
      t.envs.map (fun f => f.content.map QueueEnvelope.recipient) = [some bob] ∧
      (writeSteps CaseMap.asciiOnly sampleConfig false slashRetry).run storage calm t =
        (u, some (.error (.invalidRecipient slashed))) ∧
      u.envs.map (fun f => f.content.map QueueEnvelope.recipient) = [some bob, some bob] := by
  refine ⟨((writeSteps CaseMap.asciiOnly sampleConfig false slashRequest).run storage calm emptySpool).1,
    ((writeSteps CaseMap.asciiOnly sampleConfig false slashRetry).run storage calm
      ((writeSteps CaseMap.asciiOnly sampleConfig false slashRequest).run storage calm emptySpool).1).1, ?_⟩
  decide +kernel

def twoRequest : Request := { sampleRequest with recipients := [bob, carol] }

def fullDisk : List (Option StoreTrouble) := List.replicate 15 none ++ some .fails :: calm

def filledSpool : Spool :=
  ((writeSteps CaseMap.asciiOnly sampleConfig false twoRequest).run storage fullDisk emptySpool).1

lemma run_fullDisk :
    (writeSteps CaseMap.asciiOnly sampleConfig false twoRequest).run storage fullDisk emptySpool =
      (filledSpool, some (.error (.writeEnvelope carol))) := by decide +kernel

theorem failed_write_leaves_first :
    filledSpool.envs ≠ [] ∧ ∃ k rcpt data, twoRequest.recipients[k]? = some rcpt ∧
      (Failure.writeEnvelope carol).concerns CaseMap.asciiOnly rcpt ∧
      signed CaseMap.asciiOnly sampleConfig twoRequest = some data ∧
      filledSpool.bodies = putBody (twoRequest.bodyFile CaseMap.asciiOnly data) [] ∧
      filledSpool.envs = putEnvs (envelopesFor CaseMap.asciiOnly sampleConfig twoRequest
        (twoRequest.recipients.take k).zipIdx) [] :=
  ⟨by decide +kernel, (failed_write_leaves CaseMap.asciiOnly sampleConfig false run_fullDisk).2.1 rfl⟩

end Maildancer.Queue

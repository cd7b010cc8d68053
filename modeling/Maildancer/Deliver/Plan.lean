import Maildancer.Deliver

namespace Maildancer.Deliver

open Text Msgstore Maildir

variable (d : Deliverer) (attempt : Nat → Attempt)

-- The pipeline as a chain of writes. Which writes it makes depends on the
-- writes before only through their success.
def localPlan (n : Nat) (dom : Domain) (req : DeliverRequest) (msg : Bytes) : Chain Nat Copy DeliverResponse :=
  if !dom.hasDeliveryAgent then .finish (.rejected true .noDeliveryAgent)
  else
    let r := parseRecipient req.recipient
    let folder := subaddressFolder d r
    .single n ⟨some ⟨r.address, folder, [], msg⟩, false⟩ (.delivered folder)

-- The writes of deliverToFolder, each with its own number in the schedule.
def folderPlan (n : Nat) (dom : Domain) (req : DeliverRequest) (mailbox : Bytes) (target : FileintoTarget)
    (msg : Bytes) : Chain Nat Copy Unit :=
  if !dom.hasFolderStore then (localPlan d n dom req msg).bind fun _ => .finish ()
  else if target.flags ≠ [] then
    match folderOrInboxPath target.folder with
    | .error _ => .stop
    | .ok _ => .single n ⟨some ⟨mailbox, target.folder, target.flags, msg⟩, true⟩ ()
  else if equalFold target.folder (ascii "INBOX") then (localPlan d n dom req msg).bind fun _ => .finish ()
  else match folderPath target.folder with
    | .error _ => .stop
    | .ok _ => .single n ⟨some ⟨mailbox, target.folder, [], msg⟩, false⟩ ()

def filePlan (n : Nat) (dom : Domain) (req : DeliverRequest) (mailbox msg : Bytes) :
    List FileintoTarget → Bytes → Chain Nat Copy Bytes
  | [], folder => .finish folder
  | target :: rest, _ =>
    (folderPlan d n dom req mailbox target msg).bind fun _ =>
      filePlan (n + 1) dom req mailbox msg rest target.folder

def keepPlan (n : Nat) (dom : Domain) (req : DeliverRequest) (mailbox msg : Bytes) (outcome : SieveOutcome)
    (folder : Bytes) : Chain Nat Copy DeliverResponse :=
  if !outcome.keep then .finish (.delivered folder)
  else if outcome.keepFlags ≠ [] then
    (folderPlan d n dom req mailbox ⟨ascii "INBOX", outcome.keepFlags⟩ msg).bind fun _ =>
      .finish (.delivered (ascii "INBOX"))
  else localPlan d n dom req msg

-- Redirects are followed only once all copies are written.
def redirectAfter (outcome : SieveOutcome) : DeliverResponse → DeliverResponse
  | .delivered folder =>
    if outcome.redirects ≠ [] then .redirected (dedupeFold d.folding.toCaseMap outcome.redirects)
    else .delivered folder
  | response => response

def sievePlan (dom : Domain) (req : DeliverRequest) (outcome : SieveOutcome) (msg : Bytes) :
    Chain Nat Copy DeliverResponse :=
  if outcome.rejectReason ≠ [] then .finish (.rejected false (.script outcome.rejectReason))
  else
    let mailbox := (parseRecipient req.recipient).address
    (filePlan d 0 dom req mailbox msg outcome.fileinto []).bind fun folder =>
      (keepPlan d outcome.fileinto.length dom req mailbox msg outcome folder).bind fun response =>
        .finish (redirectAfter d outcome response)

-- Deliver as a chain of writes, of which each may fail.
def deliverPlan (req : DeliverRequest) (msg : Bytes) : Chain Nat Copy DeliverResponse :=
  if req.recipient = [] then .finish (.rejected false .noRecipient)
  else if !validRecipient req.recipient then .finish (.rejected false .invalidRecipient)
  else match d.getDomain (splitAddress req.recipient).2 with
    | none => .finish (.rejected true .domainNotFound)
    | some dom =>
      if 0 < dom.maxMessageSize ∧ dom.maxMessageSize < msg.length then .finish (.rejected false .tooLarge)
      else match maybeEncrypt d req msg with
        | none => .finish (.rejected true .encryptionUnavailable)
        | some stored =>
          match runSieve d req with
          | some outcome => sievePlan d dom req outcome stored
          | none => localPlan d 0 dom req stored

lemma run_localPlan (n : Nat) (dom : Domain) (req : DeliverRequest) (msg : Bytes) :
    (localPlan d n dom req msg).run attempt = deliverLocal d attempt n dom req msg := by
  unfold localPlan deliverLocal
  by_cases ha : (!dom.hasDeliveryAgent) = true
  · rw [if_pos ha, if_pos ha, Chain.run_finish]
  rw [if_neg ha, if_neg ha]
  dsimp only
  rw [Chain.run_single, write]
  cases attempt n <;> rfl

lemma run_folderPlan (n : Nat) (dom : Domain) (req : DeliverRequest) (mailbox : Bytes) (target : FileintoTarget)
    (msg : Bytes) : (folderPlan d n dom req mailbox target msg).run attempt =
      ((deliverToFolder d attempt n dom req mailbox target msg).1,
        passed (deliverToFolder d attempt n dom req mailbox target msg).2) := by
  have hl : ((localPlan d n dom req msg).bind fun _ => Chain.finish ()).run attempt =
      ((deliverLocal d attempt n dom req msg).1,
        passed (deliverLocal d attempt n dom req msg).2.isSome) := by
    rw [Chain.run_bind, run_localPlan]
    cases ho : deliverLocal d attempt n dom req msg with
    | mk copies response => cases response <;> simp
  unfold folderPlan deliverToFolder
  by_cases hs : (!dom.hasFolderStore) = true
  · rw [if_pos hs, if_pos hs, hl]
  rw [if_neg hs, if_neg hs]
  by_cases hf : target.flags ≠ []
  · rw [if_pos hf, if_pos hf]
    rcases folderOrInboxPath target.folder with e | loc
    · rfl
    · exact Chain.run_single_unit _ _ _
  rw [if_neg hf, if_neg hf]
  by_cases hi : equalFold target.folder (ascii "INBOX") = true
  · rw [if_pos hi, if_pos hi, hl]
  rw [if_neg hi, if_neg hi]
  rcases folderPath target.folder with e | loc
  · rfl
  · exact Chain.run_single_unit _ _ _

lemma run_filePlan (n : Nat) (dom : Domain) (req : DeliverRequest) (mailbox msg : Bytes)
    (targets : List FileintoTarget) (folder : Bytes) :
    (filePlan d n dom req mailbox msg targets folder).run attempt =
      fileAll d attempt n dom req mailbox msg targets folder := by
  induction targets generalizing n folder with
  | nil => rfl
  | cons target rest ih =>
    rw [filePlan, fileAll, Chain.run_bind, run_folderPlan, ih]
    cases ho : deliverToFolder d attempt n dom req mailbox target msg with
    | mk copies ok => cases ok <;> rfl

lemma run_keepPlan (n : Nat) (dom : Domain) (req : DeliverRequest) (mailbox msg : Bytes) (outcome : SieveOutcome)
    (folder : Bytes) : (keepPlan d n dom req mailbox msg outcome folder).run attempt =
      applyKeep d attempt n dom req mailbox msg outcome folder := by
  unfold keepPlan applyKeep
  by_cases hk : (!outcome.keep) = true
  · rw [if_pos hk, if_pos hk, Chain.run_finish]
  rw [if_neg hk, if_neg hk]
  by_cases hf : outcome.keepFlags ≠ []
  · rw [if_pos hf, if_pos hf, Chain.run_bind, run_folderPlan]
    cases ho : deliverToFolder d attempt n dom req mailbox ⟨ascii "INBOX", outcome.keepFlags⟩ msg with
    | mk copies ok => cases ok <;> simp
  · rw [if_neg hf, if_neg hf, run_localPlan]

lemma run_sievePlan (dom : Domain) (req : DeliverRequest) (outcome : SieveOutcome) (msg : Bytes) :
    (sievePlan d dom req outcome msg).run attempt = applySieve d attempt dom req outcome msg := by
  unfold sievePlan applySieve
  by_cases hr : outcome.rejectReason ≠ []
  · rw [if_pos hr, if_pos hr, Chain.run_finish]
  rw [if_neg hr, if_neg hr]
  dsimp only
  rw [Chain.run_bind, run_filePlan]
  cases hf : fileAll d attempt 0 dom req (parseRecipient req.recipient).address msg outcome.fileinto [] with
  | mk copies folder =>
    rcases folder with _ | folder
    · rfl
    dsimp only
    rw [Chain.run_bind, run_keepPlan]
    cases hk : applyKeep d attempt outcome.fileinto.length dom req (parseRecipient req.recipient).address msg
        outcome folder with
    | mk more response =>
      rcases response with _ | response
      · rfl
      · cases response <;> simp [redirectAfter]

lemma run_deliverPlan (req : DeliverRequest) (msg : Bytes) :
    (deliverPlan d req msg).run attempt = deliver d attempt req msg := by
  unfold deliverPlan deliver
  by_cases hn : req.recipient = []
  · rw [if_pos hn, if_pos hn, Chain.run_finish]
  rw [if_neg hn, if_neg hn]
  by_cases hv : (!validRecipient req.recipient) = true
  · rw [if_pos hv, if_pos hv, Chain.run_finish]
  rw [if_neg hv, if_neg hv]
  rcases d.getDomain (splitAddress req.recipient).2 with _ | dom
  · rfl
  dsimp only
  by_cases hs : 0 < dom.maxMessageSize ∧ dom.maxMessageSize < msg.length
  · rw [if_pos hs, if_pos hs, Chain.run_finish]
  rw [if_neg hs, if_neg hs]
  rcases maybeEncrypt d req msg with _ | stored
  · rfl
  · cases runSieve d req with
    | none => exact run_localPlan d attempt 0 dom req stored
    | some outcome => exact run_sievePlan d attempt dom req outcome stored

lemma named_localPlan (n : Nat) (dom : Domain) (req : DeliverRequest) (msg : Bytes) :
    (localPlan d n dom req msg).Named (· = n) := by
  unfold localPlan
  by_cases ha : (!dom.hasDeliveryAgent) = true
  · rw [if_pos ha]
    exact .finish
  · rw [if_neg ha]
    exact .single rfl

lemma named_folderPlan (n : Nat) (dom : Domain) (req : DeliverRequest) (mailbox : Bytes) (target : FileintoTarget)
    (msg : Bytes) : (folderPlan d n dom req mailbox target msg).Named (· = n) := by
  have hl : ((localPlan d n dom req msg).bind fun _ => Chain.finish ()).Named (· = n) :=
    ((named_localPlan d n dom req msg).bind (Q := fun _ => False) (fun _ _ => .finish) fun _ _ => id).mono fun _ =>
      Or.rec id False.elim
  unfold folderPlan
  by_cases hs : (!dom.hasFolderStore) = true
  · rwa [if_pos hs]
  rw [if_neg hs]
  by_cases hf : target.flags ≠ []
  · rw [if_pos hf]
    rcases folderOrInboxPath target.folder with e | loc
    · exact .stop
    · exact .single rfl
  rw [if_neg hf]
  by_cases hi : equalFold target.folder (ascii "INBOX") = true
  · rwa [if_pos hi]
  rw [if_neg hi]
  rcases folderPath target.folder with e | loc
  · exact .stop
  · exact .single rfl

lemma named_filePlan (n : Nat) (dom : Domain) (req : DeliverRequest) (mailbox msg : Bytes)
    (targets : List FileintoTarget) (folder : Bytes) :
    (filePlan d n dom req mailbox msg targets folder).Named fun m => n ≤ m ∧ m < n + targets.length := by
  induction targets generalizing n folder with
  | nil => exact .finish
  | cons target rest ih =>
    rw [filePlan]
    refine ((named_folderPlan d n dom req mailbox target msg).bind (fun _ _ => ih (n + 1) target.folder) ?_).mono ?_
    · omega
    · intro m hm
      rw [List.length_cons]
      omega

lemma named_keepPlan (n : Nat) (dom : Domain) (req : DeliverRequest) (mailbox msg : Bytes) (outcome : SieveOutcome)
    (folder : Bytes) : (keepPlan d n dom req mailbox msg outcome folder).Named (· = n) := by
  unfold keepPlan
  by_cases hk : (!outcome.keep) = true
  · rw [if_pos hk]
    exact .finish
  rw [if_neg hk]
  by_cases hf : outcome.keepFlags ≠ []
  · rw [if_pos hf]
    exact ((named_folderPlan d n dom req mailbox _ msg).bind (Q := fun _ => False) (fun _ _ => .finish)
      fun _ _ => id).mono fun _ => Or.rec id False.elim
  · rw [if_neg hf]
    exact named_localPlan d n dom req msg

lemma named_sievePlan (dom : Domain) (req : DeliverRequest) (outcome : SieveOutcome) (msg : Bytes) :
    (sievePlan d dom req outcome msg).Named fun _ => True := by
  unfold sievePlan
  by_cases hr : outcome.rejectReason ≠ []
  · rw [if_pos hr]
    exact .finish
  rw [if_neg hr]
  refine ((named_filePlan d 0 dom req _ msg outcome.fileinto []).bind
    (Q := fun m => m = outcome.fileinto.length ∨ False) (fun folder _ => ?_) ?_).mono fun _ _ => trivial
  · exact (named_keepPlan d _ dom req _ msg outcome folder).bind (fun _ _ => .finish) fun _ _ => id
  · rintro m hm (rfl | hf)
    · omega
    · exact hf

lemma deliverPlan_cases (req : DeliverRequest) (msg : Bytes) :
    (∃ temporary reason, deliverPlan d req msg = .finish (.rejected temporary reason)) ∨
      ∃ dom stored, d.getDomain (splitAddress req.recipient).2 = some dom ∧ maybeEncrypt d req msg = some stored ∧
        (deliverPlan d req msg = localPlan d 0 dom req stored ∨
          ∃ outcome, runSieve d req = some outcome ∧ deliverPlan d req msg = sievePlan d dom req outcome stored) := by
  unfold deliverPlan
  by_cases hn : req.recipient = []
  · exact .inl ⟨_, _, if_pos hn⟩
  rw [if_neg hn]
  by_cases hv : (!validRecipient req.recipient) = true
  · exact .inl ⟨_, _, if_pos hv⟩
  rw [if_neg hv]
  rcases hd : d.getDomain (splitAddress req.recipient).2 with _ | dom
  · exact .inl ⟨_, _, rfl⟩
  dsimp only
  by_cases hs : 0 < dom.maxMessageSize ∧ dom.maxMessageSize < msg.length
  · exact .inl ⟨_, _, if_pos hs⟩
  rw [if_neg hs]
  rcases maybeEncrypt d req msg with _ | stored
  · exact .inl ⟨_, _, rfl⟩
  refine .inr ⟨dom, stored, rfl, rfl, ?_⟩
  cases runSieve d req with
  | none => exact .inl rfl
  | some outcome => exact .inr ⟨outcome, rfl, rfl⟩

lemma named_deliverPlan (req : DeliverRequest) (msg : Bytes) : (deliverPlan d req msg).Named fun _ => True := by
  obtain ⟨_, _, h⟩ | ⟨dom, stored, -, -, h | ⟨outcome, -, h⟩⟩ := deliverPlan_cases d req msg
  · rw [h]
    exact .finish
  · rw [h]
    exact (named_localPlan d 0 dom req stored).mono fun _ _ => trivial
  · rw [h]
    exact named_sievePlan d dom req outcome stored

lemma dedupeFoldFrom_nodup (c : CaseMap) (seen addrs : List Bytes) :
    (dedupeFoldFrom c seen addrs).Nodup ∧ ∀ a ∈ dedupeFoldFrom c seen addrs, c.lower a ∉ seen := by
  induction addrs generalizing seen with
  | nil => exact ⟨List.nodup_nil, nofun⟩
  | cons a rest ih =>
    rw [dedupeFoldFrom]
    by_cases hs : c.lower a ∈ seen
    · rw [if_pos hs]
      exact ih seen
    rw [if_neg hs]
    obtain ⟨hn, hf⟩ := ih _
    refine ⟨List.nodup_cons.mpr ⟨fun ha => hf a ha List.mem_cons_self, hn⟩, ?_⟩
    intro b hb
    rcases List.mem_cons.mp hb with rfl | hb
    · exact hs
    · exact fun hm => hf b hb (List.mem_cons_of_mem _ hm)

def DeliverResponse.Distinct : DeliverResponse → Prop
  | .redirected addresses => addresses.Nodup
  | _ => True

def DeliverResponse.Scripted (req : DeliverRequest) : DeliverResponse → Prop
  | .redirected addresses => ∃ outcome, runSieve d req = some outcome ∧ outcome.redirects ≠ [] ∧
      addresses = dedupeFold d.folding.toCaseMap outcome.redirects
  | _ => True

variable {req : DeliverRequest} {msg : Bytes} {response : DeliverResponse}
  {outcome : SieveOutcome}

variable {dom : Domain}

lemma localPlan_scripted {n : Nat}
    (h : (localPlan d n dom req msg).result = some response) : response.Scripted d req := by
  unfold localPlan at h
  by_cases ha : (!dom.hasDeliveryAgent) = true
  · rw [if_pos ha] at h
    cases h
    trivial
  · rw [if_neg ha] at h
    cases h
    trivial

lemma redirectAfter_scripted (hs : runSieve d req = some outcome)
    (h : response.Scripted d req) : (redirectAfter d outcome response).Scripted d req := by
  cases response with
  | delivered folder =>
    dsimp only [redirectAfter]
    by_cases hr : outcome.redirects ≠ []
    · rw [if_pos hr]
      exact ⟨outcome, hs, hr, rfl⟩
    · rw [if_neg hr]
      trivial
  | rejected temporary reason => trivial
  | redirected addresses => exact h

lemma keepPlan_scripted {n : Nat} {mailbox folder : Bytes}
    (h : (keepPlan d n dom req mailbox msg outcome folder).result = some response) : response.Scripted d req := by
  unfold keepPlan at h
  by_cases hk : (!outcome.keep) = true
  · rw [if_pos hk] at h
    cases h
    trivial
  rw [if_neg hk] at h
  by_cases hf : outcome.keepFlags ≠ []
  · rw [if_pos hf, Chain.result_bind] at h
    obtain ⟨_, -, h⟩ := Option.bind_eq_some_iff.mp h
    cases h
    trivial
  · rw [if_neg hf] at h
    exact localPlan_scripted d h

lemma sievePlan_scripted (hs : runSieve d req = some outcome)
    (h : (sievePlan d dom req outcome msg).result = some response) : response.Scripted d req := by
  unfold sievePlan at h
  by_cases hr : outcome.rejectReason ≠ []
  · rw [if_pos hr] at h
    cases h
    trivial
  rw [if_neg hr, Chain.result_bind] at h
  obtain ⟨folder, -, h⟩ := Option.bind_eq_some_iff.mp h
  rw [Chain.result_bind] at h
  obtain ⟨kept, hk, h⟩ := Option.bind_eq_some_iff.mp h
  cases h
  exact redirectAfter_scripted d hs (keepPlan_scripted d hk)

lemma deliverPlan_scripted
    (h : (deliverPlan d req msg).result = some response) : response.Scripted d req := by
  obtain ⟨_, _, hp⟩ | ⟨dom, stored, -, -, hp | ⟨outcome, hs, hp⟩⟩ := deliverPlan_cases d req msg
  · rw [hp] at h
    cases h
    trivial
  · exact localPlan_scripted d (hp ▸ h)
  · exact sievePlan_scripted d hs (hp ▸ h)

lemma deliverPlan_distinct (h : (deliverPlan d req msg).result = some response) : response.Distinct := by
  have hs := deliverPlan_scripted d h
  cases response with
  | delivered folder | rejected temporary reason => trivial
  | redirected addresses =>
    obtain ⟨outcome, -, -, rfl⟩ := hs
    exact (dedupeFoldFrom_nodup _ [] _).1

end Maildancer.Deliver

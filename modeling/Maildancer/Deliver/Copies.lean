import Maildancer.Deliver.Plan

namespace Maildancer.Deliver

open Text Queue Msgstore Maildir

variable (d : Deliverer) (attempt : Nat → Attempt)

def CopyOf (req : DeliverRequest) (msg : Bytes) (copy : Copy) : Prop :=
  copy.mailbox = (parseRecipient req.recipient).address ∧ copy.data = msg

lemma localPlan_leaves (n : Nat) (dom : Domain) (req : DeliverRequest) (msg : Bytes) :
    (localPlan d n dom req msg).Leaves (CopyOf req msg) := by
  unfold localPlan
  by_cases ha : (!dom.hasDeliveryAgent) = true
  · rw [if_pos ha]
    exact .finish
  · rw [if_neg ha]
    exact .single ⟨rfl, rfl⟩

lemma folderPlan_leaves (n : Nat) (dom : Domain) (req : DeliverRequest) (target : FileintoTarget) (msg : Bytes) :
    (folderPlan d n dom req (parseRecipient req.recipient).address target msg).Leaves (CopyOf req msg) := by
  have hl : ((localPlan d n dom req msg).bind fun _ => Chain.finish ()).Leaves (CopyOf req msg) :=
    (localPlan_leaves d n dom req msg).bind fun _ => .finish
  unfold folderPlan
  by_cases hs : (!dom.hasFolderStore) = true
  · rwa [if_pos hs]
  rw [if_neg hs]
  by_cases hf : target.flags ≠ []
  · rw [if_pos hf]
    rcases folderOrInboxPath target.folder with e | loc
    · exact .stop
    · exact .single ⟨rfl, rfl⟩
  rw [if_neg hf]
  by_cases hi : equalFold target.folder (ascii "INBOX") = true
  · rwa [if_pos hi]
  rw [if_neg hi]
  rcases folderPath target.folder with e | loc
  · exact .stop
  · exact .single ⟨rfl, rfl⟩

lemma filePlan_leaves (n : Nat) (dom : Domain) (req : DeliverRequest) (msg : Bytes) (targets : List FileintoTarget)
    (folder : Bytes) :
    (filePlan d n dom req (parseRecipient req.recipient).address msg targets folder).Leaves (CopyOf req msg) := by
  induction targets generalizing n folder with
  | nil => exact .finish
  | cons target rest ih =>
    rw [filePlan]
    exact (folderPlan_leaves d n dom req target msg).bind fun _ => ih (n + 1) target.folder

lemma keepPlan_leaves (n : Nat) (dom : Domain) (req : DeliverRequest) (msg : Bytes) (outcome : SieveOutcome)
    (folder : Bytes) :
    (keepPlan d n dom req (parseRecipient req.recipient).address msg outcome folder).Leaves (CopyOf req msg) := by
  unfold keepPlan
  by_cases hk : (!outcome.keep) = true
  · rw [if_pos hk]
    exact .finish
  rw [if_neg hk]
  by_cases hf : outcome.keepFlags ≠ []
  · rw [if_pos hf]
    exact (folderPlan_leaves d n dom req _ msg).bind fun _ => .finish
  · rw [if_neg hf]
    exact localPlan_leaves d n dom req msg

lemma sievePlan_leaves (dom : Domain) (req : DeliverRequest) (outcome : SieveOutcome) (msg : Bytes) :
    (sievePlan d dom req outcome msg).Leaves (CopyOf req msg) := by
  unfold sievePlan
  by_cases hr : outcome.rejectReason ≠ []
  · rw [if_pos hr]
    exact .finish
  · rw [if_neg hr]
    exact (filePlan_leaves d 0 dom req msg outcome.fileinto []).bind fun folder =>
      (keepPlan_leaves d _ dom req msg outcome folder).bind fun _ => .finish

variable {req : DeliverRequest} {msg user domain : Bytes}

lemma deliver_copies {copy : Copy} (hc : copy ∈ (deliver d attempt req msg).1) :
    copy.mailbox = (parseRecipient req.recipient).address ∧ maybeEncrypt d req msg = some copy.data ∧
      (d.getDomain (splitAddress req.recipient).2).isSome := by
  rw [← run_deliverPlan] at hc
  obtain ⟨_, _, h⟩ | ⟨dom, stored, hd, hs, h⟩ := deliverPlan_cases d req msg
  · rw [h] at hc
    cases hc
  have hl : (deliverPlan d req msg).Leaves (CopyOf req stored) := by
    obtain h | ⟨outcome, -, h⟩ := h
    · rw [h]
      exact localPlan_leaves d 0 dom req stored
    · rw [h]
      exact sievePlan_leaves d dom req outcome stored
  obtain ⟨hm, rfl⟩ := hl.run attempt copy hc
  exact ⟨hm, hs, by rw [hd]; rfl⟩

-- The refusals that come before the key is looked for.
def Refusal.early : Refusal → Bool
  | .noRecipient | .invalidRecipient | .tooLarge => true
  | _ => false

lemma deliver_refused
    (h : d.getDomain (splitAddress req.recipient).2 = none ∨ maybeEncrypt d req msg = none) :
    ∃ temporary reason, deliver d attempt req msg = ([], some (.rejected temporary reason)) ∧
      (temporary = true ∨ reason.early = true) := by
  unfold deliver
  by_cases hn : req.recipient = []
  · exact ⟨_, _, if_pos hn, .inr rfl⟩
  rw [if_neg hn]
  by_cases hv : (!validRecipient req.recipient) = true
  · exact ⟨_, _, if_pos hv, .inr rfl⟩
  rw [if_neg hv]
  rcases hd : d.getDomain (splitAddress req.recipient).2 with _ | dom
  · exact ⟨_, _, rfl, .inl rfl⟩
  dsimp only
  by_cases hs : 0 < dom.maxMessageSize ∧ dom.maxMessageSize < msg.length
  · exact ⟨_, _, if_pos hs, .inr rfl⟩
  rw [if_neg hs]
  rcases h with h | h
  · exact absurd (hd.symm.trans h) (Option.some_ne_none dom)
  · rw [h]
    exact ⟨_, _, rfl, .inl rfl⟩

lemma splitAddress_address (hd : atSign ∉ domain) :
    splitAddress (user ++ atSign :: domain) = (user, domain) := by
  rw [splitAddress, cutLast_eq_some.mpr ⟨rfl, hd⟩]
  rfl

lemma splitAddress_of_address {recipient : Bytes} (hd : atSign ∉ domain)
    (h : (parseRecipient recipient).address = user ++ atSign :: domain) : (splitAddress recipient).2 = domain := by
  unfold parseRecipient at h
  unfold splitAddress
  rcases hc : cutLast atSign recipient with _ | parts
  · rw [hc] at h
    dsimp only at h
    rw [List.append_nil] at h
    have hm : atSign ∈ recipient := by
      have ha : atSign ∈ ((cut plusSign recipient).getD (recipient, [])).1 := by rw [h]; simp
      rcases hpl : cut plusSign recipient with _ | parts
      · rwa [hpl] at ha
      obtain ⟨front, tail⟩ := parts
      rw [hpl] at ha
      obtain ⟨rfl, -⟩ := cut_eq_some.mp hpl
      exact List.mem_append_left _ ha
    obtain ⟨front, tail, hf⟩ := exists_cutLast hm
    exact absurd (hf.symm.trans hc) (Option.some_ne_none _)
  · obtain ⟨localPart, after⟩ := parts
    rw [hc] at h
    have hp := cutLast_eq_some.mpr ⟨h.symm, (cutLast_eq_some.mp hc).2⟩
    rw [cutLast_eq_some.mpr ⟨rfl, hd⟩] at hp
    exact (congrArg Prod.snd (Option.some.inj hp)).symm

-- A local part that names a mailbox by itself, without an extension.
structure MailboxUser (user : Bytes) : Prop where
  valid : validAddressComponent user = true
  ne_dot : user ≠ ascii "."
  noPlus : plusSign ∉ user

lemma MailboxUser.plainName (h : MailboxUser user) : PlainName user := by
  have hv := h.valid
  simp only [validAddressComponent, Bool.and_eq_true, Bool.not_eq_true', List.any_eq_false, decide_eq_true_eq,
    Bool.or_eq_true, not_or] at hv
  obtain ⟨⟨hne, hb⟩, hd⟩ := hv
  refine ⟨hne, fun hs => (hb slash hs).1 rfl, h.ne_dot, ?_⟩
  rintro rfl
  revert hd
  decide

lemma parseRecipient_mailboxUser (hu : MailboxUser user) (hd : atSign ∉ domain) :
    parseRecipient (user ++ atSign :: domain) = ⟨user ++ atSign :: domain, []⟩ := by
  have hc : cut plusSign user = none := by
    rcases hc : cut plusSign user with _ | parts
    · rfl
    · obtain ⟨front, tail⟩ := parts
      obtain ⟨rfl, -⟩ := cut_eq_some.mp hc
      exact absurd (List.mem_append_right _ List.mem_cons_self) hu.noPlus
  rw [parseRecipient, cutLast_eq_some.mpr ⟨rfl, hd⟩]
  dsimp only
  rw [hc]
  rfl

lemma deliver_unscripted {stored : Bytes} {dom : Domain} (forwarded : Bool) (hu : MailboxUser user)
    (hv : validAddressComponent domain = true) (hd : atSign ∉ domain) (hs : d.script = none)
    (hdom : d.getDomain domain = some dom) (ha : dom.hasDeliveryAgent = true)
    (hst : maybeEncrypt d ⟨user ++ atSign :: domain, forwarded⟩ [] = some stored) :
    (deliver d (fun _ => .done) ⟨user ++ atSign :: domain, forwarded⟩ []).1 =
      [⟨user ++ atSign :: domain, ascii "INBOX", [], stored⟩] := by
  have hr : (!validRecipient (user ++ atSign :: domain)) = false := by
    rw [validRecipient, splitAddress_address hd]
    simp [hu.valid, hv]
  have hsi : ¬(0 < dom.maxMessageSize ∧ dom.maxMessageSize < (([] : Bytes).length : Int)) := by
    rw [List.length_nil]
    omega
  unfold deliver
  rw [if_neg (by simp), hr, if_neg Bool.false_ne_true, splitAddress_address hd]
  rw [hdom]
  dsimp only
  rw [if_neg hsi, hst]
  rw [runSieve, runScript, hs]
  dsimp only [Option.bind_none, Option.map_none]
  rw [deliverLocal, ha, parseRecipient_mailboxUser hu hd]
  rfl

end Maildancer.Deliver

import Maildancer.Deliver.Copies

namespace Maildancer.Deliver

open List Text Msgstore Maildir

variable (d : Deliverer) (attempt : Nat → Attempt)

-- The checks before the script's actions are carried out.
structure Admits (req : DeliverRequest) (msg : Bytes) : Prop where
  nonempty : req.recipient ≠ []
  valid : validRecipient req.recipient = true
  domain : ∃ dom, d.getDomain (splitAddress req.recipient).2 = some dom ∧
    ¬ (0 < dom.maxMessageSize ∧ dom.maxMessageSize < msg.length)
  sealable : maybeEncrypt d req msg ≠ none

variable {d} in
lemma deliver_cases (req : DeliverRequest) (msg : Bytes) {data : RuntimeData} (hrun : runScript d req = some data) :
    (¬ Admits d req msg ∧ ∃ temporary reason, deliver d attempt req msg = ([], some (.rejected temporary reason))) ∨
      Admits d req msg ∧ ∃ dom stored, d.getDomain (splitAddress req.recipient).2 = some dom ∧
        maybeEncrypt d req msg = some stored ∧
        deliver d attempt req msg = applySieve d attempt dom req (digestActions data) stored := by
  have hs : runSieve d req = some (digestActions data) := congrArg (Option.map digestActions) hrun
  unfold deliver
  by_cases hn : req.recipient = []
  · exact .inl ⟨fun h => h.nonempty hn, _, _, if_pos hn⟩
  rw [if_neg hn]
  by_cases hv : validRecipient req.recipient = true
  · rw [hv, if_neg (by simp)]
    rcases hd : d.getDomain (splitAddress req.recipient).2 with _ | dom
    · refine .inl ⟨fun h => ?_, _, _, rfl⟩
      obtain ⟨dom, hdo, -⟩ := h.domain
      cases hd.symm.trans hdo
    dsimp only
    by_cases hsi : 0 < dom.maxMessageSize ∧ dom.maxMessageSize < msg.length
    · refine .inl ⟨fun h => ?_, _, _, if_pos hsi⟩
      obtain ⟨other, hdo, hle⟩ := h.domain
      obtain rfl := Option.some.inj (hd.symm.trans hdo)
      exact hle hsi
    rw [if_neg hsi, hs]
    rcases he : maybeEncrypt d req msg with _ | stored
    · exact .inl ⟨fun h => h.sealable he, _, _, rfl⟩
    · exact .inr ⟨⟨hn, hv, ⟨dom, hd, hsi⟩, by simp [he]⟩, dom, stored, rfl, rfl, rfl⟩
  · exact .inl ⟨fun h => hv h.valid, _, _, if_pos (by simpa using hv)⟩

variable {data : RuntimeData}

section Digest

def Action.rejects : Action → Option Bytes
  | .reject reason => some reason
  | .keep _ | .fileInto _ _ | .redirect _ | .discard => none

def Action.redirects : Action → Option Bytes
  | .redirect address => some address
  | .keep _ | .fileInto _ _ | .reject _ | .discard => none

def Action.keeps : Action → Bool
  | .keep _ => true
  | .fileInto mailbox _ => equalFold mailbox (ascii "INBOX")
  | .redirect _ | .reject _ | .discard => false

def Action.files : Action → Option FileintoTarget
  | .fileInto mailbox flags => if equalFold mailbox (ascii "INBOX") then none else some ⟨mailbox, flags⟩
  | .keep _ | .redirect _ | .reject _ | .discard => none

def lastReject (actions : List Action) : Option Bytes := (actions.filterMap Action.rejects).getLast?

structure Digested (before : SieveOutcome) (actions : List Action) (after : SieveOutcome) : Prop where
  reject : after.rejectReason = (lastReject actions).getD before.rejectReason
  fileinto : after.fileinto = before.fileinto ++ actions.filterMap Action.files
  keep : after.keep = (before.keep || actions.any Action.keeps)
  redirects : after.redirects = before.redirects ++ actions.filterMap Action.redirects

lemma digested_action (outcome : SieveOutcome) (a : Action) : Digested outcome [a] (digestAction outcome a) := by
  cases a with
  | fileInto mailbox flags =>
    rw [digestAction]
    by_cases hi : equalFold mailbox (ascii "INBOX") = true
    · rw [if_pos hi]
      exact ⟨rfl, by simp [Action.files, hi], by simp [Action.keeps, hi], by simp [Action.redirects]⟩
    · rw [if_neg hi]
      exact ⟨rfl, by simp [Action.files, hi], by simp [Action.keeps, hi], by simp [Action.redirects]⟩
  | keep flags | redirect address | reject reason | discard =>
    constructor <;> simp [digestAction, lastReject, Action.rejects, Action.files, Action.keeps, Action.redirects]

lemma Digested.append {first second third : SieveOutcome} {actions actions' : List Action}
    (h : Digested first actions second) (h' : Digested second actions' third) :
    Digested first (actions ++ actions') third where
  reject := by
    rw [h'.reject, h.reject, lastReject, lastReject, lastReject, filterMap_append, List.getLast?_append]
    cases (actions'.filterMap Action.rejects).getLast? <;> rfl
  fileinto := by rw [h'.fileinto, h.fileinto, filterMap_append, append_assoc]
  keep := by rw [h'.keep, h.keep, any_append, Bool.or_assoc]
  redirects := by rw [h'.redirects, h.redirects, filterMap_append, append_assoc]

lemma digested_fold (actions : List Action) (outcome : SieveOutcome) :
    Digested outcome actions (actions.foldl digestAction outcome) := by
  induction actions generalizing outcome with
  | nil => exact ⟨rfl, (append_nil _).symm, (Bool.or_false _).symm, (append_nil _).symm⟩
  | cons a rest ih => exact (digested_action outcome a).append (ih _)

lemma digestActions_fields (data : RuntimeData) :
    (digestActions data).rejectReason = (lastReject data.appliedActions).getD [] ∧
      (digestActions data).fileinto = data.appliedActions.filterMap Action.files ∧
      (digestActions data).keep = (data.implicitKeep || data.appliedActions.any Action.keeps) ∧
      (digestActions data).redirects = data.appliedActions.filterMap Action.redirects := by
  have h := digested_fold data.appliedActions ⟨[], [], false, [], []⟩
  unfold digestActions
  dsimp only
  split_ifs with hi
  · obtain ⟨hi, -⟩ := Bool.and_eq_true_iff.mp hi
    exact ⟨h.reject, h.fileinto, by simp [hi], h.redirects⟩
  refine ⟨h.reject, h.fileinto, ?_, h.redirects⟩
  rw [h.keep] at hi ⊢
  cases hk : data.implicitKeep with
  | false => simp
  | true => simpa [hk] using hi

-- A run cancels the implicit keep only by an action other than keep.
def KeepCancelled (data : RuntimeData) : Prop :=
  data.implicitKeep = false → ∃ a ∈ data.appliedActions, ∀ flags, a ≠ .keep flags

def DiscardOnly (data : RuntimeData) : Prop :=
  .discard ∈ data.appliedActions ∧ ∀ a ∈ data.appliedActions, a = .discard

lemma discardOnly_of_idle (hc : KeepCancelled data)
    (hr : lastReject data.appliedActions = none) (hf : (digestActions data).fileinto = [])
    (hk : (digestActions data).keep = false) (hre : (digestActions data).redirects = []) :
    DiscardOnly data := by
  obtain ⟨-, hfi, hke, hrd⟩ := digestActions_fields data
  rw [hfi, filterMap_eq_nil_iff] at hf
  rw [hrd, filterMap_eq_nil_iff] at hre
  rw [hke, Bool.or_eq_false_iff, any_eq_false] at hk
  rw [lastReject, List.getLast?_eq_none_iff, filterMap_eq_nil_iff] at hr
  have hall : ∀ a ∈ data.appliedActions, a = .discard := by
    intro a ha
    have hn := hk.2 a ha
    have hno := hf a ha
    cases a with
    | keep flags => exact absurd rfl hn
    | fileInto mailbox flags =>
      have ho : equalFold mailbox (ascii "INBOX") = false := by simpa [Action.keeps] using hn
      simp [Action.files, ho] at hno
    | redirect address => cases hre _ ha
    | reject reason => cases hr _ ha
    | discard => rfl
  obtain ⟨a, ha, -⟩ := hc hk.1
  exact ⟨hall a ha ▸ ha, hall⟩

end Digest

section Writes

variable {d attempt}

variable {n : Nat} {dom : Domain} {req : DeliverRequest} {msg mailbox folder : Bytes}
  {copies : List Copy} {response : DeliverResponse} {outcome : SieveOutcome}

lemma deliverLocal_copy (ha : dom.hasDeliveryAgent = true)
    (h : deliverLocal d attempt n dom req msg = (copies, some response)) : copies ≠ [] := by
  rw [deliverLocal, ha, if_neg (by simp)] at h
  dsimp only [write] at h
  cases hat : attempt n <;> rw [hat] at h <;> cases h
  exact cons_ne_nil _ _

lemma step_copy {copy : Copy} {late : Bool} {outcome : Attempt}
    (h : (⟨some copy, late⟩ : Step Copy).run outcome = (copies, true)) : copies ≠ [] := by
  cases outcome <;> cases h
  exact cons_ne_nil _ _

lemma deliverToFolder_copy {target : FileintoTarget} (ha : dom.hasDeliveryAgent = true)
    (h : deliverToFolder d attempt n dom req mailbox target msg = (copies, true)) : copies ≠ [] := by
  have hl : ((deliverLocal d attempt n dom req msg).1, (deliverLocal d attempt n dom req msg).2.isSome) =
      (copies, true) → copies ≠ [] := by
    intro ho
    obtain ⟨hc, hs⟩ := Prod.mk.inj ho
    obtain ⟨response, hr⟩ := Option.isSome_iff_exists.mp hs
    exact deliverLocal_copy ha (Prod.ext hc hr)
  unfold deliverToFolder at h
  by_cases hst : (!dom.hasFolderStore) = true
  · rw [if_pos hst] at h
    exact hl h
  rw [if_neg hst] at h
  by_cases hf : target.flags ≠ []
  · rw [if_pos hf] at h
    rcases hp : folderOrInboxPath target.folder with e | loc
    · rw [hp] at h
      cases h
    · rw [hp] at h
      exact step_copy h
  rw [if_neg hf] at h
  by_cases hi : equalFold target.folder (ascii "INBOX") = true
  · rw [if_pos hi] at h
    exact hl h
  rw [if_neg hi] at h
  rcases hp : folderPath target.folder with e | loc
  · rw [hp] at h
    cases h
  · rw [hp] at h
    exact step_copy h

lemma fileAll_copy {targets : List FileintoTarget} {last : Bytes} (ha : dom.hasDeliveryAgent = true)
    (ht : targets ≠ []) (h : fileAll d attempt n dom req mailbox msg targets folder = (copies, some last)) :
    copies ≠ [] := by
  rcases targets with _ | ⟨target, rest⟩
  · exact absurd rfl ht
  rw [fileAll] at h
  rcases hf : deliverToFolder d attempt n dom req mailbox target msg with ⟨first, ok⟩
  rw [hf] at h
  cases ok with
  | false => cases h
  | true =>
    obtain ⟨hc, -⟩ := Prod.mk.inj h
    rw [← hc]
    exact append_ne_nil_of_left_ne_nil (deliverToFolder_copy ha hf) _

lemma applyKeep_copy (ha : dom.hasDeliveryAgent = true) (hk : outcome.keep = true)
    (h : applyKeep d attempt n dom req mailbox msg outcome folder = (copies, some response)) : copies ≠ [] := by
  rw [applyKeep, hk, if_neg (by simp)] at h
  by_cases hf : outcome.keepFlags ≠ []
  · rw [if_pos hf] at h
    cases ho : deliverToFolder d attempt n dom req mailbox ⟨ascii "INBOX", outcome.keepFlags⟩ msg with
    | mk kept ok =>
      rw [ho] at h
      rcases ok with _ | _
      · cases h
      · obtain ⟨rfl, -⟩ := Prod.mk.inj h
        exact deliverToFolder_copy ha ho
  · rw [if_neg hf] at h
    exact deliverLocal_copy ha h

lemma applySieve_cases (h : applySieve d attempt dom req outcome msg = (copies, some response)) :
    response = .rejected false (.script outcome.rejectReason) ∧ outcome.rejectReason ≠ [] ∨
      outcome.rejectReason = [] ∧ ∃ filed folder kept answer,
        fileAll d attempt 0 dom req (parseRecipient req.recipient).address msg outcome.fileinto [] =
          (filed, some folder) ∧
        applyKeep d attempt outcome.fileinto.length dom req (parseRecipient req.recipient).address msg outcome folder =
          (kept, some answer) ∧
        copies = filed ++ kept ∧ response = redirectAfter d outcome answer := by
  unfold applySieve at h
  by_cases hr : outcome.rejectReason ≠ []
  · rw [if_pos hr] at h
    cases h
    exact .inl ⟨rfl, hr⟩
  rw [if_neg hr] at h
  dsimp only at h
  refine .inr ⟨not_not.mp hr, ?_⟩
  cases hf : fileAll d attempt 0 dom req (parseRecipient req.recipient).address msg outcome.fileinto [] with
  | mk filed last =>
    rw [hf] at h
    rcases last with _ | folder
    · cases h
    dsimp only at h
    cases hk : applyKeep d attempt outcome.fileinto.length dom req (parseRecipient req.recipient).address msg
        outcome folder with
    | mk kept answer =>
      rw [hk] at h
      rcases answer with _ | answer
      · cases h
      · refine ⟨filed, folder, kept, answer, rfl, hk, ?_⟩
        cases answer <;> cases h <;> exact ⟨rfl, rfl⟩

lemma redirectAfter_delivered {answer : DeliverResponse}
    (h : redirectAfter d outcome answer = .delivered folder) : outcome.redirects = [] := by
  cases answer with
  | delivered kept =>
    by_contra hr
    rw [redirectAfter, if_pos hr] at h
    cases h
  | rejected temporary reason | redirected addresses => cases h

lemma applySieve_delivered (ha : dom.hasDeliveryAgent = true) (hc : KeepCancelled data)
    (hr : ∀ reason, lastReject data.appliedActions = some reason → reason ≠ [])
    (h : applySieve d attempt dom req (digestActions data) msg = (copies, some (.delivered folder))) :
    copies ≠ [] ∨ DiscardOnly data := by
  obtain ⟨hre, -⟩ | ⟨he, filed, last, kept, answer, hf, hk, rfl, han⟩ := applySieve_cases h
  · cases hre
  have hn : lastReject data.appliedActions = none := by
    rw [(digestActions_fields data).1] at he
    rcases hl : lastReject data.appliedActions with _ | reason
    · rfl
    · rw [hl] at he
      exact absurd he (hr reason hl)
  by_cases hfi : (digestActions data).fileinto = []
  · cases hke : (digestActions data).keep with
    | true => exact .inl (append_ne_nil_of_right_ne_nil _ (applyKeep_copy ha hke hk))
    | false => exact .inr (discardOnly_of_idle hc hn hfi hke (redirectAfter_delivered han.symm))
  · exact .inl (append_ne_nil_of_left_ne_nil (fileAll_copy ha hfi hf) _)

variable {addresses : List Bytes} {addr : Bytes}

lemma deliverLocal_answer (h : deliverLocal d attempt n dom req msg = (copies, some response)) :
    dom.hasDeliveryAgent = false ∧ response = .rejected true .noDeliveryAgent ∨
      ∃ inbox, response = .delivered inbox := by
  unfold deliverLocal at h
  by_cases ha : (!dom.hasDeliveryAgent) = true
  · rw [if_pos ha] at h
    cases h
    exact .inl ⟨by simpa using ha, rfl⟩
  · rw [if_neg ha] at h
    dsimp only [write] at h
    cases hat : attempt n <;> rw [hat] at h <;> cases h
    exact .inr ⟨_, rfl⟩

lemma applyKeep_answer
    (h : applyKeep d attempt n dom req mailbox msg outcome folder = (copies, some response)) :
    dom.hasDeliveryAgent = false ∧ response = .rejected true .noDeliveryAgent ∨
      ∃ inbox, response = .delivered inbox := by
  unfold applyKeep at h
  split_ifs at h
  · cases h
    exact .inr ⟨_, rfl⟩
  · cases ho : deliverToFolder d attempt n dom req mailbox ⟨ascii "INBOX", outcome.keepFlags⟩ msg with
    | mk kept ok =>
      rw [ho] at h
      cases ok <;> cases h
      exact .inr ⟨_, rfl⟩
  · exact deliverLocal_answer h

lemma dedupeFoldFrom_covers (c : CaseMap) {addrs : List Bytes} (had : addr ∈ addrs)
    (seen : List Bytes) : c.lower addr ∈ seen ∨ ∃ a ∈ dedupeFoldFrom c seen addrs, c.lower a = c.lower addr := by
  induction addrs generalizing seen with
  | nil => cases had
  | cons first rest ih =>
    rw [dedupeFoldFrom]
    by_cases hs : c.lower first ∈ seen
    · rw [if_pos hs]
      obtain rfl | hr := mem_cons.mp had
      · exact .inl hs
      · exact ih hr seen
    · rw [if_neg hs]
      obtain rfl | hr := mem_cons.mp had
      · exact .inr ⟨addr, mem_cons_self, rfl⟩
      obtain hm | ⟨a, ha, hl⟩ := ih hr _
      · obtain hsa | hm := mem_cons.mp hm
        · exact .inr ⟨first, mem_cons_self, hsa.symm⟩
        · exact .inl hm
      · exact .inr ⟨a, mem_cons_of_mem _ ha, hl⟩

lemma applySieve_redirected
    (h : applySieve d attempt dom req (digestActions data) msg = (copies, some (.redirected addresses)))
    (ha : .redirect addr ∈ data.appliedActions) :
    ∃ a ∈ addresses, d.folding.toCaseMap.lower a = d.folding.toCaseMap.lower addr := by
  obtain ⟨hr, -⟩ | ⟨-, filed, last, kept, answer, -, hk, -, han⟩ := applySieve_cases h
  · cases hr
  have hm : addr ∈ (digestActions data).redirects := by
    rw [(digestActions_fields data).2.2.2]
    exact mem_filterMap.mpr ⟨_, ha, rfl⟩
  cases answer with
  | delivered folder =>
    rw [redirectAfter, if_pos (ne_nil_of_mem hm)] at han
    obtain rfl := DeliverResponse.redirected.inj han
    exact (dedupeFoldFrom_covers _ hm []).resolve_left (by simp)
  | rejected temporary reason => cases han
  | redirected addresses =>
    obtain ⟨-, h⟩ | ⟨_, h⟩ := applyKeep_answer hk <;> cases h

-- A reject with an empty reason is taken for none.
lemma applySieve_quiet (ha : dom.hasDeliveryAgent = true) (hq : lastReject data.appliedActions = some [])
    {temporary : Bool} {reason : Refusal} :
    applySieve d attempt dom req (digestActions data) msg ≠ (copies, some (.rejected temporary reason)) := by
  intro h
  have he : (digestActions data).rejectReason = [] := by rw [(digestActions_fields data).1, hq]; rfl
  obtain ⟨-, hne⟩ | ⟨-, filed, last, kept, answer, -, hk, -, han⟩ := applySieve_cases h
  · exact hne he
  obtain ⟨hno, -⟩ | ⟨inbox, rfl⟩ := applyKeep_answer hk
  · cases ha.symm.trans hno
  · unfold redirectAfter at han
    split_ifs at han

end Writes

structure Conserves (d : Deliverer) (attempt : Nat → Attempt) (req : DeliverRequest) (msg : Bytes)
    (data : RuntimeData) : Prop where
  delivered : ∀ copies folder, deliver d attempt req msg = (copies, some (.delivered folder)) →
    (∃ copy ∈ copies, copy.mailbox = (parseRecipient req.recipient).address ∧
      maybeEncrypt d req msg = some copy.data) ∨ DiscardOnly data
  rejected : (∃ reason, .reject reason ∈ data.appliedActions) →
    ∃ temporary reason, deliver d attempt req msg = ([], some (.rejected temporary reason))
  redirected : ∀ copies addresses, deliver d attempt req msg = (copies, some (.redirected addresses)) →
    ∀ addr, .redirect addr ∈ data.appliedActions →
      ∃ a ∈ addresses, d.folding.toCaseMap.lower a = d.folding.toCaseMap.lower addr

lemma lastReject_isSome {actions : List Action} {reason : Bytes} (h : .reject reason ∈ actions) :
    ∃ last, lastReject actions = some last := by
  refine Option.ne_none_iff_exists'.mp ?_
  rw [lastReject, Ne, List.getLast?_eq_none_iff]
  exact ne_nil_of_mem (mem_filterMap.mpr ⟨_, h, rfl⟩)

-- A message that is answered with Delivered has been kept, or the script has discarded it,
-- unless a reject with an empty reason is the last one.
theorem delivered_means_kept_iff {d : Deliverer} (attempt : Nat → Attempt) (req : DeliverRequest) (msg : Bytes)
    {data : RuntimeData} (hrun : runScript d req = some data) (hcancelled : KeepCancelled data)
    (hagent : ∀ dom, d.getDomain (splitAddress req.recipient).2 = some dom → dom.hasDeliveryAgent = true) :
    Conserves d attempt req msg data ↔ (Admits d req msg → lastReject data.appliedActions ≠ some []) := by
  obtain ⟨hna, temporary, reason, hf⟩ | ⟨had, dom, stored, hd, hs, hsi⟩ := deliver_cases attempt req msg hrun
  · -- refused before the script counts, so there is nothing to keep
    refine iff_of_true ⟨fun _ _ h => ?_, fun _ => ⟨_, _, hf⟩, fun _ _ h => ?_⟩ fun h => absurd h hna
    · cases hf.symm.trans h
    · cases hf.symm.trans h
  constructor
  · intro h _ hq
    have hm : [] ∈ data.appliedActions.filterMap Action.rejects := mem_of_getLast? hq
    obtain ⟨a, ha, hr⟩ := mem_filterMap.mp hm
    cases a <;> cases hr
    obtain ⟨temporary, reason, hre⟩ := h.rejected ⟨[], ha⟩
    exact applySieve_quiet (hagent dom hd) hq (hsi.symm.trans hre)
  intro hq
  have hreject : ∀ reason, lastReject data.appliedActions = some reason → reason ≠ [] := by
    rintro reason hl rfl
    exact hq had hl
  refine ⟨fun copies folder h => ?_, fun hr => ?_, fun copies addresses h addr ha =>
    applySieve_redirected (hsi.symm.trans h) ha⟩
  · have ho := hsi.symm.trans h
    refine (applySieve_delivered (hagent dom hd) hcancelled hreject ho).imp_left fun hc => ?_
    obtain ⟨copy, hco⟩ := exists_mem_of_ne_nil _ hc
    -- whatever the plan writes is the sealed message, in the recipient's mailbox
    have hl := (sievePlan_leaves d dom req (digestActions data) stored).run attempt
    rw [run_sievePlan, ho] at hl
    obtain ⟨hm, hda⟩ := hl copy hco
    exact ⟨copy, hco, hm, by rw [hda, hs]⟩
  · obtain ⟨reason, hre⟩ := hr
    obtain ⟨last, hla⟩ := lastReject_isSome hre
    have hdi : (digestActions data).rejectReason ≠ [] := by
      rw [(digestActions_fields data).1, hla]
      exact hreject last hla
    exact ⟨false, .script (digestActions data).rejectReason, by rw [hsi, applySieve, if_pos hdi]⟩

def oneDomain (script : Option Script) : Deliverer where
  folding := Folding.asciiOnly
  storeBasePath := []
  getDomain _ := some ⟨0, true, true⟩
  parses _ := true
  script := script
  folderIfExists _ _ := false
  readFile _ := .notExist
  encryptMessage msg _ := some msg

def toUser : DeliverRequest := ⟨ascii "user@a.org", false⟩

def rejectedQuietly : RuntimeData := ⟨[.reject []], false, []⟩

-- A script that always does the same and sends the message nowhere else.
def Script.fixed (data : RuntimeData) (h : data.appliedActions.filterMap Action.redirects = []) : Script where
  execute _ := some data
  obeys _ data' addr hdata haddr := by
    cases hdata
    cases filterMap_eq_nil_iff.mp h _ haddr

-- reject "";
theorem quiet_reject_lost :
    KeepCancelled rejectedQuietly ∧ .reject [] ∈ rejectedQuietly.appliedActions ∧ ¬ DiscardOnly rejectedQuietly ∧
      deliver (oneDomain (some (.fixed rejectedQuietly rfl))) (fun _ => .done) toUser (ascii "hello") =
        ([], some (.delivered [])) := by
  refine ⟨fun _ => ⟨.reject [], mem_singleton_self _, fun _ h => by cases h⟩, mem_singleton_self _,
    fun hd => ?_, rfl⟩
  cases hd.2 (.reject []) (mem_singleton_self _)

def filedOnce : RuntimeData := ⟨[.fileInto (ascii "Lists") []], false, []⟩

theorem delivered_means_kept_iff_filed :
    deliver (oneDomain (some (.fixed filedOnce rfl))) (fun _ => .done) toUser (ascii "hello") =
        ([⟨ascii "user@a.org", ascii "Lists", [], ascii "hello"⟩], some (.delivered (ascii "Lists"))) ∧
      Conserves (oneDomain (some (.fixed filedOnce rfl))) (fun _ => .done) toUser (ascii "hello") filedOnce := by
  refine ⟨rfl, (delivered_means_kept_iff (fun _ => .done) toUser (ascii "hello") rfl ?_ ?_).mpr fun _ h => by cases h⟩
  · exact fun _ => ⟨.fileInto _ [], mem_singleton_self _, fun _ h => by cases h⟩
  · intro dom hd
    cases hd
    rfl

end Maildancer.Deliver

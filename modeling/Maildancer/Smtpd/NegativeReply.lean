import Maildancer.Deliver.Conservation
import Maildancer.Smtpd.Site

namespace Maildancer.Smtpd

open List Text

-- What is tried for one target of a redirect.
def Effort.ForTarget (target : Bytes) (e : Effort) : Prop :=
  e = .validate target ∨ e = .enqueue target ∨ ∃ n, e = .write target true n

lemma Effort.ForTarget.unique {target other : Bytes} {e : Effort} (h : e.ForTarget target)
    (ho : e.ForTarget other) : target = other := by
  obtain rfl | rfl | ⟨n, rfl⟩ := h <;> simpa [Effort.ForTarget] using ho

section Names

variable (site : Site)

lemma named_proxyPlan (recipient : Bytes) (forwarded : Bool) :
    (proxyPlan site recipient forwarded).Named fun e => ∃ n, e = .write recipient forwarded n := by
  unfold proxyPlan
  rcases if forwarded then none else site.resolveForward recipient with _ | rule
  · by_cases hs : (!site.deliverySession recipient) = true
    · rw [if_pos hs]
      exact .stop
    rw [if_neg hs]
    have hw : ((Deliver.deliverPlan (site.deliverer recipient forwarded) ⟨recipient, forwarded⟩
        (site.message recipient forwarded)).relabel (Effort.write recipient forwarded) Kept.stored).Named
        fun e => ∃ n, e = .write recipient forwarded n :=
      (Deliver.named_deliverPlan _ _ _).relabel (fun _ _ h => (Effort.write.inj h).2.2) fun n _ => ⟨n, rfl⟩
    refine (hw.bind (Q := fun _ => False) (fun response _ => ?_) fun _ _ => id).mono fun _ =>
      Or.rec id False.elim
    cases response with
    | delivered folder | redirected addresses => exact .finish
    | rejected temporary reason => exact .stop
  · obtain ⟨target, more⟩ := rule
    cases more with
    | nil => exact .finish
    | cons _ _ => exact .stop

lemma proxyPlan_distinct {recipient : Bytes} {forwarded : Bool} {addresses : List Bytes}
    (h : (proxyPlan site recipient forwarded).result = some (.redirect addresses)) : addresses.Nodup := by
  unfold proxyPlan at h
  rcases hr : if forwarded then none else site.resolveForward recipient with _ | rule
  · rw [hr] at h
    by_cases hs : (!site.deliverySession recipient) = true
    · rw [if_pos hs] at h
      cases h
    rw [if_neg hs, Chain.result_bind] at h
    obtain ⟨response, hre, h⟩ := Option.bind_eq_some_iff.mp h
    have hd := Deliver.deliverPlan_distinct _ hre
    cases response with
    | delivered folder | rejected temporary reason => cases h
    | redirected targets =>
      obtain rfl := DeliverOutcome.redirect.inj (Option.some.inj h)
      exact hd
  · obtain ⟨target, more⟩ := rule
    rw [hr] at h
    cases more with
    | nil =>
      obtain rfl := DeliverOutcome.redirect.inj (Option.some.inj h)
      exact nodup_singleton _
    | cons _ _ => cases h

lemma named_enqueuePlan (recipient : Bytes) : (enqueuePlan site recipient).Named (· = .enqueue recipient) := by
  unfold enqueuePlan
  by_cases ha : site.queueAccepts recipient = true
  · rw [if_pos ha]
    exact .single rfl
  · rw [if_neg ha]
    exact .stop

lemma named_targetPlan (target : Bytes) (info : RecipientInfo) :
    (targetPlan site target info).Named fun e => e = .enqueue target ∨ ∃ n, e = .write target true n := by
  unfold targetPlan
  by_cases hl : (!info.domainIsLocal) = true
  · rw [if_pos hl]
    exact (named_enqueuePlan site target).mono fun _ => .inl
  rw [if_neg hl]
  refine ((named_proxyPlan site target true).bind (Q := fun _ => False) (fun outcome _ => ?_) fun _ _ => id).mono
    fun _ => Or.rec .inr False.elim
  cases outcome with
  | delivered folder => exact .finish
  | redirect addresses | failed => exact .stop

lemma named_followPlan {targets : List Bytes} (h : targets.Nodup) :
    (followPlan site targets).Named fun e => ∃ target ∈ targets, e.ForTarget target := by
  induction targets with
  | nil => exact .finish
  | cons target rest ih =>
    obtain ⟨hf, hr⟩ := nodup_cons.mp h
    rw [followPlan]
    rcases site.validate target with _ | info
    · exact .stop
    have hfi : (Chain.single (Effort.validate target) (⟨none, false⟩ : Step Kept) ()).Named
        (· = Effort.validate target) := .single rfl
    have hb := hfi.bind (fun _ _ => named_targetPlan site target info) (by
      rintro _ rfl (h | ⟨n, h⟩) <;> cases h)
    refine (hb.bind (fun _ _ => ih hr) ?_).mono ?_
    · rintro e he ⟨other, ho, he'⟩
      exact hf (Effort.ForTarget.unique he he' ▸ ho)
    · rintro e (he | ⟨other, ho, he⟩)
      · exact ⟨target, mem_cons_self, he⟩
      · exact ⟨other, mem_cons_of_mem _ ho, he⟩

lemma named_localPlan (s : Session) : (localPlan site s).Named fun _ => True := by
  unfold localPlan
  rcases s.recipients with _ | ⟨first, rest⟩
  · exact .finish
  refine ((named_proxyPlan site first false).bind (Q := fun e => ∃ target, e.ForTarget target)
    (fun outcome ho => ?_) ?_).mono fun _ _ => trivial
  · cases outcome with
    | failed => exact .stop
    | delivered folder => exact .finish
    | redirect addresses =>
      rcases addresses with _ | ⟨target, more⟩
      · exact .stop
      · exact (named_followPlan site (proxyPlan_distinct site ho)).mono fun _ ⟨target, _, h⟩ => ⟨target, h⟩
  · rintro _ ⟨n, rfl⟩ ⟨target, h | h | ⟨m, h⟩⟩ <;> cases h

end Names

-- RCPT admits a single recipient.
def OneRecipient (s : Session) : Prop := s.recipients.length + s.remoteRecipients.length ≤ 1

lemma OneRecipient.step {c : CaseMap} {b : Backend} {s t : Session} {call : Callback} (h : OneRecipient s)
    (hs : step c b s call = some t) : OneRecipient t := by
  cases call with
  | auth login =>
    cases hs
    unfold auth
    split
    · exact h
    · cases login <;> exact h
  | mail sender allowed =>
    cases hs
    unfold mail
    split_ifs <;> exact h
  | rcpt recipient answer =>
    cases hs
    unfold rcpt
    by_cases ht : 0 < s.recipients.length + s.remoteRecipients.length ∨ s.deferredInvalidRecipient ≠ []
    · rw [if_pos ht]
      exact h
    rw [if_neg ht]
    by_cases hd : extractDomain c recipient = []
    · rw [if_pos hd]
      exact h
    rw [if_neg hd]
    by_cases hde : (!b.smDelivery) = true
    · rw [if_pos hde]
      simp only [OneRecipient, length_append, length_singleton]
      omega
    rw [if_neg hde]
    rcases answer with _ | info
    · exact h
    · dsimp only [acceptRecipient]
      split_ifs <;> simp only [OneRecipient, length_append, length_singleton] at h ⊢ <;> omega
  | data t =>
    cases hs
    exact h
  | reset =>
    cases hs
    exact Nat.zero_le 1

lemma named_dataPlan (site : Site) (c : CaseMap) (b : Backend) {s : Session} (a : Arrival) (h : OneRecipient s) :
    ((dataPlan site c b s a).steps.map Prod.fst).Nodup := by
  suffices hn : (dataPlan site c b s a).Named fun _ => True from hn.distinct
  have hr : (s.remoteRecipients = [] ∨ ∃ recipient, s.remoteRecipients = [recipient]) := by
    match hl : s.remoteRecipients with
    | [] => exact .inl rfl
    | [recipient] => exact .inr ⟨recipient, rfl⟩
    | _ :: _ :: _ =>
      simp only [OneRecipient, hl, length_cons] at h
      omega
  unfold dataPlan
  split
  · exact .stop
  obtain hno | ⟨recipient, ho⟩ := hr
  · refine ((named_localPlan site s).bind (Q := fun _ => False) (fun _ _ => ?_) fun _ _ => id).mono fun _ _ => trivial
    rw [remotePlan, if_pos hno]
    exact .finish
  have hre : s.recipients = [] := by
    refine eq_nil_of_length_eq_zero ?_
    simp only [OneRecipient, ho, length_singleton] at h
    omega
  have hlo : (localPlan site s).Named fun _ => False := by
    unfold localPlan
    rw [hre]
    exact .finish
  refine (hlo.bind (Q := fun _ => True) (fun _ _ => ?_) fun _ h => h.elim).mono fun _ _ => trivial
  unfold remotePlan
  split_ifs
  · exact .finish
  · exact .stop
  · exact .stop
  · rw [ho, enqueueAllPlan]
    exact ((named_enqueuePlan site recipient).bind (Q := fun _ => False) (fun _ _ => .finish) fun _ _ => id).mono
      fun _ _ => trivial

-- A negative reply leaves nothing behind, whatever fails, exactly if at most the last step of the message
-- leaves something, cannot fail once it has and is not followed by a refusal.
theorem negative_reply_keeps_nothing_iff {c : CaseMap} {b : Backend} {s : Session}
    (h : Reaches (step c b) (fun _ _ => True) Session.new s) (site : Site) (a : Arrival) :
    (∀ failures e, (data c b s (site.transaction failures a)).2 = .error e →
        (data c b s (site.transaction failures a)).1.flatMap (site.kept failures) = []) ↔
      (dataPlan site c b s a).Clean := by
  have ho : OneRecipient s := h.invariant (Nat.zero_le 1) fun _ _ _ hs _ hst => hs.step hst
  rw [← Chain.allOrNothing_iff_clean (named_dataPlan site c b a ho)]
  refine forall_congr' fun failures => ?_
  rw [run_dataPlan]
  cases (data c b s (site.transaction failures a)).2 with
  | ok _ | error e => simp [Except.toOption]

def aliceAddress : Bytes := ascii "alice@a.org"

def deliveringBackend : Backend := ⟨true, false, 0, false, .failOpen, 0, 0⟩

def aliceArrival : Arrival := ⟨false, none, some (ascii "id"), .missing⟩

def simpleSite (script : Option Deliver.Script) : Site where
  resolveForward _ := none
  deliverySession _ := true
  deliverer _ _ :=
    { folding := Folding.asciiOnly
      storeBasePath := []
      getDomain := fun _ => some ⟨0, true, true⟩
      parses := fun _ => true
      script := script
      folderIfExists := fun _ _ => false
      readFile := fun _ => .notExist
      encryptMessage := fun msg _ => some msg }
  message _ _ := ascii "hello"
  validate _ := some ⟨true, true, false⟩
  queueAccepts _ := true

def toAlice : List Callback := [.mail (ascii "bob@b.org") true, .rcpt aliceAddress (some ⟨true, true, false⟩)]

def aliceSession : Session := { Session.new with
  mailFrom := ascii "bob@b.org", mailFromSeen := true, recipients := [aliceAddress] }

lemma reaches_aliceSession :
    Reaches (step CaseMap.asciiOnly deliveringBackend) (fun _ _ => True) Session.new aliceSession := by
  have hr : runSteps (step CaseMap.asciiOnly deliveringBackend) Session.new toAlice = some aliceSession := rfl
  exact Reaches.of_runSteps (fun _ _ _ => trivial) hr

theorem negative_reply_keeps_nothing_iff_plain :
    Reaches (step CaseMap.asciiOnly deliveringBackend) (fun _ _ => True) Session.new aliceSession ∧
    ∀ failures e, (data CaseMap.asciiOnly deliveringBackend aliceSession
        ((simpleSite none).transaction failures aliceArrival)).2 = .error e →
      (data CaseMap.asciiOnly deliveringBackend aliceSession
        ((simpleSite none).transaction failures aliceArrival)).1.flatMap ((simpleSite none).kept failures) = [] :=
  ⟨reaches_aliceSession,
    (negative_reply_keeps_nothing_iff reaches_aliceSession _ aliceArrival).mpr ⟨rfl, rfl, rfl⟩⟩

-- Two folders, and the write to the second fails.
def filesTwice : Deliver.Script := .fixed ⟨[.fileInto (ascii "A") [], .fileInto (ascii "B") []], false, []⟩ rfl

def secondFails : Failures
  | .write _ _ 1 => .failed
  | _ => .done

theorem negative_reply_keeps_first_folder : (data CaseMap.asciiOnly deliveringBackend aliceSession
        ((simpleSite (some filesTwice)).transaction secondFails aliceArrival)).2 =
      .error ⟨451, (4, 3, 0), ascii "Delivery failed"⟩ ∧
    (data CaseMap.asciiOnly deliveringBackend aliceSession
        ((simpleSite (some filesTwice)).transaction secondFails aliceArrival)).1.flatMap
          ((simpleSite (some filesTwice)).kept secondFails) =
      [.stored ⟨aliceAddress, ascii "A", [], ascii "hello"⟩] :=
  ⟨rfl, rfl⟩

end Maildancer.Smtpd

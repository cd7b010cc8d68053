import Maildancer.Deliver.Plan
import Maildancer.Smtpd
import Maildancer.Transition

namespace Maildancer.Smtpd

open Text

inductive Kept
  | stored (copy : Deliver.Copy)
  | queued (recipient : Bytes)
deriving DecidableEq

-- What may fail on its own while one message is worked on: a write of a
-- delivery, the validation of a forward target, the envelope for a recipient.
inductive Effort
  | write (recipient : Bytes) (forwarded : Bool) (n : Nat)
  | validate (target : Bytes)
  | enqueue (recipient : Bytes)
deriving DecidableEq

abbrev Failures := Effort → Attempt

-- What stands behind smtpd for one message. A forwarding rule has a target.
structure Site where
  resolveForward : Bytes → Option (Bytes × List Bytes)
  deliverySession : Bytes → Bool
  deliverer : Bytes → Bool → Deliver.Deliverer
  message : Bytes → Bool → Bytes
  validate : Bytes → Option RecipientInfo
  queueAccepts : Bytes → Bool

structure Arrival where
  readFails : Bool
  spamCheck : Option CheckResult
  msgid : Option Bytes
  fromHeader : FromHeader

namespace Site

variable (site : Site) (failures : Failures)

-- deliveryProxy.Deliver with respondForward, and what smtpd makes of the answer.
def proxyDeliver (recipient : Bytes) (forwarded : Bool) : List Deliver.Copy × DeliverOutcome :=
  match if forwarded then none else site.resolveForward recipient with
  | some (target, []) => ([], .redirect [target])
  | some (_, _ :: _) => ([], .failed)
  | none =>
    if !site.deliverySession recipient then ([], .failed)
    else match Deliver.deliver (site.deliverer recipient forwarded) (fun n => failures (.write recipient forwarded n))
        ⟨recipient, forwarded⟩ (site.message recipient forwarded) with
      | (copies, none) => (copies, .failed)
      | (copies, some (.delivered folder)) => (copies, .delivered folder)
      | (copies, some (.rejected _ _)) => (copies, .failed)
      | (copies, some (.redirected addresses)) => (copies, .redirect addresses)

-- The envelope for one recipient is the last file that is written for it.
def queueStep (recipient : Bytes) : Step Kept := ⟨some (.queued recipient), false⟩

def enqueues (recipient : Bytes) : Bool :=
  site.queueAccepts recipient && ((queueStep recipient).run (failures (.enqueue recipient))).2

def transaction (a : Arrival) : Transaction where
  readFails := a.readFails
  spamCheck := a.spamCheck
  msgid := a.msgid
  deliver recipient forwarded := (site.proxyDeliver failures recipient forwarded).2
  validate target :=
    if ((⟨none, false⟩ : Step Kept).run (failures (.validate target))).2 then site.validate target else none
  fromHeader := a.fromHeader
  enqueue recipients := recipients.all (site.enqueues failures)

-- What a call leaves. The queue writes one envelope after another up to the first that fails.
def kept : Dispatch → List Kept
  | .deliver _ recipient forwarded _ => (site.proxyDeliver failures recipient forwarded).1.map .stored
  | .enqueue _ recipients _ _ => (recipients.takeWhile (site.enqueues failures)).map .queued
  | .notify _ _ => []

end Site

section Plan

variable (site : Site)

def proxyPlan (recipient : Bytes) (forwarded : Bool) : Chain Effort Kept DeliverOutcome :=
  match if forwarded then none else site.resolveForward recipient with
  | some (target, []) => .finish (.redirect [target])
  | some (_, _ :: _) => .stop
  | none =>
    if !site.deliverySession recipient then .stop
    else
      ((Deliver.deliverPlan (site.deliverer recipient forwarded) ⟨recipient, forwarded⟩
        (site.message recipient forwarded)).relabel (.write recipient forwarded) .stored).bind fun
          | .delivered folder => .finish (.delivered folder)
          | .rejected _ _ => .stop
          | .redirected addresses => .finish (.redirect addresses)

def enqueuePlan (recipient : Bytes) : Chain Effort Kept Unit :=
  if site.queueAccepts recipient then .single (.enqueue recipient) (Site.queueStep recipient) () else .stop

def enqueueAllPlan : List Bytes → Chain Effort Kept Unit
  | [] => .finish ()
  | recipient :: rest => (enqueuePlan site recipient).bind fun _ => enqueueAllPlan rest

def targetPlan (target : Bytes) (info : RecipientInfo) : Chain Effort Kept Unit :=
  if !info.domainIsLocal then enqueuePlan site target
  else (proxyPlan site target true).bind fun
    | .delivered _ => .finish ()
    | _ => .stop

def followPlan : List Bytes → Chain Effort Kept Unit
  | [] => .finish ()
  | target :: rest =>
    match site.validate target with
    | none => .stop
    | some info =>
      ((Chain.single (.validate target) ⟨none, false⟩ ()).bind fun _ => targetPlan site target info).bind fun _ =>
        followPlan rest

def localPlan (s : Session) : Chain Effort Kept Unit :=
  match s.recipients with
  | [] => .finish ()
  | first :: _ =>
    (proxyPlan site first false).bind fun
      | .failed => .stop
      | .redirect [] => .stop
      | .redirect addresses => followPlan site addresses
      | .delivered _ => .finish ()

def remotePlan (c : CaseMap) (b : Backend) (s : Session) (a : Arrival) : Chain Effort Kept Unit :=
  if s.remoteRecipients = [] then .finish ()
  else if s.authUser ≠ [] ∧ s.mailFrom ≠ [] ∧ checkFromAlignment c s a.fromHeader ≠ none then .stop
  else if !b.smDelivery then .stop
  else enqueueAllPlan site s.remoteRecipients

-- What is tried for a message, in order, by both processes and the queue.
def dataPlan (c : CaseMap) (b : Backend) (s : Session) (a : Arrival) : Chain Effort Kept Unit :=
  if precheck b s ≠ none ∨ screen b (site.transaction (fun _ => .done) a) ≠ none ∨
      s.deferredInvalidRecipient ≠ [] ∨ a.msgid = none then .stop
  else (localPlan site s).bind fun _ => remotePlan site c b s a

end Plan

section Run

variable (site : Site) (failures : Failures)

lemma run_proxyPlan (recipient : Bytes) (forwarded : Bool) :
    (proxyPlan site recipient forwarded).run failures =
      ((site.proxyDeliver failures recipient forwarded).1.map .stored,
        match (site.proxyDeliver failures recipient forwarded).2 with
        | .failed => none
        | outcome => some outcome) := by
  unfold proxyPlan Site.proxyDeliver
  cases if forwarded then none else site.resolveForward recipient with
  | some rule =>
    obtain ⟨target, more⟩ := rule
    cases more <;> rfl
  | none =>
    dsimp only
    by_cases hs : (!site.deliverySession recipient) = true
    · rw [if_pos hs, if_pos hs]
      rfl
    rw [if_neg hs, if_neg hs, Chain.run_bind, Chain.run_relabel, Deliver.run_deliverPlan]
    simp only [Function.comp_def]
    cases Deliver.deliver (site.deliverer recipient forwarded) (fun n => failures (.write recipient forwarded n))
        ⟨recipient, forwarded⟩ (site.message recipient forwarded) with
    | mk copies response =>
      rcases response with _ | response
      · rfl
      · cases response <;> simp

lemma run_enqueuePlan (recipient : Bytes) : (enqueuePlan site recipient).run failures =
      if site.enqueues failures recipient then ([.queued recipient], some ()) else ([], none) := by
  unfold enqueuePlan Site.enqueues
  rcases site.queueAccepts recipient with _ | _
  · rfl
  · rw [if_pos rfl, Chain.run_single]
    cases failures (.enqueue recipient) <;> rfl

lemma run_enqueueAllPlan (recipients : List Bytes) : (enqueueAllPlan site recipients).run failures =
      ((recipients.takeWhile (site.enqueues failures)).map .queued,
        passed (recipients.all (site.enqueues failures))) := by
  induction recipients with
  | nil => rfl
  | cons recipient rest ih =>
    rw [enqueueAllPlan, Chain.run_bind, run_enqueuePlan, ih]
    by_cases ha : site.enqueues failures recipient = true
    · simp [ha]
    · simp [ha]

variable (a : Arrival) (s : Session) (msgid : Bytes)

lemma run_followPlan (targets : List Bytes) : (followPlan site targets).run failures =
      ((followRedirect s (site.transaction failures a) msgid targets).1.flatMap (site.kept failures),
        passed (followRedirect s (site.transaction failures a) msgid targets).2) := by
  induction targets with
  | nil => rfl
  | cons target rest ih =>
    rw [followPlan, followRedirect]
    rcases hi : site.validate target with _ | info
    · simp [Site.transaction, hi]
    dsimp only
    rw [Chain.run_bind, Chain.run_bind, Chain.run_single]
    cases hv : failures (.validate target) with
    | failed | late => simp [Site.transaction, hv, Step.run]
    | done =>
      have ha : (site.transaction failures a).validate target = some info := by
        simp [Site.transaction, hv, Step.run, hi]
      rw [ha]
      simp only [Step.run, Option.toList_none, ↓reduceIte, List.nil_append, targetPlan]
      by_cases hl : (!info.domainIsLocal) = true
      · rw [if_pos hl, if_pos hl, run_enqueuePlan, ih]
        by_cases hac : site.enqueues failures target = true
        · simp [hac, Site.transaction, Site.kept]
        · simp [hac, Site.transaction, Site.kept]
      · rw [if_neg hl, if_neg hl, Chain.run_bind, run_proxyPlan, ih]
        have hd : (site.transaction failures a).deliver target true =
            (site.proxyDeliver failures target true).2 := rfl
        cases ho : (site.proxyDeliver failures target true).2 <;> simp [hd, ho, Site.kept]

lemma run_localPlan : (localPlan site s).run failures =
      ((deliverLocal s (site.transaction failures a) msgid).1.flatMap (site.kept failures),
        passed (deliverLocal s (site.transaction failures a) msgid).2) := by
  have hn : ∀ (folder : Bytes) (recipients : List Bytes),
      (recipients.map fun r => Dispatch.notify r folder).flatMap (site.kept failures) = [] := by
    intro folder recipients
    simp [List.flatMap_map, Site.kept]
  unfold localPlan deliverLocal
  rcases hr : s.recipients with _ | ⟨first, rest⟩
  · rfl
  dsimp only
  rw [Chain.run_bind, run_proxyPlan]
  have hd : (site.transaction failures a).deliver first false =
      (site.proxyDeliver failures first false).2 := rfl
  cases ho : (site.proxyDeliver failures first false).2 with
  | failed => simp [hd, ho, Site.kept]
  | delivered folder => simp [hd, ho, Site.kept, hn]
  | redirect addresses =>
    cases addresses with
    | nil => simp [hd, ho, Site.kept]
    | cons target more => simp [hd, ho, Site.kept, run_followPlan site failures a s msgid]

lemma run_remotePlan (c : CaseMap) (b : Backend) : (remotePlan site c b s a).run failures =
      ((deliverRemote c b s (site.transaction failures a) msgid).1.flatMap (site.kept failures),
        (deliverRemote c b s (site.transaction failures a) msgid).2.toOption) := by
  have hq : (if !b.smDelivery then Chain.stop else enqueueAllPlan site s.remoteRecipients).run failures =
      ((enqueueRemote b s (site.transaction failures a) msgid).1.flatMap (site.kept failures),
        (enqueueRemote b s (site.transaction failures a) msgid).2.toOption) := by
    unfold enqueueRemote
    rcases b.smDelivery with _ | _
    · rfl
    simp only [Bool.not_true, Bool.false_eq_true, ↓reduceIte, run_enqueueAllPlan]
    by_cases hall : s.remoteRecipients.all (site.enqueues failures) = true
    · simp [Site.transaction, Site.kept, hall, Except.toOption]
    · simp [Site.transaction, Site.kept, hall, Except.toOption]
  unfold remotePlan deliverRemote
  by_cases hn : s.remoteRecipients = []
  · rw [if_pos hn, if_pos hn]
    rfl
  rw [if_neg hn, if_neg hn]
  by_cases ha : s.authUser ≠ [] ∧ s.mailFrom ≠ []
  · rw [if_pos ha]
    have hh : (site.transaction failures a).fromHeader = a.fromHeader := rfl
    rw [hh]
    rcases hal : checkFromAlignment c s a.fromHeader with _ | e
    · rw [if_neg (fun h => h.2.2 rfl)]
      exact hq
    · simp [ha.1, ha.2, Except.toOption]
  · rw [if_neg ha, if_neg fun h => ha ⟨h.1, h.2.1⟩]
    exact hq

lemma run_dataPlan (c : CaseMap) (b : Backend) : (dataPlan site c b s a).run failures =
      ((data c b s (site.transaction failures a)).1.flatMap (site.kept failures),
        (data c b s (site.transaction failures a)).2.toOption) := by
  have hs : screen b (site.transaction failures a) = screen b (site.transaction (fun _ => .done) a) := rfl
  unfold dataPlan data
  rw [hs]
  rcases precheck b s with _ | e
  · rcases screen b (site.transaction (fun _ => .done) a) with _ | e
    · dsimp only
      by_cases hd : s.deferredInvalidRecipient ≠ []
      · simp [hd, Except.toOption]
      rw [if_neg hd]
      have hid : (site.transaction failures a).msgid = a.msgid := rfl
      rw [hid]
      rcases a.msgid with _ | msgid
      · simp [Except.toOption]
      rw [if_neg (by simpa using hd), Chain.run_bind, run_localPlan site failures a s msgid]
      dsimp only
      unfold deliverAll
      obtain ⟨calls, ok⟩ := deliverLocal s (site.transaction failures a) msgid
      cases ok with
      | false => rfl
      | true =>
        simp only [passed_true, run_remotePlan site failures a s msgid c b, List.flatMap_append]
    · simp [Except.toOption]
  · simp [Except.toOption]

end Run

end Maildancer.Smtpd

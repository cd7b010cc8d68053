import Maildancer.Smtpd.NegativeReply

namespace Maildancer.Deliver

open List Text

variable {d : Deliverer} {attempt : Nat → Attempt} {req : DeliverRequest} {msg : Bytes} {addresses : List Bytes}

variable {outcome : SieveOutcome} {addr : Bytes}

lemma redirects_digestAction {action : Action}
    (h : addr ∈ (digestAction outcome action).redirects) : addr ∈ outcome.redirects ∨ action = .redirect addr := by
  cases action with
  | fileInto mailbox flags =>
    simp only [digestAction] at h
    split at h <;> exact .inl h
  | redirect address =>
    rcases mem_append.mp h with hold | hn
    · exact .inl hold
    · obtain rfl := mem_singleton.mp hn
      exact .inr rfl
  | keep _ | reject _ | discard => exact .inl h

lemma redirects_foldl {actions : List Action} (h : addr ∈ (actions.foldl digestAction outcome).redirects) :
    addr ∈ outcome.redirects ∨ Action.redirect addr ∈ actions := by
  induction actions generalizing outcome with
  | nil => exact .inl h
  | cons action rest ih =>
    rcases ih h with hd | hr
    · rcases redirects_digestAction hd with hold | rfl
      · exact .inl hold
      · exact .inr mem_cons_self
    · exact .inr (mem_cons_of_mem _ hr)

lemma redirects_digestActions {data : RuntimeData} (h : addr ∈ (digestActions data).redirects) :
    Action.redirect addr ∈ data.appliedActions := by
  have hf : addr ∈ (data.appliedActions.foldl digestAction ⟨[], [], false, [], []⟩).redirects := by
    unfold digestActions at h
    dsimp only at h
    split at h <;> exact h
  exact (redirects_foldl hf).resolve_left not_mem_nil

lemma runSieve_allowed (h : runSieve d req = some outcome)
    (ha : addr ∈ outcome.redirects) : redirectAllowed d.folding d.parses req addr = true := by
  obtain ⟨data, hd, rfl⟩ := Option.map_eq_some_iff.mp h
  obtain ⟨script, -, he⟩ := Option.bind_eq_some_iff.mp hd
  exact script.obeys _ data addr he (redirects_digestActions ha)

lemma runSieve_forwarded (hf : req.forwarded = true)
    (h : runSieve d req = some outcome) : outcome.redirects = [] := by
  refine eq_nil_iff_forall_not_mem.mpr fun addr ha => ?_
  have hal := runSieve_allowed h ha
  rw [redirectAllowed, hf] at hal
  cases hal

lemma deliver_forwarded (hf : req.forwarded = true) :
    (deliver d attempt req msg).2 ≠ some (.redirected addresses) := by
  intro h
  rw [← run_deliverPlan] at h
  obtain ⟨outcome, hs, hr, -⟩ := deliverPlan_scripted d (Chain.result_of_run h)
  exact hr (runSieve_forwarded hf hs)

end Maildancer.Deliver

namespace Maildancer.Smtpd

open Text

-- The recipients of a delivery or an enqueueing, and whether it is a forward.
def Dispatch.routed : Dispatch → Option (List Bytes × Bool)
  | .deliver _ recipient forwarded _ => some ([recipient], forwarded)
  | .enqueue _ recipients forwarded _ => some (recipients, forwarded)
  | .notify _ _ => none

-- Data follows a redirect of its first recipient only.
def Site.firstTargets (site : Site) (failures : Failures) (s : Session) : List Bytes :=
  match s.recipients with
  | [] => []
  | first :: _ =>
    match (site.proxyDeliver failures first false).2 with
    | .redirect addresses => addresses
    | _ => []

lemma proxyDeliver_forwarded (site : Site) (failures : Failures) (recipient : Bytes) (addresses : List Bytes) :
    (site.proxyDeliver failures recipient true).2 ≠ .redirect addresses := by
  intro h
  simp only [Site.proxyDeliver, if_true] at h
  split_ifs at h with hs
  cases hd : Deliver.deliver (site.deliverer recipient true) (fun n => failures _)
      ⟨recipient, true⟩ _ with
  | mk copies response =>
    rw [hd] at h
    rcases response with _ | response
    · cases h
    cases response with
    | delivered folder | rejected temporary reason => cases h
    | redirected targets =>
      exact Deliver.deliver_forwarded rfl (congrArg Prod.snd hd)

section Calls

variable (s : Session) (t : Transaction) (msgid : Bytes)

lemma routed_followRedirect (targets : List Bytes) :
    (followRedirect s t msgid targets).1.filterMap Dispatch.routed <+: targets.map fun target => ([target], true) := by
  induction targets with
  | nil => exact List.prefix_refl _
  | cons target rest ih =>
    have ho : [([target], true)] <+: (target :: rest).map fun target => ([target], true) :=
      List.prefix_append [([target], true)] _
    have hm := (List.prefix_cons_inj ([target], true)).mpr ih
    rw [followRedirect]
    rcases t.validate target with _ | info
    · exact List.nil_prefix
    dsimp only
    by_cases hr : (!info.domainIsLocal) = true
    · rw [if_pos hr]
      by_cases he : t.enqueue [target] = true
      · rw [if_pos he]
        exact hm
      · rw [if_neg he]
        exact ho
    · rw [if_neg hr]
      cases t.deliver target true with
      | delivered folder => exact hm
      | redirect addresses | failed => exact ho

lemma routed_notify (recipients : List Bytes) (folder : Bytes) :
    (recipients.map fun r => Dispatch.notify r folder).filterMap Dispatch.routed = [] := by
  simp [List.filterMap_map, Function.comp_def, Dispatch.routed]

lemma routed_deliverLocal (site : Site) (failures : Failures) (a : Arrival) {first : Bytes} {rest : List Bytes}
    (h : s.recipients = first :: rest) :
    (deliverLocal s (site.transaction failures a) msgid).1.filterMap Dispatch.routed <+:
      ([first], false) :: (site.firstTargets failures s).map fun target => ([target], true) := by
  have ha : (site.transaction failures a).deliver first false = (site.proxyDeliver failures first false).2 := rfl
  have ho : ∀ targets : List Bytes,
      [([first], false)] <+: ([first], false) :: targets.map fun target => ([target], true) :=
    fun targets => List.prefix_append [([first], false)] _
  unfold deliverLocal Site.firstTargets
  rw [h]
  dsimp only
  rw [ha]
  cases (site.proxyDeliver failures first false).2 with
  | failed => exact ho []
  | delivered folder =>
    rw [List.filterMap_cons, routed_notify]
    exact ho []
  | redirect addresses =>
    cases addresses with
    | nil => exact ho []
    | cons target more =>
      exact (List.prefix_cons_inj ([first], false)).mpr (routed_followRedirect s _ msgid _)

lemma routed_enqueueRemote (b : Backend) :
    (enqueueRemote b s t msgid).1.filterMap Dispatch.routed <+: [(s.remoteRecipients, false)] := by
  unfold enqueueRemote
  split
  · exact List.nil_prefix
  · exact List.prefix_refl _

lemma routed_deliverRemote (c : CaseMap) (b : Backend) :
    (deliverRemote c b s t msgid).1.filterMap Dispatch.routed <+: [(s.remoteRecipients, false)] := by
  have hq := routed_enqueueRemote s t msgid b
  unfold deliverRemote
  by_cases hn : s.remoteRecipients = []
  · rw [if_pos hn]
    exact List.nil_prefix
  rw [if_neg hn]
  by_cases ha : s.authUser ≠ [] ∧ s.mailFrom ≠ []
  · rw [if_pos ha]
    rcases checkFromAlignment c s t.fromHeader with _ | e
    · exact hq
    · exact List.nil_prefix
  · rw [if_neg ha]
    exact hq

end Calls

lemma routed_deliverAll (c : CaseMap) (b : Backend) {s : Session} (ho : OneRecipient s) (site : Site)
    (failures : Failures) (a : Arrival) (msgid : Bytes) :
    (deliverAll c b s (site.transaction failures a) msgid).1.filterMap Dispatch.routed <+:
      (s.recipients ++ s.remoteRecipients, false) ::
        (site.firstTargets failures s).map fun target => ([target], true) := by
  have hr := routed_deliverRemote s (site.transaction failures a) msgid c b
  rcases hre : s.recipients with _ | ⟨first, rest⟩
  · have ht : site.firstTargets failures s = [] := by
      unfold Site.firstTargets
      rw [hre]
    have hl : deliverLocal s (site.transaction failures a) msgid = ([], true) := by
      unfold deliverLocal
      rw [hre]
    rw [deliverAll, hl, ht]
    exact hr
  · have hl := routed_deliverLocal s msgid site failures a hre
    obtain ⟨hrs, hn⟩ : rest = [] ∧ s.remoteRecipients = [] := by
      simp only [OneRecipient, hre, List.length_cons] at ho
      exact ⟨List.eq_nil_of_length_eq_zero (by omega), List.eq_nil_of_length_eq_zero (by omega)⟩
    rw [hrs, hn, List.append_nil]
    unfold deliverAll
    rcases hc : deliverLocal s (site.transaction failures a) msgid with ⟨calls, ok⟩
    rw [hc] at hl
    cases ok with
    | false => exact hl
    | true =>
      dsimp only
      rw [deliverRemote, if_pos hn, List.append_nil]
      exact hl

lemma routed_data (c : CaseMap) (b : Backend) {s : Session} (ho : OneRecipient s) (site : Site)
    (failures : Failures) (a : Arrival) :
    (data c b s (site.transaction failures a)).1.filterMap Dispatch.routed <+:
      (s.recipients ++ s.remoteRecipients, false) ::
        (site.firstTargets failures s).map fun target => ([target], true) := by
  unfold data
  rcases precheck b s with _ | e
  · rcases screen b (site.transaction failures a) with _ | e
    · by_cases hd : s.deferredInvalidRecipient ≠ []
      · rw [if_pos hd]
        exact List.nil_prefix
      rw [if_neg hd]
      cases (site.transaction failures a).msgid with
      | none => exact List.nil_prefix
      | some msgid => exact routed_deliverAll c b ho site failures a msgid
    · exact List.nil_prefix
  · exact List.nil_prefix

-- Data sends the message on itself and then makes one forward to each target. A forward is never
-- redirected.
theorem forwarding_is_one_hop {c : CaseMap} {b : Backend} {s : Session}
    (h : Reaches (step c b) (fun _ _ => True) Session.new s) (site : Site) (failures : Failures) (a : Arrival) :
    (data c b s (site.transaction failures a)).1.filterMap Dispatch.routed <+:
        (s.recipients ++ s.remoteRecipients, false) ::
          (site.firstTargets failures s).map (fun target => ([target], true)) ∧
      ((data c b s (site.transaction failures a)).1.filterMap Dispatch.routed).length ≤
        1 + (site.firstTargets failures s).length ∧
      ∀ recipient addresses, (site.proxyDeliver failures recipient true).2 ≠ .redirect addresses := by
  have ho : OneRecipient s := h.invariant (Nat.zero_le 1) fun _ _ _ hs _ hst => hs.step hst
  have hc := routed_data c b ho site failures a
  refine ⟨hc, ?_, proxyDeliver_forwarded site failures⟩
  have hl := hc.length_le
  rw [List.length_cons, List.length_map] at hl
  omega

-- Two users who forward to each other.
def loopSite : Site := { simpleSite none with
  resolveForward := fun recipient =>
    if recipient = aliceAddress then some (ascii "carol@a.org", [])
    else if recipient = ascii "carol@a.org" then some (aliceAddress, [])
    else none }

theorem forwarding_is_one_hop_loop :
    Reaches (step CaseMap.asciiOnly deliveringBackend) (fun _ _ => True) Session.new aliceSession ∧
    loopSite.firstTargets (fun _ => .done) aliceSession = [ascii "carol@a.org"] ∧
    (data CaseMap.asciiOnly deliveringBackend aliceSession
      (loopSite.transaction (fun _ => .done) aliceArrival)).1.filterMap
      Dispatch.routed = [([aliceAddress], false), ([ascii "carol@a.org"], true)] ∧
    ((data CaseMap.asciiOnly deliveringBackend aliceSession
      (loopSite.transaction (fun _ => .done) aliceArrival)).1.filterMap Dispatch.routed).length ≤
        1 + (loopSite.firstTargets (fun _ => .done) aliceSession).length :=
  ⟨reaches_aliceSession, by decide +kernel, by decide +kernel,
    (forwarding_is_one_hop reaches_aliceSession loopSite (fun _ => .done) aliceArrival).2.1⟩

end Maildancer.Smtpd

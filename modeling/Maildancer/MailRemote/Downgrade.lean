import Maildancer.MailRemote.Checker
import Maildancer.MailRemote.Failover

namespace Maildancer.MailRemote

open Text

lemma dialMXStrict_verified {lines : Nat → Line} {addr : Bytes} {conn : Connection}
    (h : dialMXStrict lines addr = .ok conn) : conn.channel = .verified := by
  unfold dialMXStrict at h
  split at h
  · cases h
  split at h
  · cases h
  unfold greet at h
  split at h
  · cases h
  · cases h
    rfl

lemma tried_selected {w : World} {req : Request} {dialer : Dialer} {bodySize : Nat} (selected : List Host)
    (envs : List Envelope) :
    ∀ a ∈ (tryHosts w req dialer bodySize selected (.start envs)).tried, a.host ∈ selected ∧ a.dialer = dialer ∧
      ∀ channel, dialer = .dialMXStrict → a.contact = .connected channel → channel = .verified := by
  apply tryHosts_rule (P := fun s => ∀ a ∈ s.tried, a.host ∈ selected ∧ a.dialer = dialer ∧
    ∀ channel, dialer = .dialMXStrict → a.contact = .connected channel → channel = .verified)
  · intro a ha
    cases ha
  intro s h hh _ hs
  have hadd : ∀ contact, (∀ channel, dialer = .dialMXStrict → contact = .connected channel → channel = .verified) →
      ∀ a ∈ s.tried ++ [⟨h, dialer, contact⟩], a.host ∈ selected ∧ a.dialer = dialer ∧
        ∀ channel, dialer = .dialMXStrict → a.contact = .connected channel → channel = .verified := by
    intro contact hc a ha
    rcases List.mem_append.mp ha with ha | ha
    · exact hs a ha
    · obtain rfl := List.mem_singleton.mp ha
      exact ⟨hh, rfl, hc⟩
  apply tryHost_cases (P := fun t => ∀ a ∈ t.tried, a.host ∈ selected ∧ a.dialer = dialer ∧
    ∀ channel, dialer = .dialMXStrict → a.contact = .connected channel → channel = .verified)
  · intro _ _
    apply hadd
    intro channel _ heq
    cases heq
  · intro _ _ _ _
    apply hadd
    intro channel _ heq
    cases heq
  · intro conn _ hd _ _
    apply hadd
    intro channel hst heq
    rw [hst] at hd
    rw [← Contact.connected.inj heq]
    exact dialMXStrict_verified hd

lemma enforced_tried {c : CaseMap} {w : World} {req : Request} {policy : Policy}
    (hp : req.policy = some policy) (he : policy.mode = .enforce) :
    ∀ a ∈ (deliverViaMX c w req).tried, policy.mxMatches c a.host.name = true ∧ a.dialer = .dialMXStrict ∧
      ∀ channel, a.contact = .connected channel → channel = .verified := by
  intro a ha
  rcases deliverViaMX_cases c w req with ⟨err, -, hr⟩ | ⟨hosts, err, -, -, -, hr⟩ |
    ⟨hosts, selected, dialer, bodySize, -, hs, -, hr⟩
  · rw [hr] at ha
    cases ha
  · rw [hr] at ha
    cases ha
  rw [hr] at ha
  simp only [selectHosts, hp, he, if_true] at hs
  split_ifs at hs
  cases hs
  obtain ⟨hh, hd, hv⟩ := tried_selected _ _ a ha
  exact ⟨(List.mem_filter.mp hh).2, hd, fun channel => hv channel rfl⟩

section Sample

def txtRecord (id : String) : Bytes := ascii "v=STSv1; id=" ++ ascii id

def policyBody (mode age : String) : Bytes :=
  ascii "version: STSv1\nmode: " ++ ascii mode ++ ascii "\nmx: *.example.net\nmax_age: " ++ ascii age ++ ascii "\n"

def fetchCall (id mode age : String) (time : Int) : Call :=
  ⟨ascii "example.net", some [txtRecord id], .ok (policyBody mode age), time, time⟩

def blockedCall (time : Int) : Call := ⟨ascii "EXAMPLE.NET", none, .error (ascii "blocked"), time, time⟩

def weekPolicy : Policy := ⟨.enforce, [ascii "*.example.net"], 604800⟩

def weekCall : Call := fetchCall "1" "enforce" "604800" 0

end Sample

end Maildancer.MailRemote

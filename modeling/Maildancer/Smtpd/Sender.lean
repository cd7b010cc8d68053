import Maildancer.Smtpd
import Maildancer.Transition

namespace Maildancer.Smtpd

open List Text

section Data

variable {c : CaseMap} {b : Backend} {s : Session} {t : Transaction} {sender msgid : Bytes}
  {recipients : List Bytes}

lemma followRedirect_forwarded (id : Bytes) (targets : List Bytes) :
    Dispatch.enqueue sender recipients false msgid ∉ (followRedirect s t id targets).1 := by
  induction targets with
  | nil => simp [followRedirect]
  | cons target rest ih =>
    simp only [followRedirect]
    rcases t.validate target with _ | info
    · simp
    dsimp only
    split_ifs
    · simpa using ih
    · simp
    · cases t.deliver target true with
      | delivered folder => simpa using ih
      | redirect addresses | failed => simp

lemma deliverLocal_forwarded (id : Bytes) :
    Dispatch.enqueue sender recipients false msgid ∉ (deliverLocal s t id).1 := by
  unfold deliverLocal
  split
  · simp
  rename_i first rest _
  cases t.deliver first false with
  | failed | delivered folder => simp
  | redirect addresses =>
    cases addresses with
    | nil => simp
    | cons target rest => simpa using followRedirect_forwarded id _

lemma mem_enqueueRemote {id : Bytes}
    (h : Dispatch.enqueue sender recipients false msgid ∈ (enqueueRemote b s t id).1) :
    sender = s.mailFrom := by
  unfold enqueueRemote at h
  split_ifs at h
  · exact absurd h not_mem_nil
  · simp only [mem_singleton, Dispatch.enqueue.injEq] at h
    exact h.1
  · simp only [mem_singleton, Dispatch.enqueue.injEq] at h
    exact h.1

lemma mem_deliverRemote {id : Bytes}
    (h : Dispatch.enqueue sender recipients false msgid ∈ (deliverRemote c b s t id).1) :
    s.remoteRecipients ≠ [] ∧ sender = s.mailFrom := by
  unfold deliverRemote at h
  split_ifs at h with hr hc
  · exact absurd h not_mem_nil
  · rcases ha : checkFromAlignment c s t.fromHeader with _ | e
    · rw [ha] at h
      exact ⟨hr, mem_enqueueRemote h⟩
    · simp [ha] at h
  · exact ⟨hr, mem_enqueueRemote h⟩

lemma mem_deliverAll {id : Bytes}
    (h : Dispatch.enqueue sender recipients false msgid ∈ (deliverAll c b s t id).1) :
    s.remoteRecipients ≠ [] ∧ sender = s.mailFrom := by
  have hl : Dispatch.enqueue sender recipients false msgid ∉ (deliverLocal s t id).1 :=
    deliverLocal_forwarded id
  unfold deliverAll at h
  rcases hc : deliverLocal s t id with ⟨calls, ok⟩
  rw [hc] at h hl
  rcases ok with _ | _
  · exact absurd h hl
  · rcases mem_append.mp h with h | h
    · exact absurd h hl
    · exact mem_deliverRemote h

lemma mem_data (h : Dispatch.enqueue sender recipients false msgid ∈ (data c b s t).1) :
    s.mailFromSeen = true ∧ s.remoteRecipients ≠ [] ∧ sender = s.mailFrom := by
  unfold data at h
  split at h
  · exact absurd h not_mem_nil
  · exact absurd h not_mem_nil
  rename_i hp _
  have hs : s.mailFromSeen = true := by
    cases hs : s.mailFromSeen with
    | true => rfl
    | false => simp [precheck, hs] at hp
  split_ifs at h
  · exact absurd h not_mem_nil
  rcases hid : t.msgid with _ | id
  · simp [hid] at h
  · simp only [hid] at h
    exact ⟨hs, mem_deliverAll h⟩

end Data

-- Whoever has remote recipients pending is logged in, and a pending sender is one the login may use.
structure Verified (c : CaseMap) (s : Session) : Prop where
  relay : s.remoteRecipients ≠ [] → s.authUser ≠ []
  sender : s.mailFromSeen = true → s.authUser ≠ [] → senderMatches c s.mailFrom s.authUser

-- A login does not come between MAIL FROM and DATA with a sender that is not
-- its own, nor does one without a mailbox while remote recipients are pending.
def Proper (c : CaseMap) (s : Session) : Callback → Prop
  | .auth (.ok result) =>
    (result.mailbox = [] → s.remoteRecipients = []) ∧
      (result.mailbox ≠ [] → s.mailFromSeen = true → senderMatches c s.mailFrom result.mailbox)
  | _ => True

namespace Verified

variable {c : CaseMap} {b : Backend} {s : Session}

lemma new : Verified c Session.new where
  relay := by simp [Session.new]
  sender := by simp [Session.new]

lemma auth {login : Except LoginError LoginResult} (h : Verified c s)
    (hp : Proper c s (.auth login)) : Verified c (auth b s login).1 := by
  unfold Smtpd.auth
  split_ifs
  · exact h
  rcases login with e | result
  · exact h
  · refine ⟨fun hr he => ?_, fun hs hu => hp.2 hu hs⟩
    exact hr (hp.1 he)

lemma mail {sender : Bytes} {allowed : Bool} (h : Verified c s) :
    Verified c (mail c b s sender allowed).1 := by
  unfold Smtpd.mail
  split_ifs with hr hs
  · exact h
  · exact h
  · refine ⟨h.relay, fun _ hu => ?_⟩
    by_contra hno
    exact hs ⟨hu, hno⟩

lemma acceptRecipient {recipient : Bytes} {info : RecipientInfo} (h : Verified c s) :
    Verified c (Smtpd.acceptRecipient s recipient info).1 := by
  unfold Smtpd.acceptRecipient
  split_ifs with _ hu
  · exact h
  · exact ⟨fun _ => hu, h.sender⟩
  · exact ⟨h.relay, h.sender⟩
  · exact h
  · exact ⟨h.relay, h.sender⟩

lemma rcpt {recipient : Bytes} {answer : Option RecipientInfo} (h : Verified c s) :
    Verified c (rcpt c b s recipient answer).1 := by
  unfold Smtpd.rcpt
  split_ifs
  · exact h
  · exact h
  · exact ⟨h.relay, h.sender⟩
  · rcases answer with _ | info
    · exact h
    · exact h.acceptRecipient

lemma reset : Verified c (reset s) where
  relay := by simp [Smtpd.reset, Session.new]
  sender := by simp [Smtpd.reset, Session.new]

lemma step {call : Callback} {t : Session} (h : Verified c s) (hp : Proper c s call)
    (hs : step c b s call = some t) : Verified c t := by
  cases call with
  | auth login => exact Option.some.inj hs ▸ h.auth hp
  | mail sender allowed => exact Option.some.inj hs ▸ h.mail
  | rcpt recipient answer => exact Option.some.inj hs ▸ h.rcpt
  | data t => exact Option.some.inj hs ▸ h
  | reset => exact Option.some.inj hs ▸ reset

end Verified

theorem enqueue_sender_verified {c : CaseMap} {b : Backend} {s : Session}
    (h : Reaches (step c b) (Proper c) Session.new s) (t : Transaction) (sender msgid : Bytes)
    (recipients : List Bytes) : Dispatch.enqueue sender recipients false msgid ∈ (data c b s t).1 →
      s.authUser ≠ [] ∧ senderMatches c sender s.authUser := by
  intro hc
  have hv := h.invariant Verified.new fun _ _ _ hs hp hst =>
    hs.step hp hst
  obtain ⟨hse, hr, rfl⟩ := mem_data hc
  have hu := hv.relay hr
  exact ⟨hu, hv.sender hse hu⟩

def openBackend : Backend := ⟨true, false, 0, false, .failOpen, 0, 0⟩

def remoteInfo : RecipientInfo := ⟨false, false, false⟩

def aliceLogin : LoginResult := ⟨ascii "alice@example.org", 0⟩

def plainTransaction (sender : Bytes) : Transaction where
  readFails := false
  spamCheck := none
  msgid := some (List.replicate 32 97)
  deliver := fun _ _ => .failed
  validate := fun _ => none
  fromHeader := .addresses sender []
  enqueue := fun _ => true

-- The login comes after MAIL FROM.
def lateLogin : List Callback :=
  [.mail (ascii "mallory@example.net") true, .auth (.ok aliceLogin),
    .rcpt (ascii "bob@example.com") (some remoteInfo)]

def earlyLogin : List Callback :=
  [.auth (.ok aliceLogin), .mail (ascii "alice@example.org") true,
    .rcpt (ascii "bob@example.com") (some remoteInfo)]

theorem late_login_sends_as_other :
    ∃ s, Reaches (step CaseMap.asciiOnly openBackend) (fun _ _ => True) Session.new s ∧
      Dispatch.enqueue (ascii "mallory@example.net") [ascii "bob@example.com"] false
          (List.replicate 32 97) ∈
        (data CaseMap.asciiOnly openBackend s (plainTransaction (ascii "mallory@example.net"))).1 ∧
      ¬ senderMatches CaseMap.asciiOnly (ascii "mallory@example.net") s.authUser := by
  have hr : runSteps (step CaseMap.asciiOnly openBackend) Session.new lateLogin = some
      ⟨ascii "mallory@example.net", true, [], [ascii "bob@example.com"], ascii "alice@example.org",
        some aliceLogin, []⟩ := rfl
  exact ⟨_, Reaches.of_runSteps (fun _ _ _ => trivial) hr, by decide +kernel, by decide +kernel⟩

theorem enqueue_sender_verified_early_login :
    ∃ s, runSteps (step CaseMap.asciiOnly openBackend) Session.new earlyLogin = some s ∧
      Dispatch.enqueue (ascii "alice@example.org") [ascii "bob@example.com"] false
          (List.replicate 32 97) ∈
        (data CaseMap.asciiOnly openBackend s (plainTransaction (ascii "alice@example.org"))).1 ∧
      s.authUser ≠ [] ∧ senderMatches CaseMap.asciiOnly (ascii "alice@example.org") s.authUser := by
  have hl : Reaches (step CaseMap.asciiOnly openBackend) (Proper CaseMap.asciiOnly) Session.new
      { Session.new with authUser := aliceLogin.mailbox, loginResult := some aliceLogin } :=
    Reaches.refl.tail (.auth (.ok aliceLogin)) ⟨fun _ => rfl, by decide⟩ rfl
  have hr : runSteps (step CaseMap.asciiOnly openBackend)
      { Session.new with authUser := aliceLogin.mailbox, loginResult := some aliceLogin }
      (earlyLogin.drop 1) = some ⟨ascii "alice@example.org", true, [], [ascii "bob@example.com"],
        ascii "alice@example.org", some aliceLogin, []⟩ := rfl
  have hs : Dispatch.enqueue (ascii "alice@example.org") [ascii "bob@example.com"] false
      (List.replicate 32 97) ∈ (data CaseMap.asciiOnly openBackend ⟨ascii "alice@example.org", true,
        [], [ascii "bob@example.com"], ascii "alice@example.org", some aliceLogin, []⟩
        (plainTransaction (ascii "alice@example.org"))).1 := by
    decide +kernel
  refine ⟨_, hr, hs, enqueue_sender_verified (hl.trans (Reaches.of_runSteps ?_ hr)) _ _
    _ _ hs⟩
  intro s a ha
  simp only [earlyLogin, drop_succ_cons, drop_zero, mem_cons, not_mem_nil,
    or_false] at ha
  rcases ha with rfl | rfl <;> trivial

end Maildancer.Smtpd

import Maildancer.Address
import Maildancer.Scheduler
import Maildancer.Smtpd

namespace Maildancer.Address

open List Text Queue Auth

def baseOf (localPart : Bytes) : Bytes := (parseLocalPart localPart).1

-- A pair without the extension of its local part and the case of its domain.
def normal (c : CaseMap) (parts : Bytes × Bytes) : Bytes × Bytes := (baseOf parts.1, c.lower parts.2)

-- What every component takes an address for. The SMTP server and the queue
-- lower the domain themselves; the session-manager cuts at the first at sign to
-- validate a recipient, to resolve its forwards and to spawn its delivery.
structure SplitAs (c : CaseMap) (addr base domain : Bytes) : Prop where
  extractDomain : Smtpd.extractDomain c addr = domain
  manager : (cut atSign addr).map (normal c) = some (base, domain)
  splitUsername : normal c (splitUsername addr) = (base, domain)
  deliverer : normal c (Deliver.splitAddress addr) = (base, domain)
  parseRecipient : normal c (Msgstore.splitEmail (Msgstore.parseRecipient addr).address) = (base, domain)
  queue : (baseOf (splitAddress c addr).1, (splitAddress c addr).2) = (base, domain)
  recipientDomain : ∀ env : QueueEnvelope, env.recipient = addr →
    (Scheduler.recipientDomain env).map c.lower = some domain

def Plain (addr : Bytes) : Prop :=
  addr.count atSign = 1 ∧ hasPrefix (ascii "<") addr = false ∧ hasSuffix (ascii ">") addr = false

instance (addr : Bytes) : Decidable (Plain addr) := inferInstanceAs (Decidable (_ ∧ _))

lemma baseOf_bracket (localPart : Bytes) : baseOf (60 :: localPart) = 60 :: baseOf localPart := by
  have hne : (60 : UInt8) ≠ plusSign := by decide
  simp only [baseOf, parseLocalPart, cut, hne, ite_false]
  cases cut plusSign localPart with
  | none | some parts => rfl

lemma baseOf_baseOf (localPart : Bytes) : baseOf (baseOf localPart) = baseOf localPart := by
  unfold baseOf parseLocalPart
  rcases hc : cut plusSign localPart with _ | parts
  · simp [hc]
  · obtain ⟨-, hf⟩ := cut_eq_some.mp (show cut plusSign localPart = some (parts.1, parts.2) from hc)
    simp [cut_eq_none hf]

lemma unbracket_parts (localPart domain : Bytes) : unbracket (localPart ++ atSign :: domain) =
      trimPrefix (ascii "<") localPart ++ atSign :: trimSuffix (ascii ">") domain := by
  have hf : trimPrefix (ascii "<") (localPart ++ atSign :: domain) =
      trimPrefix (ascii "<") localPart ++ atSign :: domain := by
    rw [show ascii "<" = [60] from rfl, trimPrefix_byte, trimPrefix_byte]
    cases localPart with
    | nil => rfl
    | cons b rest =>
      by_cases hb : b = 60
      · simp [hb]
      · simp [hb]
  have hba : ∀ front : Bytes, trimSuffix (ascii ">") (front ++ atSign :: domain) =
      front ++ atSign :: trimSuffix (ascii ">") domain := by
    intro front
    rw [show ascii ">" = [62] from rfl, trimSuffix_byte, trimSuffix_byte]
    obtain rfl | ⟨init, last, rfl⟩ := eq_nil_or_concat domain
    · simp [atSign]
    rw [concat_eq_append, ← cons_append, ← append_assoc]
    by_cases hb : last = 62
    · rw [if_pos (by rw [List.getLast?_concat, hb]), if_pos (by rw [List.getLast?_concat, hb]),
        dropLast_concat, dropLast_concat]
    · have hl : some last ≠ some (62 : UInt8) := fun h => hb (Option.some.inj h)
      rw [if_neg (by rw [List.getLast?_concat]; exact hl),
        if_neg (by rw [List.getLast?_concat]; exact hl), append_assoc, cons_append]
  unfold unbracket
  rw [hf, hba]

variable {localPart domain addr : Bytes}

lemma count_eq_one (hl : atSign ∉ localPart) (hd : atSign ∉ domain) :
    (localPart ++ atSign :: domain).count atSign = 1 := by
  rw [count_append, count_cons_self, count_eq_zero_of_not_mem hl, count_eq_zero_of_not_mem hd]

lemma parts_of_count (hc : addr.count atSign = 1) :
    ∃ localPart domain, addr = localPart ++ atSign :: domain ∧ atSign ∉ localPart ∧ atSign ∉ domain := by
  have hm : atSign ∈ addr := count_pos_iff.mp (by omega)
  obtain ⟨localPart, domain, rfl⟩ := append_of_mem hm
  rw [count_append, count_cons_self] at hc
  refine ⟨localPart, domain, rfl, count_eq_zero.mp (by omega), count_eq_zero.mp (by omega)⟩

variable {c : CaseMap} {b : Smtpd.Backend} {s : Smtpd.Session}
  {answer : Option Smtpd.RecipientInfo} {base after : Bytes}

lemma extractDomain_of_accepted (h : (Smtpd.rcpt c b s addr answer).2 = .ok ()) :
    Smtpd.extractDomain c addr ≠ [] := by
  intro he
  unfold Smtpd.rcpt at h
  split_ifs at h

lemma mem_of_accepted (h : (Smtpd.rcpt c b s addr answer).2 = .ok ()) : atSign ∈ addr := by
  have hd := extractDomain_of_accepted h
  unfold Smtpd.extractDomain at hd
  rcases hc : cutLast 64 (unbracket addr) with _ | parts
  · simp [hc] at hd
  · obtain ⟨heq, -⟩ := cutLast_eq_some.mp (show cutLast 64 _ = some (parts.1, parts.2) from hc)
    have hm : (64 : UInt8) ∈ unbracket addr := by rw [heq]; simp
    exact mem_of_mem_trimPrefix (mem_of_mem_trimSuffix hm)

lemma SplitAs.single {c : RuneCase} (hmem : atSign ∈ addr) (h : SplitAs c.toCaseMap addr base domain) :
    ∃ localPart after, addr = localPart ++ atSign :: after ∧ atSign ∉ localPart ∧ atSign ∉ after := by
  obtain ⟨front, after, hf⟩ := exists_cut hmem
  obtain ⟨before, tail, hl⟩ := exists_cutLast hmem
  obtain ⟨heq, hfr⟩ := cut_eq_some.mp hf
  refine ⟨front, after, heq, hfr, ?_⟩
  intro ha
  obtain ⟨middle, rfl⟩ := cut_cutLast hf hl ha
  have hm : c.lower (middle ++ atSign :: tail) = domain := by
    have := h.manager
    rw [hf] at this
    exact congrArg Prod.snd (Option.some.inj this)
  have hr : c.lower tail = domain := by
    have := h.splitUsername
    rw [Auth.splitUsername, hl] at this
    exact congrArg Prod.snd this
  rw [c.lower_around middle atSign tail (by decide), ← hr] at hm
  have hle := congrArg List.length hm
  simp only [length_append, length_cons] at hle
  omega

lemma extractDomain_parts (c : CaseMap) (hd : atSign ∉ domain) :
    Smtpd.extractDomain c (localPart ++ atSign :: domain) = c.lower (trimSuffix (ascii ">") domain) := by
  have hc := cutLast_eq_some.mpr ⟨unbracket_parts localPart domain, fun hm => hd (mem_of_mem_trimSuffix hm)⟩
  unfold Smtpd.extractDomain
  rw [show (64 : UInt8) = atSign from rfl, hc]

lemma queue_splitAddress_parts (c : CaseMap) (hd : atSign ∉ domain) :
    splitAddress c (localPart ++ atSign :: domain) =
      (trimPrefix (ascii "<") localPart, c.lower (trimSuffix (ascii ">") domain)) := by
  have hc := cutLast_eq_some.mpr ⟨unbracket_parts localPart domain, fun hm => hd (mem_of_mem_trimSuffix hm)⟩
  unfold splitAddress
  rw [hc]

lemma hasPrefix_parts (localPart domain : Bytes) :
    hasPrefix (ascii "<") (localPart ++ atSign :: domain) = hasPrefix (ascii "<") localPart := by
  rw [show ascii "<" = [60] from rfl, hasPrefix_byte, hasPrefix_byte]
  cases localPart with
  | nil | cons b rest => rfl

lemma hasSuffix_parts (localPart domain : Bytes) :
    hasSuffix (ascii ">") (localPart ++ atSign :: domain) = hasSuffix (ascii ">") domain := by
  rw [show ascii ">" = [62] from rfl, hasSuffix_byte, hasSuffix_byte]
  cases domain with
  | nil => simp [atSign]
  | cons b rest => simp [List.getLast?_append, List.getLast?_cons_cons]

lemma SplitAs.front (hl : atSign ∉ localPart) (ha : atSign ∉ after)
    (h : SplitAs c (localPart ++ atSign :: after) base domain) : hasPrefix (ascii "<") localPart = false := by
  have hm : baseOf localPart = base := by
    have := h.manager
    rw [cut_eq_some.mpr ⟨rfl, hl⟩] at this
    exact congrArg Prod.fst (Option.some.inj this)
  have hq : baseOf (trimPrefix (ascii "<") localPart) = base := by
    have := h.queue
    rw [queue_splitAddress_parts c ha] at this
    exact congrArg Prod.fst this
  rw [Bool.eq_false_iff]
  intro hh
  obtain ⟨rest, rfl⟩ := isPrefixOf_iff_prefix.mp hh
  rw [trimPrefix, if_pos hh, drop_left] at hq
  rw [show ascii "<" ++ rest = 60 :: rest from rfl, baseOf_bracket, ← hq] at hm
  have hle := congrArg List.length hm
  simp at hle

lemma SplitAs.back {c : RuneCase} (hl : atSign ∉ localPart) (ha : atSign ∉ after)
    (h : SplitAs c.toCaseMap (localPart ++ atSign :: after) base domain) :
    hasSuffix (ascii ">") after = false := by
  have hm : c.lower after = domain := by
    have := h.manager
    rw [cut_eq_some.mpr ⟨rfl, hl⟩] at this
    exact congrArg Prod.snd (Option.some.inj this)
  have hs := h.extractDomain
  rw [extractDomain_parts _ ha] at hs
  rw [Bool.eq_false_iff]
  intro ht
  obtain ⟨rest, rfl⟩ := isSuffixOf_iff_suffix.mp ht
  have htr : trimSuffix (ascii ">") (rest ++ ascii ">") = rest := by
    rw [trimSuffix, if_pos ht, length_append, Nat.add_sub_cancel, take_left]
  rw [htr] at hs
  rw [show ascii ">" = [62] from rfl, c.lower_around rest 62 [] (by decide), ← hs] at hm
  have hle := congrArg List.length hm
  simp at hle

lemma splitAs_of_plain (c : CaseMap) (h : Plain addr) : ∃ base domain, SplitAs c addr base domain := by
  obtain ⟨hc, hf, hb⟩ := h
  obtain ⟨localPart, domain, rfl, hl, hd⟩ := parts_of_count hc
  rw [hasPrefix_parts] at hf
  rw [hasSuffix_parts] at hb
  have ht : trimPrefix (ascii "<") localPart = localPart := by simp [trimPrefix, hf]
  have htr : trimSuffix (ascii ">") domain = domain := by simp [trimSuffix, hb]
  have hcut : cut atSign (localPart ++ atSign :: domain) = some (localPart, domain) :=
    cut_eq_some.mpr ⟨rfl, hl⟩
  have hcu : cutLast atSign (localPart ++ atSign :: domain) = some (localPart, domain) :=
    cutLast_eq_some.mpr ⟨rfl, hd⟩
  refine ⟨baseOf localPart, c.lower domain, ?_, ?_, ?_, ?_, ?_, ?_, ?_⟩
  · rw [extractDomain_parts c hd, htr]
  · rw [hcut]
    rfl
  · rw [Auth.splitUsername, hcu]
    rfl
  · rw [Deliver.splitAddress, hcu]
    rfl
  · have ha : (Msgstore.parseRecipient (localPart ++ atSign :: domain)).address =
        baseOf localPart ++ atSign :: domain := by
      rw [Msgstore.parseRecipient, hcu]
      rfl
    rw [ha, Msgstore.splitEmail, cutLast_eq_some.mpr ⟨rfl, hd⟩]
    simp [normal, baseOf_baseOf]
  · rw [queue_splitAddress_parts c hd, ht, htr]
  · intro env he
    rw [Scheduler.recipientDomain, he, hcut]
    rfl

theorem splitters_agree_iff (c : RuneCase) (b : Smtpd.Backend) (s : Smtpd.Session) (addr : Bytes)
    (answer : Option Smtpd.RecipientInfo) (h : (Smtpd.rcpt c.toCaseMap b s addr answer).2 = .ok ()) :
    (∃ base domain, SplitAs c.toCaseMap addr base domain) ↔ Plain addr := by
  constructor
  · rintro ⟨base, domain, hs⟩
    obtain ⟨localPart, after, rfl, hl, ha⟩ := hs.single (mem_of_accepted h)
    refine ⟨count_eq_one hl ha, ?_, ?_⟩
    · rw [hasPrefix_parts]
      exact hs.front hl ha
    · rw [hasSuffix_parts]
      exact hs.back hl ha
  · exact splitAs_of_plain c.toCaseMap

def sampleBackend : Smtpd.Backend := ⟨true, false, 0, false, .failOpen, 0, 0⟩

def sampleSession : Smtpd.Session :=
  { Smtpd.Session.new with
    mailFrom := ascii "alice@example.org"
    mailFromSeen := true
    authUser := ascii "alice@example.org" }

def remoteAnswer : Option Smtpd.RecipientInfo := some ⟨false, false, false⟩

theorem splitters_agree_iff_extension :
    (∃ base domain, SplitAs CaseMap.asciiOnly (ascii "bob+news@Example.COM") base domain) ↔
      Plain (ascii "bob+news@Example.COM") :=
  splitters_agree_iff RuneCase.asciiOnly sampleBackend sampleSession _ remoteAnswer
    (by decide +kernel)

-- The local part may be quoted, so the address may have an at sign before the one in front of the domain.
theorem stray_at_sign_splits_apart :
    (Smtpd.rcpt CaseMap.asciiOnly sampleBackend sampleSession (ascii "a@b@example.com") remoteAnswer).2 = .ok () ∧
      Smtpd.extractDomain CaseMap.asciiOnly (ascii "a@b@example.com") = ascii "example.com" ∧
      splitAddress CaseMap.asciiOnly (ascii "a@b@example.com") = (ascii "a@b", ascii "example.com") ∧
      cut atSign (ascii "a@b@example.com") = some (ascii "a", ascii "b@example.com") ∧
      ¬ ∃ base domain, SplitAs CaseMap.asciiOnly (ascii "a@b@example.com") base domain := by
  have hs : Smtpd.extractDomain CaseMap.asciiOnly (ascii "a@b@example.com") = ascii "example.com" := by
    decide +kernel
  have hc : cut atSign (ascii "a@b@example.com") = some (ascii "a", ascii "b@example.com") := by
    decide +kernel
  refine ⟨by decide +kernel, hs, by decide +kernel, hc, ?_⟩
  rintro ⟨base, domain, h⟩
  have hm := h.manager
  rw [hc] at hm
  have hd : CaseMap.asciiOnly.lower (ascii "b@example.com") = domain :=
    congrArg Prod.snd (Option.some.inj hm)
  rw [← h.extractDomain, hs] at hd
  exact absurd hd (by decide +kernel)

end Maildancer.Address

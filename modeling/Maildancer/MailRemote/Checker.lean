import Maildancer.MailRemote.Policy
import Maildancer.Text.Escape
import Maildancer.Transition
import Mathlib.Data.List.AList

namespace Maildancer.MailRemote

open Text

-- encoding/json replaces what is not UTF-8; the development fixes it only on ASCII text.
structure JsonText where
  clean : Bytes → Bytes
  clean_ascii : ∀ s, (∀ b ∈ s, b < 128) → clean s = s

def JsonText.asciiOnly : JsonText := ⟨id, fun _ _ => rfl⟩

def Policy.stored (j : JsonText) (p : Policy) : Policy := { p with mxs := p.mxs.map j.clean }

structure CacheEntry where
  id : Bytes
  fetchedAt : Int
  policy : Policy

-- The files of the cache directory that can be decoded, by name.
abbrev Cache := AList (fun _ : Bytes => CacheEntry)

-- url.PathEscape keeps letters, digits and -_.~$&+:=@ of a path segment.
def pathSafe (b : UInt8) : Bool :=
  (48 ≤ b ∧ b ≤ 57) ∨ (65 ≤ b ∧ b ≤ 90) ∨ (97 ≤ b ∧ b ≤ 122) ∨ b ∈ ascii "-_.~$&+:=@"

def cachePath (c : CaseMap) (domain : Bytes) : Bytes :=
  percentEscape pathSafe (c.lower domain) ++ ascii ".json"

-- A number of seconds as time.Duration, which counts nanoseconds in 64 bits.
def seconds (n : Int) : Int := Int.bmod (n * 1000000000) (2 ^ 64)

def fresh (now : Int) (e : CacheEntry) : Bool := now < e.fetchedAt + seconds e.policy.maxAge

-- What one call of PolicyFor meets: the TXT records, the policy host, and the
-- clock before and after the fetch.
structure Call where
  domain : Bytes
  txt : Option (List Bytes)
  fetch : Except Bytes Bytes
  now : Int
  later : Int

inductive PolicyFailure
  | fetch (text : Bytes)
  | parse (err : PolicyError)
deriving DecidableEq

def fetchPolicy (call : Call) : Except PolicyFailure Policy :=
  match call.fetch with
  | .error text => .error (.fetch text)
  | .ok body =>
    match parsePolicy body with
    | .error err => .error (.parse err)
    | .ok p => .ok p

structure Served where
  answer : Except PolicyFailure (Option Policy)
  cache : Cache
  fetched : Option Policy

def policyFor (c : CaseMap) (j : JsonText) (cache : Cache) (call : Call) : Served :=
  let cached := cache.lookup (cachePath c call.domain)
  match call.txt.bind parseTXT with
  | none => ⟨.ok ((cached.filter (fresh call.now)).map CacheEntry.policy), cache, none⟩
  | some id =>
    match cached.filter fun e => e.id = id && fresh call.now e with
    | some e => ⟨.ok (some e.policy), cache, none⟩
    | none =>
      match fetchPolicy call with
      | .ok p => ⟨.ok (some p), cache.insert (cachePath c call.domain)
          ⟨j.clean id, call.later, p.stored j⟩, some p⟩
      | .error err =>
        match cached.filter (fresh call.later) with
        | some e => ⟨.ok (some e.policy), cache, none⟩
        | none => ⟨.error err, cache, none⟩

structure Fetched where
  domain : Bytes
  time : Int
  policy : Policy

-- The cache directory, the clock and the policies fetched so far, the last one first.
structure Checker where
  cache : Cache
  clock : Int
  fetched : List Fetched

def Checker.start (cache : Cache) (clock : Int) : Checker := ⟨cache, clock, []⟩

-- The clock does not run backwards.
def Checker.step (c : CaseMap) (j : JsonText) (s : Checker) (call : Call) : Option Checker :=
  if s.clock ≤ call.now ∧ call.now ≤ call.later then
    let served := policyFor c j s.cache call
    some {
      cache := served.cache
      clock := call.later
      fetched := (served.fetched.map fun p => ⟨call.domain, call.later, p⟩).toList ++ s.fetched }
  else none

def latest (c : CaseMap) (domain : Bytes) (fetched : List Fetched) : Option Fetched :=
  fetched.find? fun f => c.lower f.domain = c.lower domain

lemma cachePath_eq_iff {c : CaseMap} {domain other : Bytes} :
    cachePath c domain = cachePath c other ↔ c.lower domain = c.lower other := by
  constructor
  · intro h
    exact percentEscape_injective (by decide) (List.append_cancel_right h)
  · intro h
    rw [cachePath, cachePath, h]

lemma parsePolicyLine_maxAge {p q : PolicyFields} {line : Bytes} (hp : p.maxAge ≤ maxMaxAge)
    (h : parsePolicyLine p line = .ok q) : q.maxAge ≤ maxMaxAge := by
  unfold parsePolicyLine at h
  split at h
  · cases h
    exact hp
  dsimp only at h
  split_ifs at h
  · cases h
    exact hp
  · cases h
    exact hp
  · cases h
    exact hp
  · split at h
    · cases h
    split_ifs at h with hn hb
    · cases h
      exact Int.le_refl _
    · cases h
      exact Int.not_lt.mp hb
  · cases h
    exact hp

lemma parsePolicy_maxAge {body : Bytes} {p : Policy} (h : parsePolicy body = .ok p) :
    0 ≤ p.maxAge ∧ p.maxAge ≤ maxMaxAge := by
  have hl : ∀ (lines : List Bytes) (p q : PolicyFields), p.maxAge ≤ maxMaxAge →
      lines.foldlM parsePolicyLine p = .ok q → q.maxAge ≤ maxMaxAge := by
    intro lines
    induction lines with
    | nil =>
      intro p q hp hq
      cases hq
      exact hp
    | cons line lines ih =>
      intro p q hp hq
      rw [List.foldlM_cons] at hq
      rcases hli : parsePolicyLine p line with err | r
      · rw [hli] at hq
        cases hq
      · rw [hli] at hq
        exact ih r q (parsePolicyLine_maxAge hp hli) hq
  unfold parsePolicy at h
  rcases hf : (split newline (joinLineEnds body)).foldlM parsePolicyLine ⟨[], [], [], -1⟩ with err | q
  · rw [hf] at h
    cases h
  rw [hf] at h
  have hm := hl _ _ q (by decide) hf
  simp only [bind, Except.bind] at h
  split at h
  · cases h
  split at h
  · cases h
  split at h
  · cases h
  split at h
  · cases h
  · next ha =>
      cases h
      exact ⟨Int.not_lt.mp ha, hm⟩

lemma fetchPolicy_maxAge {call : Call} {p : Policy} (h : fetchPolicy call = .ok p) :
    0 ≤ p.maxAge ∧ p.maxAge ≤ maxMaxAge := by
  unfold fetchPolicy at h
  split at h
  · cases h
  split at h
  · cases h
  · next parsed hp =>
      cases h
      exact parsePolicy_maxAge hp

lemma seconds_of_le {n : Int} (hlo : 0 ≤ n) (hhi : n ≤ maxMaxAge) : seconds n = n * 1000000000 := by
  rw [seconds]
  unfold maxMaxAge at hhi
  apply Int.bmod_eq_of_le <;> omega

section Call

variable (c : CaseMap) (j : JsonText) (cache : Cache) (call : Call)

lemma policyFor_cases :
    ((policyFor c j cache call).fetched = none ∧ (policyFor c j cache call).cache = cache) ∨
      ∃ p id, fetchPolicy call = .ok p ∧ (policyFor c j cache call).fetched = some p ∧
        (policyFor c j cache call).answer = .ok (some p) ∧
        (policyFor c j cache call).cache =
          cache.insert (cachePath c call.domain) ⟨id, call.later, p.stored j⟩ := by
  unfold policyFor
  dsimp only
  split
  · exact Or.inl ⟨rfl, rfl⟩
  next id ht =>
    split
    · exact Or.inl ⟨rfl, rfl⟩
    split
    · next p hf => exact Or.inr ⟨p, j.clean id, hf, rfl, rfl, rfl⟩
    · split
      · exact Or.inl ⟨rfl, rfl⟩
      · exact Or.inl ⟨rfl, rfl⟩

lemma policyFor_fresh {e : CacheEntry} (hc : cache.lookup (cachePath c call.domain) = some e)
    (hn : fresh call.now e = true) (hl : fresh call.later e = true) :
    (policyFor c j cache call).answer = .ok (some e.policy) ∨
      ∃ p, (policyFor c j cache call).answer = .ok (some p) ∧ (policyFor c j cache call).fetched = some p := by
  unfold policyFor
  dsimp only
  rw [hc]
  split
  · rw [Option.filter_some, if_pos hn]
    exact Or.inl rfl
  split
  · next e' hs =>
      rw [Option.filter_eq_some_iff] at hs
      rw [← Option.some.inj hs.1]
      exact Or.inl rfl
  · split
    · next p hf => exact Or.inr ⟨p, rfl, rfl⟩
    · rw [Option.filter_some, if_pos hl]
      exact Or.inl rfl

end Call

namespace Checker

variable {c : CaseMap} {j : JsonText} {s t : Checker} {call : Call}

structure Inv (c : CaseMap) (j : JsonText) (s : Checker) : Prop where
  cached : ∀ domain f, latest c domain s.fetched = some f →
    ∃ id, s.cache.lookup (cachePath c domain) = some ⟨id, f.time, f.policy.stored j⟩
  age : ∀ f ∈ s.fetched, 0 ≤ f.policy.maxAge ∧ f.policy.maxAge ≤ maxMaxAge

lemma inv_start (cache : Cache) (clock : Int) : Inv c j (start cache clock) := by
  refine ⟨fun domain f hf => ?_, fun f hf => ?_⟩ <;> cases hf

lemma step_cases (h : step c j s call = some t) : call.now ≤ call.later ∧
    t.cache = (policyFor c j s.cache call).cache ∧
    t.fetched = ((policyFor c j s.cache call).fetched.map fun p => ⟨call.domain, call.later, p⟩).toList ++
      s.fetched := by
  unfold step at h
  split_ifs at h with hc
  cases h
  exact ⟨hc.2, rfl, rfl⟩

lemma Inv.step (hs : s.Inv c j) (h : step c j s call = some t) : t.Inv c j := by
  obtain ⟨-, hc, hfe⟩ := step_cases h
  rcases policyFor_cases c j s.cache call with ⟨hn, hsa⟩ | ⟨p, id, hft, hso, -, hst⟩
  · rw [hn] at hfe
    refine ⟨fun domain f hf => ?_, fun f hf => ?_⟩
    · rw [hc, hsa]
      rw [hfe] at hf
      exact hs.cached domain f hf
    · rw [hfe] at hf
      exact hs.age f hf
  · rw [hso] at hfe
    refine ⟨fun domain f hf => ?_, fun f hf => ?_⟩
    · rw [hc, hst]
      rw [hfe] at hf
      by_cases hd : c.lower call.domain = c.lower domain
      · have hfi : latest c domain (⟨call.domain, call.later, p⟩ :: s.fetched) =
            some ⟨call.domain, call.later, p⟩ := List.find?_cons_of_pos (decide_eq_true hd)
        obtain rfl := Option.some.inj (hfi.symm.trans hf)
        rw [← cachePath_eq_iff.mpr hd]
        exact ⟨id, AList.lookup_insert s.cache⟩
      · have hr : latest c domain (⟨call.domain, call.later, p⟩ :: s.fetched) = latest c domain s.fetched :=
          List.find?_cons_of_neg (by simpa using hd)
        obtain ⟨id', hid⟩ := hs.cached domain f (hr.symm.trans hf)
        refine ⟨id', ?_⟩
        rw [← hid]
        exact AList.lookup_insert_ne fun heq => hd (cachePath_eq_iff.mp heq).symm
    · rw [hfe] at hf
      rcases List.mem_cons.mp hf with rfl | hf
      · exact fetchPolicy_maxAge hft
      · exact hs.age f hf

lemma Inv.run (hs : s.Inv c j) (h : Reaches (Checker.step c j) (fun _ _ => True) s t) : t.Inv c j :=
  h.invariant hs fun _ _ _ hi _ hst => hi.step hst

lemma fetched_grows (h : Reaches (Checker.step c j) (fun _ _ => True) s t) :
    ∃ newer, t.fetched = newer ++ s.fetched := by
  apply h.invariant (P := fun t => ∃ newer, t.fetched = newer ++ s.fetched)
  · exact ⟨[], rfl⟩
  intro t call u hg _ hs
  obtain ⟨newer, hn⟩ := hg
  obtain ⟨-, -, hf⟩ := step_cases hs
  rw [hf, hn, ← List.append_assoc]
  exact ⟨_, rfl⟩

lemma Inv.served (hs : s.Inv c j) (ho : call.now ≤ call.later) {f : Fetched}
    (hl : latest c call.domain s.fetched = some f)
    (hb : call.later < f.time + f.policy.maxAge * 1000000000) :
    ∃ p, (policyFor c j s.cache call).answer = .ok (some p) ∧
      (p = f.policy.stored j ∨ (policyFor c j s.cache call).fetched = some p) := by
  obtain ⟨id, hc⟩ := hs.cached call.domain f hl
  obtain ⟨hlo, hhi⟩ := hs.age f (List.mem_of_find?_eq_some hl)
  have hf : ∀ now, now ≤ call.later → fresh now ⟨id, f.time, f.policy.stored j⟩ = true := by
    intro now hle
    rw [fresh, decide_eq_true_eq]
    show now < f.time + seconds f.policy.maxAge
    rw [seconds_of_le hlo hhi]
    omega
  rcases policyFor_fresh c j s.cache call hc (hf _ ho) (hf _ (Int.le_refl _)) with
    ha | ⟨p, ha, hfe⟩
  · exact ⟨_, ha, Or.inl rfl⟩
  · exact ⟨p, ha, Or.inr hfe⟩

end Checker

end Maildancer.MailRemote

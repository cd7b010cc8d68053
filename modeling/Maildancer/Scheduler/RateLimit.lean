import Maildancer.Text
import Maildancer.TokenBucket

namespace Maildancer.Scheduler

open List Text

structure DomainRateLimit where
  messagesPerHour : Int
  burst : Int
deriving DecidableEq

structure RateLimitConfig where
  messagesPerHour : Int
  burst : Int
  domains : List (Bytes × DomainRateLimit)

def defaultRateLimit : RateLimitConfig := ⟨20, 10, []⟩

-- The messages per hour and the burst of a domain. A burst of an override counts if it is positive.
def RateLimitConfig.limit (cfg : RateLimitConfig) (domain : Bytes) : Int × Int :=
  match cfg.domains.lookup domain with
  | some override => (override.messagesPerHour, if 0 < override.burst then override.burst else cfg.burst)
  | none => (cfg.messagesPerHour, cfg.burst)

-- Messages per second.
def RateLimitConfig.rate (cfg : RateLimitConfig) (domain : Bytes) : ℚ := (cfg.limit domain).1 / 3600

def RateLimitConfig.burstOf (cfg : RateLimitConfig) (domain : Bytes) : ℚ := (cfg.limit domain).2

structure DomainLimiter where
  cfg : RateLimitConfig
  buckets : Bytes → Option (Bucket ℚ)

def newDomainLimiter (cfg : RateLimitConfig) : Option DomainLimiter :=
  if cfg.messagesPerHour = 0 ∧ cfg.domains = [] then none else some ⟨cfg, fun _ => none⟩

-- A call of allow. The clock is read when a bucket is made, and then by the bucket.
structure AllowCall where
  domain : Bytes
  n : Nat
  opened : ℚ
  now : ℚ
deriving DecidableEq

namespace DomainLimiter

def current (dl : DomainLimiter) (domain : Bytes) (opened : ℚ) : Bucket ℚ :=
  (dl.buckets domain).getD ⟨dl.cfg.rate domain, dl.cfg.burstOf domain, dl.cfg.burstOf domain, opened⟩

-- Without messages per hour the domain has no bucket and no limit.
def bucket (dl : DomainLimiter) (domain : Bytes) (opened : ℚ) : Option (Bucket ℚ) :=
  if (dl.cfg.limit domain).1 = 0 then none else some (dl.current domain opened)

def allow (dl : DomainLimiter) (c : AllowCall) : DomainLimiter × Bool :=
  match dl.bucket c.domain c.opened with
  | none => (dl, true)
  | some b => ({ dl with buckets := Function.update dl.buckets c.domain (some (b.take c.now c.n).1) },
      (b.take c.now c.n).2)

abbrev Log := List (AllowCall × Bool)

def serve (state : DomainLimiter × Log) (c : AllowCall) : DomainLimiter × Log :=
  ((state.1.allow c).1, (c, (state.1.allow c).2) :: state.2)

def run (dl : DomainLimiter) (calls : List AllowCall) : DomainLimiter × Log := calls.foldl serve (dl, [])

def spending (log : Log) (domain : Bytes) : Bucket.Spending ℚ :=
  (log.filter (·.1.domain = domain)).map fun (c, admitted) => (c.now, if admitted then (c.n : ℚ) else 0)

end DomainLimiter

structure InOrder (calls : List AllowCall) : Prop where
  each : ∀ c ∈ calls, c.opened ≤ c.now
  next : calls.Pairwise fun c c' => c.now ≤ c'.opened

namespace DomainLimiter

variable {dl dl' : DomainLimiter} {log : Log} {domain : Bytes} {c : AllowCall}

@[simp] lemma allow_cfg : (dl.allow c).1.cfg = dl.cfg := by
  rw [allow]
  cases dl.bucket c.domain c.opened <;> rfl

lemma allow_buckets_of_ne (h : c.domain ≠ domain) : (dl.allow c).1.buckets domain = dl.buckets domain := by
  rw [allow]
  rcases dl.bucket c.domain c.opened with _ | b
  · rfl
  · exact Function.update_of_ne h.symm _ _

lemma allow_congr (hc : dl.cfg = dl'.cfg) (h : dl.buckets c.domain = dl'.buckets c.domain) :
    (dl.allow c).2 = (dl'.allow c).2 ∧ (dl.allow c).1.buckets c.domain = (dl'.allow c).1.buckets c.domain := by
  have hb : dl.bucket c.domain c.opened = dl'.bucket c.domain c.opened := by
    rw [bucket, bucket, current, current, hc, h]
  rw [allow, allow, hb]
  rcases dl'.bucket c.domain c.opened with _ | b
  · exact ⟨rfl, h⟩
  · simp

lemma serve_filter {state state' : DomainLimiter × Log} (calls : List AllowCall)
    (hcfg : state.1.cfg = state'.1.cfg) (hb : state.1.buckets domain = state'.1.buckets domain)
    (hl : state.2.filter (·.1.domain = domain) = state'.2) :
    (calls.foldl serve state).2.filter (·.1.domain = domain) =
      ((calls.filter (·.domain = domain)).foldl serve state').2 := by
  induction calls generalizing state state' with
  | nil => exact hl
  | cons c calls ih =>
    by_cases hd : c.domain = domain
    · subst hd
      have hc := allow_congr hcfg hb
      rw [filter_cons_of_pos (by simp), foldl_cons, foldl_cons]
      refine ih ?_ ?_ ?_
      · simp [serve, hcfg]
      · exact hc.2
      · simp [serve, hc.1, hl]
    · rw [filter_cons_of_neg (by simpa using hd), foldl_cons]
      refine ih ?_ ?_ ?_
      · simp [serve, hcfg]
      · exact (allow_buckets_of_ne hd).trans hb
      · simp [serve, hd, hl]

lemma allow_of_limited (hl : (dl.cfg.limit c.domain).1 ≠ 0) : dl.allow c =
      ({ dl with buckets :=
          Function.update dl.buckets c.domain (some ((dl.current c.domain c.opened).take c.now c.n).1) },
        ((dl.current c.domain c.opened).take c.now c.n).2) := by
  rw [allow, bucket, if_neg hl]

lemma spending_cons_of_ne (h : c.domain ≠ domain) (admitted : Bool) :
    spending ((c, admitted) :: log) domain = spending log domain := by
  simp [spending, h]

lemma spending_cons_self (c : AllowCall) (admitted : Bool) : spending ((c, admitted) :: log) c.domain =
      (c.now, if admitted then (c.n : ℚ) else 0) :: spending log c.domain := by
  simp [spending]

lemma spending_nonneg (log : Log) (domain : Bytes) : ∀ entry ∈ spending log domain, 0 ≤ entry.2 := by
  intro entry he
  obtain ⟨⟨c, admitted⟩, -, rfl⟩ := mem_map.mp he
  cases admitted with
  | false => exact le_rfl
  | true => exact Nat.cast_nonneg _

structure Tells (cfg : RateLimitConfig) (domain : Bytes) (b : Bucket ℚ) (past : Bucket.Spending ℚ) : Prop where
  rate : b.rate = cfg.rate domain
  burst : b.burst = cfg.burstOf domain
  records : b.Records past
  bounded : b.Bounded past

-- Before the first call for the domain there is no bucket. The bucket was full when it
-- was made, which stands for a call for nothing.
structure Tracks (cfg : RateLimitConfig) (domain : Bytes) (dl : DomainLimiter) (log : Log) : Prop where
  config : dl.cfg = cfg
  unused : dl.buckets domain = none → spending log domain = []
  used : ∀ b, dl.buckets domain = some b → ∃ opened, Tells cfg domain b (spending log domain ++ [(opened, 0)])

def Passed (dl : DomainLimiter) (domain : Bytes) (t : ℚ) : Prop := ∀ b, dl.buckets domain = some b → b.lastTime ≤ t

variable {cfg : RateLimitConfig}

lemma Tracks.tells (h : Tracks cfg domain dl log) {t : ℚ} (hp : dl.Passed domain t) :
    ∃ opened, Tells cfg domain (dl.current domain t) (spending log domain ++ [(opened, 0)]) ∧
      (dl.current domain t).lastTime ≤ t := by
  rcases hb : dl.buckets domain with _ | b
  · rw [current, hb, Option.getD_none, h.unused hb, h.config]
    exact ⟨t, ⟨rfl, rfl, Bucket.records_full _ _ _, Bucket.bounded_full _ _ _⟩, le_rfl⟩
  · rw [current, hb, Option.getD_some]
    obtain ⟨opened, ht⟩ := h.used b hb
    exact ⟨opened, ht, hp b hb⟩

lemma Tracks.allow (h : Tracks cfg domain dl log) (hl : (cfg.limit domain).1 ≠ 0)
    (hp : dl.Passed domain c.opened) (hc : c.opened ≤ c.now) :
    Tracks cfg domain (dl.allow c).1 ((c, (dl.allow c).2) :: log) := by
  by_cases hd : c.domain = domain
  · subst hd
    rw [allow_of_limited (h.config ▸ hl)]
    obtain ⟨opened, ht, hla⟩ := h.tells hp
    refine ⟨h.config, fun hn => ?_, fun b hb => ⟨opened, ?_⟩⟩
    · simp at hn
    obtain rfl : _ = b := by simpa using hb
    rw [spending_cons_self, cons_append]
    have hnow := hla.trans hc
    exact ⟨by simpa using ht.rate, by simpa using ht.burst,
      ht.records.take hnow (Nat.cast_nonneg _), ht.bounded.take ht.records hnow⟩
  · refine ⟨by simpa using h.config, fun hn => ?_, fun b hb => ?_⟩
    · rw [allow_buckets_of_ne hd] at hn
      rw [spending_cons_of_ne hd]
      exact h.unused hn
    · rw [allow_buckets_of_ne hd] at hb
      rw [spending_cons_of_ne hd]
      exact h.used b hb

lemma Passed.allow (hc : dl.cfg = cfg) (hl : (cfg.limit domain).1 ≠ 0) {t : ℚ} (hp : dl.Passed domain t)
    (hn : c.now ≤ t) : (dl.allow c).1.Passed domain t := by
  intro b hb
  by_cases hd : c.domain = domain
  · subst hd
    rw [allow_of_limited (hc ▸ hl)] at hb
    obtain rfl : _ = b := by simpa using hb
    simpa using hn
  · rw [allow_buckets_of_ne hd] at hb
    exact hp b hb

lemma Tracks.serve {state : DomainLimiter × Log} {calls later : List AllowCall}
    (h : Tracks cfg domain state.1 state.2) (hl : (cfg.limit domain).1 ≠ 0) (ho : InOrder (calls ++ later))
    (hp : ∀ c ∈ calls ++ later, state.1.Passed domain c.opened) :
    Tracks cfg domain (calls.foldl serve state).1 (calls.foldl serve state).2 ∧
      ∀ c ∈ later, (calls.foldl serve state).1.Passed domain c.opened := by
  induction calls generalizing state with
  | nil => exact ⟨h, hp⟩
  | cons c calls ih =>
    rw [cons_append] at ho hp
    have hf := pairwise_cons.mp ho.next
    refine ih (h.allow hl (hp c mem_cons_self) (ho.each c mem_cons_self))
      ⟨fun c' hc' => ho.each c' (mem_cons_of_mem _ hc'), hf.2⟩ fun c' hc' => ?_
    exact Passed.allow h.config hl (hp c' (mem_cons_of_mem _ hc')) (hf.1 c' hc')

lemma tracks_run (hn : newDomainLimiter cfg = some dl) (hl : (cfg.limit domain).1 ≠ 0)
    (calls later : List AllowCall) (ho : InOrder (calls ++ later)) :
    Tracks cfg domain (dl.run calls).1 (dl.run calls).2 ∧ ∀ c ∈ later, (dl.run calls).1.Passed domain c.opened := by
  rw [newDomainLimiter] at hn
  split_ifs at hn
  cases hn
  refine Tracks.serve ⟨rfl, fun _ => rfl, fun b hb => by cases hb⟩ hl ho ?_
  exact fun c _ b hb => by cases hb

-- A call is admitted exactly when the limit of the domain leaves room for it over every
-- window that ends there.
lemma allow_iff_windows (hn : newDomainLimiter cfg = some dl) (hr : 0 < (cfg.limit c.domain).1)
    (calls : List AllowCall) (ho : InOrder (calls ++ [c])) :
    ((dl.run calls).1.allow c).2 = true ↔ ∀ t ≤ c.now,
      c.n + Bucket.spent (spending (dl.run calls).2 c.domain) t ≤
        cfg.burstOf c.domain + (c.now - t) * cfg.rate c.domain := by
  have hl : (cfg.limit c.domain).1 ≠ 0 := by omega
  obtain ⟨ht, hp⟩ := tracks_run hn hl calls [c] ho
  obtain ⟨opened, hte, hla⟩ := ht.tells (hp c (mem_singleton_self c))
  have hc := ho.each c (by simp)
  have hpo : 0 ≤ cfg.rate c.domain := div_nonneg (by exact_mod_cast hr.le) (by norm_num)
  rw [allow_of_limited (ht.config ▸ hl), hte.records.admits_iff_windows (hla.trans hc)
    (hte.rate ▸ hpo), hte.rate, hte.burst]
  simp [Bucket.spent_append_zero]

end DomainLimiter

open DomainLimiter

-- Over every window the domain gets at most its burst and what its rate allows, and the
-- calls for other domains are nothing to it.
theorem outbound_rate_bounded (cfg : RateLimitConfig) (dl : DomainLimiter) (hnew : newDomainLimiter cfg = some dl)
    (calls : List AllowCall) (horder : InOrder calls) (domain : Bytes) (hlimited : (cfg.limit domain).1 ≠ 0)
    (t d : ℚ) (hd : 0 ≤ d) : Bucket.within (spending (dl.run calls).2 domain) t (t + d) ≤
        max (cfg.burstOf domain) 0 + max (cfg.rate domain) 0 * d ∧
      (dl.run calls).2.filter (·.1.domain = domain) = (dl.run (calls.filter (·.domain = domain))).2 := by
  have ht := (tracks_run hnew hlimited calls [] (by simpa using horder)).1
  refine ⟨?_, serve_filter calls rfl rfl rfl⟩
  rcases hb : (dl.run calls).1.buckets domain with _ | b
  · rw [ht.unused hb]
    have hbu : 0 ≤ max (cfg.burstOf domain) 0 := le_max_right _ _
    have hr : 0 ≤ max (cfg.rate domain) 0 * d := mul_nonneg (le_max_right _ _) hd
    exact add_nonneg hbu hr
  · obtain ⟨opened, hte⟩ := ht.used b hb
    have hbo := hte.bounded t (t + d) (le_add_of_nonneg_right hd)
    rw [Bucket.within_append_zero, hte.rate, hte.burst, add_sub_cancel_left, mul_comm d] at hbo
    exact hbo

def sampleCall : AllowCall := ⟨ascii "example.com", 10, 0, 0⟩

lemma inOrder_sampleCall : InOrder [sampleCall] := ⟨by simp [sampleCall], by simp⟩

-- The second call finds the bucket empty and the last one message in it; the other domain has its own.
-- The log has the latest call first.
def sampleCalls : List AllowCall :=
  [sampleCall, ⟨ascii "example.com", 1, 30, 30⟩, ⟨ascii "example.net", 4, 60, 60⟩, ⟨ascii "example.com", 1, 180, 180⟩]

lemma inOrder_sampleCalls : InOrder sampleCalls := ⟨by decide +kernel, by decide +kernel⟩

theorem outbound_rate_bounded_default : ∃ dl, newDomainLimiter defaultRateLimit = some dl ∧
    (dl.run sampleCalls).2.map Prod.snd = [true, true, false, true] ∧
    Bucket.within (spending (dl.run sampleCalls).2 (ascii "example.com")) 0 (0 + 240) = 11 ∧
    Bucket.within (spending (dl.run sampleCalls).2 (ascii "example.com")) 0 (0 + 240) ≤
      max (defaultRateLimit.burstOf (ascii "example.com")) 0 +
        max (defaultRateLimit.rate (ascii "example.com")) 0 * 240 :=
  ⟨_, rfl, by decide +kernel, by decide +kernel, (outbound_rate_bounded defaultRateLimit _ rfl sampleCalls
    inOrder_sampleCalls (ascii "example.com") (by decide) 0 240 (by decide)).1⟩

-- A negative rate takes away from the burst in the bound, not from what was admitted.
theorem negative_rate_exceeded : ∃ dl, newDomainLimiter ⟨-3600, 10, []⟩ = some dl ∧ InOrder [sampleCall] ∧
    (⟨-3600, 10, []⟩ : RateLimitConfig).burstOf (ascii "example.com") +
        (⟨-3600, 10, []⟩ : RateLimitConfig).rate (ascii "example.com") * 5 <
      Bucket.within (spending (dl.run [sampleCall]).2 (ascii "example.com")) 0 (0 + 5) :=
  ⟨_, rfl, inOrder_sampleCall, by decide +kernel⟩

end Maildancer.Scheduler

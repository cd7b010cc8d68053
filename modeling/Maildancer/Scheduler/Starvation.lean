import Maildancer.Scheduler.RateLimit
import Maildancer.Scheduler.Run

namespace Maildancer.Scheduler

open List Text Queue DomainLimiter

def askedGroups (cfg : Config) (o : Outside) : Run → List (Bytes × Bytes) → List ((Bytes × Bytes) × Group)
  | _, [] => []
  | run, d :: rest => (groups o run.spool d).map (d, ·) ++ askedGroups cfg o (processDomainDir cfg o run d) rest

structure Ask where
  dir : Bytes × Bytes
  msgid : Bytes
  call : AllowCall
deriving DecidableEq

-- Scans one after another, each with what it finds in the queue and with the times at which it asks.
structure Scans where
  cfg : Config
  outside : Nat → Outside
  spool : Nat → Spool
  clock : Nat → Nat → ℚ × ℚ

namespace Scans

def asks (h : Scans) (i : Nat) : List Ask :=
  (askedGroups h.cfg (h.outside i) ⟨(h.spool i).recoverStaleDeliveries, [], []⟩ (h.spool i).dirs).zipIdx.map
    fun ((d, g), j) => ⟨d, g.msgid, domainFromPath d, g.entries.length, (h.clock i j).1, (h.clock i j).2⟩

def earlier (h : Scans) (i : Nat) : List AllowCall := (List.range i).flatMap fun j => (h.asks j).map Ask.call

structure AsksFor (h : Scans) (d : Bytes × Bytes) (msgid : Bytes) (calls : List AllowCall) (a : Ask) : Prop where
  dir : a.dir = d
  msgid : a.msgid = msgid
  asked : ∃ i before after, h.asks i = before ++ a :: after ∧ calls = h.earlier i ++ before.map Ask.call

def LetThrough (h : Scans) (dl : DomainLimiter) (d : Bytes × Bytes) (msgid : Bytes) : Prop :=
  ∃ calls a, h.AsksFor d msgid calls a ∧ ((dl.run calls).1.allow a.call).2 = true

-- What was let through of the domain leaves room for the group, over every window that ends with its turn.
def HasRoom (h : Scans) (cfg : RateLimitConfig) (dl : DomainLimiter) (d : Bytes × Bytes) (msgid : Bytes) : Prop :=
  ∃ calls a, h.AsksFor d msgid calls a ∧ ∀ t ≤ a.call.now,
    a.call.n + Bucket.spent (spending (dl.run calls).2 (domainFromPath d)) t ≤
      cfg.burstOf (domainFromPath d) + (a.call.now - t) * cfg.rate (domainFromPath d)

lemma earlier_succ (h : Scans) (i : Nat) : h.earlier (i + 1) = h.earlier i ++ (h.asks i).map Ask.call := by
  simp [earlier, range_succ]

variable {h : Scans} {d : Bytes × Bytes} {msgid : Bytes} {calls : List AllowCall} {a : Ask}

lemma AsksFor.inOrder
    (ha : h.AsksFor d msgid calls a) (hcl : ∀ i, InOrder (h.earlier i)) : InOrder (calls ++ [a.call]) := by
  obtain ⟨-, -, i, before, after, hs, rfl⟩ := ha
  have hall := hcl (i + 1)
  rw [earlier_succ, hs] at hall
  have hp : (h.earlier i ++ before.map Ask.call ++ [a.call]).Sublist
      (h.earlier i ++ (before ++ a :: after).map Ask.call) := by simp
  exact ⟨fun c hc => hall.each c (hp.subset hc), hall.next.sublist hp⟩

lemma asks_domain {i : Nat} (ha : a ∈ h.asks i) : a.call.domain = domainFromPath a.dir := by
  obtain ⟨⟨⟨d, g⟩, j⟩, -, rfl⟩ := mem_map.mp ha
  rfl

lemma AsksFor.domain (ha : h.AsksFor d msgid calls a) : a.call.domain = domainFromPath d := by
  obtain ⟨rfl, -, i, before, after, hs, -⟩ := ha
  have hm : a ∈ h.asks i := by simp [hs]
  exact asks_domain hm

lemma not_letThrough_of_large {cfg : RateLimitConfig} {dl : DomainLimiter} (hn : newDomainLimiter cfg = some dl)
    (hc : ∀ i, InOrder (h.earlier i)) (hr : 0 < (cfg.limit (domainFromPath d)).1)
    (hl : ∀ calls a, h.AsksFor d msgid calls a → cfg.burstOf (domainFromPath d) < a.call.n) :
    ¬ h.LetThrough dl d msgid := by
  rintro ⟨calls, a, ha, hal⟩
  have hd := ha.domain
  rw [allow_iff_windows hn (hd ▸ hr) calls (ha.inOrder hc), hd] at hal
  have hro := hal a.call.now le_rfl
  have hs := Bucket.spent_nonneg (spending_nonneg (dl.run calls).2 (domainFromPath d)) a.call.now
  have hsi := hl calls a ha
  rw [sub_self, zero_mul, add_zero] at hro
  linarith

end Scans

theorem let_through_iff (cfg : RateLimitConfig) (dl : DomainLimiter) (hnew : newDomainLimiter cfg = some dl) (h : Scans)
    (hclock : ∀ i, InOrder (h.earlier i)) (d : Bytes × Bytes) (msgid : Bytes)
    (hrate : 0 < (cfg.limit (domainFromPath d)).1) : h.LetThrough dl d msgid ↔ h.HasRoom cfg dl d msgid := by
  refine exists₂_congr fun calls a => and_congr_right fun ha => ?_
  have hd := ha.domain
  rw [allow_iff_windows hnew (hd ▸ hrate) calls (ha.inOrder hclock), hd]

def manyDir : Bytes × Bytes := (ascii "com", ascii "example")

def manyEnvs (k : Nat) : List EnvFile := (List.range k).map fun n => {
  dir := domainDir manyDir
  name := envName (ascii "user") (ascii "msg") n
  delivering := false
  content := some ⟨0, 1, ascii "b@o.org", ascii "user@example.com", ascii "msg", ascii "a@o.org"⟩
  plain := envName_plain _ _ _ }

def manyScans (k : Nat) (distinct : ((manyEnvs k).map EnvFile.path).Nodup) : Scans where
  cfg := ⟨true, []⟩
  outside _ := .steady 0 fun _ => true
  spool _ := .inDir manyDir [] (manyEnvs k) distinct
  clock i _ := (60 * i, 60 * i)

def manyAsk (k i : Nat) : Ask := ⟨manyDir, ascii "msg", ascii "example.com", k, 60 * i, 60 * i⟩

section Many

variable {k : Nat} {distinct : ((manyEnvs k).map EnvFile.path).Nodup}

def manyFound (k : Nat) (distinct : ((manyEnvs k).map EnvFile.path).Nodup) : List ((Bytes × Bytes) × Bytes × Nat) :=
  (askedGroups ⟨true, []⟩ (.steady 0 fun _ => true)
    ⟨(Spool.inDir manyDir [] (manyEnvs k) distinct).recoverStaleDeliveries, [], []⟩ [manyDir]).map
      fun (d, g) => (d, g.msgid, g.entries.length)

lemma manyScans_asks (hf : manyFound k distinct = [(manyDir, ascii "msg", k)]) (i : Nat) :
    (manyScans k distinct).asks i = [manyAsk k i] := by
  obtain ⟨⟨d, g⟩, hg, hgr⟩ := map_eq_singleton_iff.mp hf
  obtain ⟨rfl, hm, hs⟩ : d = manyDir ∧ g.msgid = ascii "msg" ∧ g.entries.length = k := by
    simpa using hgr
  have ha : askedGroups (manyScans k distinct).cfg ((manyScans k distinct).outside i)
      ⟨((manyScans k distinct).spool i).recoverStaleDeliveries, [], []⟩ ((manyScans k distinct).spool i).dirs =
        [(manyDir, g)] := hg
  rw [Scans.asks, ha, zipIdx_singleton, map_singleton]
  dsimp only
  rw [hm, hs]
  rfl

lemma manyScans_earlier (hf : manyFound k distinct = [(manyDir, ascii "msg", k)]) (i : Nat) :
    (manyScans k distinct).earlier i = (List.range i).map fun j => (manyAsk k j).call := by
  rw [Scans.earlier, map_eq_flatMap]
  exact flatMap_congr fun j _ => by rw [manyScans_asks hf, map_singleton]

lemma manyScans_inOrder (hf : manyFound k distinct = [(manyDir, ascii "msg", k)]) (i : Nat) :
    InOrder ((manyScans k distinct).earlier i) := by
  rw [manyScans_earlier hf]
  refine ⟨fun c hc => ?_, ?_⟩
  · obtain ⟨j, -, rfl⟩ := mem_map.mp hc
    exact le_rfl
  refine pairwise_map.mpr (pairwise_lt_range.imp fun {a b} hab => ?_)
  show (60 * a : ℚ) ≤ 60 * b
  have hca : (a : ℚ) ≤ b := by exact_mod_cast hab.le
  linarith

end Many

lemma eleven_distinct : ((manyEnvs 11).map EnvFile.path).Nodup := by decide +kernel

lemma eleven_found : manyFound 11 eleven_distinct = [(manyDir, ascii "msg", 11)] := by decide +kernel

-- With the default limit a message to eleven users of a domain is deferred for ever.
theorem eleven_users_starve : ∃ (dl : DomainLimiter) (h : Scans), newDomainLimiter defaultRateLimit = some dl ∧
    (∀ i, InOrder (h.earlier i)) ∧ (∀ i, h.asks i = [⟨manyDir, ascii "msg", ascii "example.com", 11, 60 * i, 60 * i⟩]) ∧
    ¬ h.LetThrough dl manyDir (ascii "msg") := by
  have hn : newDomainLimiter defaultRateLimit = some ⟨defaultRateLimit, fun _ => none⟩ := rfl
  refine ⟨_, manyScans 11 eleven_distinct, hn, manyScans_inOrder eleven_found, manyScans_asks eleven_found, ?_⟩
  refine Scans.not_letThrough_of_large hn (manyScans_inOrder eleven_found) (by decide) fun calls a ha => ?_
  obtain ⟨-, -, i, before, after, hs, -⟩ := ha
  have hm : a ∈ (manyScans 11 eleven_distinct).asks i := by simp [hs]
  rw [manyScans_asks eleven_found, mem_singleton] at hm
  rw [hm]
  show (10 : ℚ) < (11 : Nat)
  norm_num

lemma one_distinct : ((manyEnvs 1).map EnvFile.path).Nodup := by decide +kernel

lemma one_found : manyFound 1 one_distinct = [(manyDir, ascii "msg", 1)] := by decide +kernel

theorem one_user_let_through : ∃ (dl : DomainLimiter) (h : Scans), newDomainLimiter defaultRateLimit = some dl ∧
    h.LetThrough dl manyDir (ascii "msg") ∧ h.HasRoom defaultRateLimit dl manyDir (ascii "msg") := by
  have hn : newDomainLimiter defaultRateLimit = some ⟨defaultRateLimit, fun _ => none⟩ := rfl
  have ht : (manyScans 1 one_distinct).LetThrough ⟨defaultRateLimit, fun _ => none⟩ manyDir (ascii "msg") := by
    refine ⟨[], manyAsk 1 0, ⟨rfl, rfl, 0, [], [], manyScans_asks one_found 0, rfl⟩, ?_⟩
    decide +kernel
  exact ⟨_, manyScans 1 one_distinct, hn, ht, (let_through_iff defaultRateLimit _ hn _
    (manyScans_inOrder one_found) manyDir _ (by decide)).mp ht⟩

end Maildancer.Scheduler

import Maildancer.PeerFilter.Bans

namespace Maildancer.PeerFilter

open Keyspace Option List Text

namespace Filter

variable {f : Filter} {w t : World} {e : Event} {c : Conn} {ip peer : Bytes}

def offenceKeys (peer signal : Bytes) : List Bytes := [abuseKey peer signal, keyStrikes ++ peer, keyBan ++ peer]

lemma writes_ban (c : Conn) (ip reason signal : Bytes) :
    Writes (offenceKeys (normalizePrefix f.net ip) signal) c (f.ban c ip reason).1 := by
  have hs : keyStrikes ++ normalizePrefix f.net ip ∈ offenceKeys (normalizePrefix f.net ip) signal :=
    mem_cons_of_mem _ mem_cons_self
  have hb : keyBan ++ normalizePrefix f.net ip ∈ offenceKeys (normalizePrefix f.net ip) signal :=
    mem_cons_of_mem _ (mem_cons_of_mem _ mem_cons_self)
  have hst : Writes (offenceKeys (normalizePrefix f.net ip) signal) c
      (strike c (normalizePrefix f.net ip)).1 := by
    unfold strike
    split
    · next hi => exact writes_incr hs hi
    · next hi => exact (writes_incr hs hi).trans (writes_expire hs rfl)
  unfold ban
  split
  · exact Writes.refl _ c
  split
  · exact Writes.refl _ c
  apply hst.trans
  dsimp only
  split
  · next hset => exact writes_set hb hset
  · next hset => exact writes_set hb hset

lemma writes_report (c : Conn) (ip signal : Bytes) :
    Writes (offenceKeys (normalizePrefix f.net ip) signal) c (f.report c ip signal).1 := by
  have ha : abuseKey (normalizePrefix f.net ip) signal ∈ offenceKeys (normalizePrefix f.net ip) signal :=
    mem_cons_self
  unfold report
  split
  · exact Writes.refl _ c
  split
  · exact Writes.refl _ c
  split
  · exact Writes.refl _ c
  split
  · next hi => exact writes_incr ha hi
  next n hi =>
    apply (writes_incr ha hi).trans
    dsimp only
    split
    · exact (writes_window ha n _).trans (writes_ban _ ip _ signal)
    · exact writes_window ha n _

def Trust (first : Bytes) : Prop := first = keyGood ∨ first = keySuppressed

variable {first : Bytes} {keys : Keyspace} {k : Nat} {time : Int} {down : Command → Bool}
  {authFacing : Bool}

lemma Trust.notMem (h : Trust first) (peer p signal : Bytes) :
    first ++ peer ∉ offenceKeys p signal := by
  simp only [offenceKeys, mem_cons, not_mem_nil, or_false, not_or]
  have ha : first ++ peer ≠ abuseKey p signal := by
    unfold abuseKey
    rw [append_assoc, append_assoc]
    obtain rfl | rfl := h
    · exact append_ne_append 1 (by decide) (by decide) (by decide) peer _
    · exact append_ne_append 1 (by decide) (by decide) (by decide) peer _
  have hai : Aside (first ++ peer) := by
    obtain rfl | rfl := h
    · exact aside_keyGood peer
    · exact aside_keySuppressed peer
  exact ⟨ha, (hai.2 p).symm, (hai.1 p).symm⟩

lemma lookup_exec {op : Op} (hf : Trust first) (hop : ∀ ip, op ≠ .unban ip)
    (hok : (f.exec c op).erred = false) (hc : ∀ ip authFacing, op = .check ip authFacing → f.subject ip ≠ some peer)
    (hg : first = keyGood → ∀ ip, op = .recordGood ip → f.subject ip ≠ some peer) :
    (f.exec c op).keys.lookup (first ++ peer) = c.keys.lookup (first ++ peer) := by
  cases op with
  | ban ip reason =>
    exact (writes_ban c ip reason [] hok).2.2 _ (hf.notMem peer _ [])
  | report ip signal => exact (writes_report c ip signal hok).2.2 _ (hf.notMem peer _ signal)
  | recordGood ip =>
    refine (writes_recordGood c ip hok).2.2 _ fun hmem => ?_
    obtain ⟨p, hp, heq⟩ := mem_map.mp hmem
    obtain rfl | rfl := hf
    · rw [append_cancel_left heq] at hp
      exact hg rfl ip rfl (mem_toList.mp hp)
    · exact keyGood_ne_keySuppressed p peer heq
  | check ip authFacing =>
    rw [exec] at hok ⊢
    rcases hs : f.subject ip with _ | p
    · rw [check_idle hs]
    have hpe : peer ≠ p := fun heq => hc ip authFacing rfl (heq ▸ hs)
    have hsu : first ++ peer ≠ keySuppressed ++ p := by
      obtain rfl | rfl := hf
      · exact keyGood_ne_keySuppressed peer p
      · exact fun heq => hpe (append_cancel_left heq)
    have hm : first ++ peer ≠ keyGood ++ p := by
      obtain rfl | rfl := hf
      · exact fun heq => hpe (append_cancel_left heq)
      · exact (keyGood_ne_keySuppressed p peer).symm
    obtain ⟨-, hsa⟩ | ⟨_, -, _, hsp, -⟩ := check_ok hs hok
    · rw [hsa]
    generalize (f.check c ip authFacing).1 = c' at hok hsp ⊢
    cases suppressBan_ok hsp hok with
    | unmarked => rfl
    | counted n keys _ _ _ _ _ _ hk => exact hk _ hsu
    | revoked n keys _ _ _ _ hk => exact hk _ hsu hm
  | unban ip => exact absurd rfl (hop ip)

-- A Check that lets a banned peer pass.
def suppresses (f : Filter) (peer : Bytes) (w : World) (e : Event) : Bool :=
  match e.op with
  | .check ip authFacing =>
    f.subject ip = some peer ∧ (w.ban e.time peer).isSome ∧
      (f.check (w.conn e.time e.down) ip authFacing).2 = .allow
  | _ => false

def suppressions (f : Filter) (peer : Bytes) (w : World) : List Event → Nat
  | [] => 0
  | e :: rest => (if f.suppresses peer w e then 1 else 0) + f.suppressions peer (f.next w e) rest

def Counting (peer : Bytes) (w : World) (e : Event) : Prop :=
  (Keyspace.live w.keys e.time (keySuppressed ++ peer)).isSome = true

-- A Check that finds the marker and still does not let the peer pass.
def Revokes (f : Filter) (peer : Bytes) (w : World) (e : Event) : Prop :=
  ∃ ip authFacing, e.op = .check ip authFacing ∧ f.subject ip = some peer ∧ (w.ban e.time peer).isSome = true ∧
    (Keyspace.live w.keys e.time (keyGood ++ peer)).isSome = true ∧
    (f.check (w.conn e.time e.down) ip authFacing).2 ≠ .allow

def GoodLogin (f : Filter) (peer : Bytes) (e : Event) : Prop :=
  ∃ ip, e.op = .recordGood ip ∧ f.subject ip = some peer

lemma sentence_ne_allow (authFacing : Bool) (reason : Bytes) : f.sentence authFacing reason ≠ .allow := by
  unfold sentence
  split <;> simp [Verdict.allow]

-- As long as it lives, the counter has reached k.
def Counted (peer : Bytes) (k : Nat) (keys : Keyspace) (now : Int) : Prop :=
  ∀ time stored, now ≤ time → Keyspace.live keys time (keySuppressed ++ peer) = some stored →
    ∃ n : Int, stored.value = decimalInt n ∧ k ≤ n ∧ n < 2 ^ 63

lemma Counted.of_none {now : Int} (k : Nat)
    (h : Keyspace.live keys now (keySuppressed ++ peer) = none) : Counted peer k keys now := by
  intro time stored hle hl
  obtain ⟨hlo, ha⟩ := live_eq_some.mp hl
  cases h.symm.trans (live_eq_some.mpr ⟨hlo, stored.alive_mono hle ha⟩)

lemma Counted.le_count {now : Int} (h : Counted peer k keys now)
    (hl : (Keyspace.live keys now (keySuppressed ++ peer)).isSome = true) :
    k ≤ Keyspace.count keys now (keySuppressed ++ peer) := by
  obtain ⟨stored, hs⟩ := isSome_iff_exists.mp hl
  obtain ⟨n, hv, hk, hlt⟩ := h now stored le_rfl hs
  rw [count_eq_of_live hs hv (by omega) hlt]
  exact hk

lemma Counted.of_raised {n : Int} (h : Raised peer n keys) (hk : k ≤ n)
    (hlt : n < 2 ^ 63) (now : Int) : Counted peer k keys now :=
  fun _ stored _ hl => ⟨n, h stored (live_eq_some.mp hl).1, hk, hlt⟩

lemma counted_check (hr : 0 < f.cfg.revokeAfter) (hs : f.subject ip = some peer)
    (hok : (f.check (w.conn time down) ip authFacing).1.erred = false) (hc : Counted peer k w.keys time)
    (hk : k ≤ Keyspace.count w.keys time (keySuppressed ++ peer)) :
    f.suppresses peer w ⟨.check ip authFacing, time, down⟩ = false ∧
        Counted peer k (f.check (w.conn time down) ip authFacing).1.keys time ∨
      f.suppresses peer w ⟨.check ip authFacing, time, down⟩ = true ∧
        Counted peer (k + 1) (f.check (w.conn time down) ip authFacing).1.keys time ∧ k + 1 ≤ f.cfg.revokeAfter := by
  have hi : f.suppresses peer w ⟨.check ip authFacing, time, down⟩ = true ↔
      (w.ban time peer).isSome = true ∧ (f.check (w.conn time down) ip authFacing).2 = .allow := by
    rw [suppresses, decide_eq_true_iff]
    exact and_iff_right hs
  rw [← Bool.not_eq_true, hi]
  obtain ⟨hno, hsa⟩ | ⟨found, hl, suppressed, hsu, hv⟩ := check_ok hs hok
  · left
    rw [hsa]
    refine ⟨fun ⟨hso, _⟩ => ?_, hc⟩
    rw [World.ban, show Keyspace.live w.keys time (keyBan ++ peer) = none from hno] at hso
    cases hso
  · have hb : (w.ban time peer).isSome = true := isSome_iff_exists.mpr ⟨found, hl⟩
    rw [hv]
    generalize (f.check (w.conn time down) ip authFacing).1 = c' at hok hsu ⊢
    cases suppressBan_ok hsu hok with
    | unmarked => exact Or.inl ⟨fun h => sentence_ne_allow _ _ h.2, hc⟩
    | counted n keys _ _ hn hlt hw hra _ =>
      have hn' : n = Keyspace.count w.keys time (keySuppressed ++ peer) + 1 := hn
      have hm := hw hr
      exact Or.inr ⟨⟨hb, rfl⟩, Counted.of_raised hra (by omega) hlt time, by omega⟩
    | revoked n keys hn hlt hra _ _ =>
      have hn' : n = Keyspace.count w.keys time (keySuppressed ++ peer) + 1 := hn
      exact Or.inl ⟨fun h => sentence_ne_allow _ _ h.2, Counted.of_raised hra (by omega) hlt time⟩

lemma counted_next (hr : 0 < f.cfg.revokeAfter) (hq : f.Quiet w e)
    (hc : Counted peer k w.keys e.time) (hk : k ≤ Keyspace.count w.keys e.time (keySuppressed ++ peer)) :
    f.suppresses peer w e = false ∧ Counted peer k (f.next w e).keys e.time ∨
      f.suppresses peer w e = true ∧ Counted peer (k + 1) (f.next w e).keys e.time ∧ k + 1 ≤ f.cfg.revokeAfter := by
  obtain ⟨op, time, down⟩ := e
  obtain ⟨hop, hok⟩ := hq
  by_cases hch : ∃ ip authFacing, op = .check ip authFacing ∧ f.subject ip = some peer
  · obtain ⟨ip, authFacing, rfl, hs⟩ := hch
    exact counted_check hr hs hok hc hk
  push Not at hch
  have hsa := lookup_exec (Or.inr rfl) hop hok hch fun heq => absurd heq (by decide)
  refine Or.inl ⟨?_, fun later stored hle hl => hc later stored hle ?_⟩
  · unfold suppresses
    split
    · next ip authFacing hop' => exact decide_eq_false fun h => hch ip authFacing hop' h.1
    · rfl
  · exact (live_congr hsa later).symm.trans hl

lemma suppressions_le (hr : 0 < f.cfg.revokeAfter) {events : List Event} {s : World}
    (hc : Counted peer k w.keys w.clock) (hk : k ≤ f.cfg.revokeAfter) (hq : Along f.step f.Quiet w events)
    (hco : Along f.step (Counting peer) w events) (hrun : runSteps f.step w events = some s) :
    k + f.suppressions peer w events ≤ f.cfg.revokeAfter := by
  induction events generalizing w k with
  | nil => simpa [suppressions] using hk
  | cons e rest ih =>
    obtain ⟨t, hs, hre⟩ := bind_eq_some_iff.mp hrun
    obtain ⟨hq, hqu⟩ := hq
    obtain ⟨hl, hco⟩ := hco
    have hqu := hqu t hs
    have hco := hco t hs
    obtain ⟨hcl, rfl⟩ := step_eq hs
    have hnow : Counted peer k w.keys e.time := fun time stored hle => hc time stored (hcl.trans hle)
    rw [suppressions]
    obtain ⟨hno, hn⟩ | ⟨hy, hn, hm⟩ := counted_next hr hq hnow (hnow.le_count hl)
    · have hle := ih hn hk hqu hco hre
      rw [hno, if_neg Bool.false_ne_true]
      push_cast at hle ⊢
      omega
    · have hle := ih hn (by exact_mod_cast hm) hqu hco hre
      rw [hy, if_pos rfl]
      push_cast at hle ⊢
      omega

def Unmarked (f : Filter) (peer : Bytes) (w : World) : Prop :=
  f.cfg.knownGood = true → w.keys.lookup (keyGood ++ peer) = none

lemma unmarked_revokes (hq : f.Quiet w e) (hr : f.Revokes peer w e) : f.Unmarked peer (f.next w e) := by
  intro hon
  obtain ⟨op, time, down⟩ := e
  obtain ⟨ip, authFacing, rfl, hs, hb, hm, hv⟩ := hr
  have hok : (f.check (w.conn time down) ip authFacing).1.erred = false := hq.2
  show (f.check (w.conn time down) ip authFacing).1.keys.lookup (keyGood ++ peer) = none
  obtain ⟨-, hsa⟩ | ⟨found, hl, suppressed, hsu, ha⟩ := check_ok hs hok
  · exact absurd (congrArg Prod.snd hsa) hv
  rw [ha] at hv
  generalize (f.check (w.conn time down) ip authFacing).1 = c' at hok hsu ⊢
  cases suppressBan_ok hsu hok with
  | unmarked h =>
    rw [show Keyspace.live w.keys time (keyGood ++ peer) = none from h hon] at hm
    cases hm
  | counted n keys _ _ _ _ _ _ _ => exact absurd rfl hv
  | revoked n keys _ _ _ hg _ => exact hg

lemma unmarked_next (h : f.Unmarked peer w) (hq : f.Quiet w e) (hl : ¬ f.GoodLogin peer e) :
    f.Unmarked peer (f.next w e) := by
  intro hon
  obtain ⟨op, time, down⟩ := e
  obtain ⟨hop, hok⟩ := hq
  by_cases hc : ∃ ip authFacing, op = .check ip authFacing ∧ f.subject ip = some peer
  · obtain ⟨ip, authFacing, rfl, hs⟩ := hc
    show (f.check (w.conn time down) ip authFacing).1.keys.lookup (keyGood ++ peer) = none
    obtain ⟨-, hsa⟩ | ⟨found, hli, suppressed, hsu, -⟩ := check_ok hs hok
    · rw [hsa]
      exact h hon
    have hok : (f.check (w.conn time down) ip authFacing).1.erred = false := hok
    generalize (f.check (w.conn time down) ip authFacing).1 = c' at hok hsu ⊢
    cases suppressBan_ok hsu hok with
    | unmarked => exact h hon
    | counted n keys _ _ _ _ _ _ hk => exact (hk _ (keyGood_ne_keySuppressed peer peer)).trans (h hon)
    | revoked n keys _ _ _ hg _ => exact hg
  · push Not at hc
    exact (lookup_exec (Or.inl rfl) hop hok hc fun _ ip heq hs => hl ⟨ip, heq, hs⟩).trans (h hon)

lemma check_unmarked {found : Stored}
    (h : f.Unmarked peer w) (hs : f.subject ip = some peer) (hb : w.ban time peer = some found)
    (hok : (f.check (w.conn time down) ip authFacing).1.erred = false) :
    (f.check (w.conn time down) ip authFacing).2 = f.sentence authFacing found.value := by
  obtain ⟨hn, -⟩ | ⟨_, hl, suppressed, hsu, ha⟩ := check_ok hs hok
  · cases hn.symm.trans hb
  obtain rfl := Option.some.inj (hl.symm.trans hb)
  rw [ha]
  generalize (f.check (w.conn time down) ip authFacing).1 = c' at hok hsu
  cases suppressBan_ok hsu hok with
  | unmarked | revoked n keys _ _ _ _ _ => rfl
  | counted n keys hon hm _ _ _ _ _ =>
    obtain ⟨stored, hst⟩ := isSome_iff_exists.mp hm
    cases (h hon).symm.trans (live_eq_some.mp hst).1

end Filter

-- While one counter lasts at most RevokeAfter bans of its peer are suppressed, and a revocation lasts until
-- the next good login: every ban found is refused, or reported where it is out of scope.
theorem exemption_bounded (f : Filter) (hrevoke : 0 < f.cfg.revokeAfter) (peer : Bytes) :
    (∀ w e rest s, Keyspace.live w.keys e.time (keySuppressed ++ peer) = none →
      Along f.step f.Quiet w (e :: rest) → Along f.step (Filter.Counting peer) (f.next w e) rest →
      runSteps f.step w (e :: rest) = some s → f.suppressions peer w (e :: rest) ≤ f.cfg.revokeAfter) ∧
    ∀ w e s, f.Quiet w e → f.Revokes peer w e →
      Reaches f.step (fun w e => f.Quiet w e ∧ ¬ f.GoodLogin peer e) (f.next w e) s →
      ∀ time ip authFacing down found, f.subject ip = some peer → s.ban time peer = some found →
        (f.check (s.conn time down) ip authFacing).1.erred = false →
        ((authFacing = true ∨ f.Everywhere found.value) →
          (f.check (s.conn time down) ip authFacing).2.banned = true) ∧
        ((f.check (s.conn time down) ip authFacing).2.banned = false →
          (f.check (s.conn time down) ip authFacing).2.shadowBanned = true) := by
  constructor
  · intro w e rest s hn hq hc hr
    obtain ⟨t, hs, hre⟩ := bind_eq_some_iff.mp hr
    obtain ⟨hf, hqu⟩ := hq
    obtain ⟨-, rfl⟩ := Filter.step_eq hs
    have hz : ((0 : Nat) : Int) ≤ Keyspace.count w.keys e.time (keySuppressed ++ peer) := by
      rw [Keyspace.count_eq_zero hn]
      exact le_rfl
    rw [Filter.suppressions]
    obtain ⟨hno, hne⟩ | ⟨hy, hne, hm⟩ :=
      Filter.counted_next hrevoke hf (Filter.Counted.of_none 0 hn) hz
    · have hle := Filter.suppressions_le hrevoke hne hrevoke.le (hqu _ hs) hc hre
      rw [hno, if_neg Bool.false_ne_true]
      push_cast at hle ⊢
      omega
    · have hle := Filter.suppressions_le hrevoke hne (by exact_mod_cast hm) (hqu _ hs) hc hre
      rw [hy, if_pos rfl]
      push_cast at hle ⊢
      omega
  · intro w e s hq hrv hr time ip authFacing down found hsu hb hok
    have hu : f.Unmarked peer s := by
      refine hr.invariant (Filter.unmarked_revokes hq hrv) fun w e t h hco hs => ?_
      obtain ⟨-, rfl⟩ := Filter.step_eq hs
      exact Filter.unmarked_next h hco.1 hco.2
    rw [Filter.check_unmarked hu hsu hb hok, Filter.sentence]
    split
    · next hsh =>
        refine ⟨fun hsc => ?_, fun _ => rfl⟩
        obtain hfa | he := hsc
        · exact absurd hfa hsh.1
        · rw [he hsh.2.1] at hsh
          cases hsh.2.2
    · exact ⟨fun _ => rfl, fun h => (by cases h)⟩

section Sample

instance (f : Filter) (w : World) (e : Event) : Decidable (f.Quiet w e) :=
  decidable_of_iff ((match e.op with | .unban _ => false | _ => true) = true ∧
      (f.exec (w.conn e.time e.down) e.op).erred = false) <| by
    unfold Filter.Quiet
    cases e.op <;> simp

instance (peer : Bytes) (w : World) (e : Event) : Decidable (Filter.Counting peer w e) :=
  inferInstanceAs (Decidable (_ = true))

def goodLogin : Event := ⟨.recordGood peerText, 0, noFaults⟩

def knock : Event := ⟨.check peerText true, 2, noFaults⟩

def marked : World := shipped.next (shipped.next emptyWorld goodLogin) (guess 1)

def spent : World := (List.replicate 10 knock).foldl shipped.next marked

lemma spent_reached : Reaches shipped.step shipped.Quiet emptyWorld spent := by
  have hr : runSteps shipped.step emptyWorld (goodLogin :: guess 1 :: List.replicate 10 knock) = some spent := rfl
  exact Reaches.of_along (by decide +kernel) hr

lemma spent_revokes : shipped.Quiet spent knock ∧ shipped.Revokes peerText spent knock :=
  ⟨by decide +kernel, peerText, true, rfl, by decide +kernel, by decide +kernel, by decide +kernel, by decide +kernel⟩

theorem exemption_bounded_spent :
    shipped.suppressions peerText marked (List.replicate 10 knock) ≤ shipped.cfg.revokeAfter ∧
      (shipped.check ((shipped.next spent knock).conn 3 noFaults) peerText true).2.banned = true := by
  obtain ⟨hb, he⟩ := exemption_bounded shipped (by decide) peerText
  refine ⟨hb marked knock _ spent (by decide +kernel) (by decide +kernel)
    (by decide +kernel) rfl, ?_⟩
  exact (he spent knock _ spent_revokes.1 spent_revokes.2 .refl 3 peerText true noFaults
    ⟨reasonNonexistentAccount, some 86400001⟩ (by decide +kernel) (by decide +kernel) (by decide +kernel)).1
    (Or.inl rfl)

-- After the revocation inbound SMTP still serves a peer whose ban is auth-derived.
theorem revoked_ban_shadowed :
    ∃ w e, 0 < shipped.cfg.revokeAfter ∧ Reaches shipped.step shipped.Quiet emptyWorld w ∧ shipped.Quiet w e ∧
      shipped.Revokes peerText w e ∧ ((shipped.next w e).ban 3 peerText).isSome = true ∧
      (shipped.check ((shipped.next w e).conn 3 noFaults) peerText false).1.erred = false ∧
      (shipped.check ((shipped.next w e).conn 3 noFaults) peerText false).2 = ⟨false, 0, reasonBanned, true⟩ :=
  ⟨spent, knock, by decide, spent_reached, spent_revokes.1, spent_revokes.2, by decide +kernel, by decide +kernel,
    by decide +kernel⟩

end Sample

end Maildancer.PeerFilter

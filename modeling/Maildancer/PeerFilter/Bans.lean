import Maildancer.PeerFilter.Outcome

namespace Maildancer.PeerFilter

open Text

def World.ban (w : World) (time : Int) (peer : Bytes) : Option Stored :=
  Keyspace.live w.keys time (keyBan ++ peer)

-- The second expiry is not before the first; none is never.
def NotEarlier : Option Int → Option Int → Prop
  | _, none => True
  | none, some _ => False
  | some old, some new => old ≤ new

lemma NotEarlier.refl (expiry : Option Int) : NotEarlier expiry expiry := by
  rcases expiry with _ | last
  · trivial
  · exact le_refl last

lemma NotEarlier.trans {first second third : Option Int} (h : NotEarlier first second)
    (h' : NotEarlier second third) : NotEarlier first third := by
  rcases third with _ | last
  · trivial
  rcases second with _ | middle
  · exact h'.elim
  · cases first with
    | none => exact h.elim
    | some start => exact le_trans h h'

variable {old : Stored} {time : Int} {ip : Bytes}

lemma NotEarlier.alive {new : Stored} (h : NotEarlier old.expiry new.expiry)
    (ha : old.alive time = true) : new.alive time = true := by
  obtain ⟨oldValue, oldExpiry⟩ := old
  obtain ⟨newValue, newExpiry⟩ := new
  rcases newExpiry with _ | last
  · rfl
  · rcases oldExpiry with _ | oldLast
    · exact h.elim
    · exact decide_eq_true ((of_decide_eq_true ha).trans h)

namespace Filter

variable {f : Filter} {w t : World} {e : Event}

def Everywhere (f : Filter) (reason : Bytes) : Prop :=
  f.cfg.authBanScope = .authListeners → isAuthDerived reason = false

-- An operation without Redis errors other than Unban.
def Quiet (f : Filter) (w : World) (e : Event) : Prop :=
  (∀ ip, e.op ≠ .unban ip) ∧ (f.exec (w.conn e.time e.down) e.op).erred = false

-- The condition on the state before an operation: a ban is not replaced by one
-- that ends before it or holds on fewer listeners.
def Harmless (f : Filter) (w : World) (e : Event) : Prop :=
  ∀ peer reason, f.bans w.keys e.time e.op = some (peer, reason) → ∀ old, w.ban e.time peer = some old →
    NotEarlier old.expiry (f.newExpiry w.keys e.time peer) ∧ (f.Everywhere old.value → f.Everywhere reason)

def Kept (f : Filter) (time : Int) (w t : World) : Prop :=
  ∀ peer old, w.ban time peer = some old → ∃ new, t.keys.lookup (keyBan ++ peer) = some new ∧
    NotEarlier old.expiry new.expiry ∧ (f.Everywhere old.value → f.Everywhere new.value)

lemma step_eq (h : f.step w e = some t) : w.clock ≤ e.time ∧ f.next w e = t := by
  unfold step at h
  split at h
  · next hc => exact ⟨hc, Option.some.inj h⟩
  · cases h

lemma step_outcome (hq : f.Quiet w e) (h : f.step w e = some t) : w.clock ≤ e.time ∧ t.clock = e.time ∧
      ∃ c, t.keys = c.keys ∧ f.Outcome e.op (w.conn e.time e.down) c := by
  obtain ⟨hc, rfl⟩ := step_eq h
  exact ⟨hc, rfl, _, rfl, outcome_exec hq.1 hq.2⟩

variable {peer : Bytes}

lemma ban_after (hq : f.Quiet w e) (h : f.step w e = some t) (hold : w.ban e.time peer = some old) :
    t.keys.lookup (keyBan ++ peer) = some old ∧ (∀ reason, f.bans w.keys e.time e.op ≠ some (peer, reason)) ∨
      ∃ reason, f.bans w.keys e.time e.op = some (peer, reason) ∧
        t.keys.lookup (keyBan ++ peer) = some ⟨reason, f.newExpiry w.keys e.time peer⟩ := by
  have hl := (Keyspace.live_eq_some.mp hold).1
  obtain ⟨-, -, c, hk, ⟨hn, hu⟩ | ⟨banned, reason, hb, hr⟩⟩ := step_outcome hq h
  · refine Or.inl ⟨?_, fun reason hs => (nomatch hn.symm.trans hs)⟩
    rw [hk]
    exact (hu.bans peer).trans hl
  rw [hk]
  by_cases hp : peer = banned
  · subst hp
    exact Or.inr ⟨reason, hb, hr.ban⟩
  · refine Or.inl ⟨(hr.otherBans peer hp).trans hl, fun reason' hs => hp ?_⟩
    exact (Prod.mk.inj (Option.some.inj (hs.symm.trans hb))).1

lemma kept_iff_harmless (hq : f.Quiet w e) (h : f.step w e = some t) : f.Kept e.time w t ↔ f.Harmless w e := by
  constructor
  · intro hk peer reason hb old hold
    obtain ⟨-, hn⟩ | ⟨reason', hba, hnew⟩ := ban_after hq h hold
    · exact absurd hb (hn reason)
    obtain rfl := (Prod.mk.inj (Option.some.inj (hba.symm.trans hb))).2
    obtain ⟨new, hl, he, hs⟩ := hk peer old hold
    obtain rfl := Option.some.inj (hnew.symm.trans hl)
    exact ⟨he, hs⟩
  · intro hh peer old hold
    obtain ⟨hsa, -⟩ | ⟨reason, hb, hnew⟩ := ban_after hq h hold
    · exact ⟨old, hsa, NotEarlier.refl _, id⟩
    · exact ⟨_, hnew, hh peer reason hb old hold⟩

def Stands (f : Filter) (peer : Bytes) (old : Stored) (s : World) : Prop :=
  old.alive s.clock = true → ∃ new, s.keys.lookup (keyBan ++ peer) = some new ∧
    NotEarlier old.expiry new.expiry ∧ f.Everywhere new.value

lemma stands_step (hs : f.Stands peer old w) (hq : f.Quiet w e)
    (hh : f.Harmless w e) (h : f.step w e = some t) : f.Stands peer old t := by
  intro ha
  obtain ⟨hc, ht, -⟩ := step_outcome hq h
  rw [ht] at ha
  obtain ⟨new, hl, he, hsc⟩ := hs (old.alive_mono hc ha)
  have hn := Keyspace.live_eq_some.mpr ⟨hl, he.alive ha⟩
  obtain ⟨newer, hlo, hex, hso⟩ := (kept_iff_harmless hq h).mpr hh peer new hn
  exact ⟨newer, hlo, he.trans hex, hso hsc⟩

lemma check_banned {c : Conn} {found : Stored} (ha : f.allowed ip = false)
    (hp : normalizePrefix f.net ip ≠ [])
    (hf : Keyspace.live c.keys c.now (keyBan ++ normalizePrefix f.net ip) = some found)
    (hs : f.Everywhere found.value) (hok : (f.check c ip false).1.erred = false) :
    (f.check c ip false).2.banned = true ∨ (f.suppressBan c (normalizePrefix f.net ip)).2 = true := by
  obtain ⟨hn, -⟩ | ⟨_, hl, suppressed, hsu, hv⟩ :=
    check_ok (subject_eq_some.mpr ⟨ha, rfl, hp⟩) hok
  · cases hn.symm.trans hf
  obtain rfl := Option.some.inj (hl.symm.trans hf)
  rcases suppressed with _ | _
  · left
    rw [hv, if_neg Bool.false_ne_true, sentence, if_neg]
    rintro ⟨-, hli, hau⟩
    rw [hs hli] at hau
    cases hau
  · exact Or.inr (congrArg Prod.snd hsu)

end Filter

-- Along every run of harmless operations a ban that is not auth-derived answers every Check until it expires,
-- and an operation weakens no ban exactly if it is harmless.
theorem bans_kept (f : Filter) {w s : World}
    (hrun : Reaches f.step (fun w e => f.Quiet w e ∧ f.Harmless w e) w s) :
    (∀ peer old, w.ban w.clock peer = some old → isAuthDerived old.value = false →
      ∀ time, s.clock ≤ time → (∀ last, old.expiry = some last → time < last) →
      ∀ ip, normalizePrefix f.net ip = peer → peer ≠ [] → f.allowed ip = false →
      ∀ down, (f.check (s.conn time down) ip false).1.erred = false →
        (f.check (s.conn time down) ip false).2.banned = true ∨
          (f.suppressBan (s.conn time down) peer).2 = true) ∧
    ∀ e t, f.Quiet s e → f.step s e = some t → (f.Kept e.time s t ↔ f.Harmless s e) := by
  refine ⟨?_, fun e t hq hst => Filter.kept_iff_harmless hq hst⟩
  intro peer old hold hr time hc hb ip hip hp ha down hok
  have hal := (Stored.alive_iff time old).mpr fun last hl => (hb last hl).le
  have hsa : f.Stands peer old w :=
    fun _ => ⟨old, (Keyspace.live_eq_some.mp hold).1, NotEarlier.refl _, fun _ => hr⟩
  have hsn := hrun.invariant hsa fun s e t hs hok hst => Filter.stands_step hs hok.1 hok.2 hst
  obtain ⟨new, hlo, he, hsc⟩ := hsn (old.alive_mono hc hal)
  subst hip
  exact Filter.check_banned ha hp
    (Keyspace.live_eq_some.mpr ⟨hlo, he.alive hal⟩) hsc hok

section Sample

def peerText : Bytes := ascii "192.0.2.1"

def oneAddress : NetText where
  parseIP ip := if ip = peerText then some ⟨0, 0xffffc0000201⟩ else none
  format4 _ := peerText
  format6 _ := ascii "::"

def shipped : Filter := ⟨oneAddress, defaults⟩

-- Repeated bans that outlast the strikes.
def patient : Filter := ⟨oneAddress, { defaults with banTTLRepeat := 60 * day }⟩

def emptyWorld : World := ⟨∅, 0⟩

def noFaults : Command → Bool := fun _ => false

def manualBan (time : Int) : Event := ⟨.ban peerText reasonManual, time, noFaults⟩

def guess (time : Int) : Event := ⟨.ban peerText reasonNonexistentAccount, time, noFaults⟩

def afterBan : World := shipped.next emptyWorld (manualBan 0)

def afterGuess : World := shipped.next afterBan (guess 1)

def twiceBanned : World := patient.next (patient.next emptyWorld (manualBan 0)) (manualBan 1)

def lateGuess : Event := guess (31 * 24 * 3600 * 1000)

lemma quiet_ban {f : Filter} {w : World} {reason : Bytes} {down : Command → Bool}
    (h : (f.exec (w.conn time down) (.ban ip reason)).erred = false) :
    f.Quiet w ⟨.ban ip reason, time, down⟩ := ⟨fun _ heq => (nomatch heq), h⟩

-- A guess turns an operator's ban into one that inbound SMTP ignores, and a ban
-- after the strikes have expired ends an earlier one sooner.
theorem ban_weakened : loginOp peerText .userNotFound = some (guess 1).op ∧
    (∃ w s old, w.ban w.clock peerText = some old ∧ isAuthDerived old.value = false ∧
      Reaches shipped.step shipped.Quiet w s ∧ (∀ last, old.expiry = some last → s.clock < last) ∧
      (shipped.check (s.conn s.clock noFaults) peerText false).1.erred = false ∧
      (shipped.check (s.conn s.clock noFaults) peerText false).2.banned = false ∧
      (shipped.suppressBan (s.conn s.clock noFaults) peerText).2 = false) ∧
    ∃ s e t old new, patient.cfg.banTTL ≤ patient.cfg.banTTLRepeat ∧
      Reaches patient.step patient.Quiet emptyWorld s ∧ patient.Quiet s e ∧ patient.step s e = some t ∧
      s.ban e.time peerText = some old ∧ t.ban e.time peerText = some new ∧
      ¬ NotEarlier old.expiry new.expiry := by
  refine ⟨rfl, ?_, ?_⟩
  · refine ⟨afterBan, afterGuess, ⟨reasonManual, some 86400000⟩, by decide +kernel, by decide, ?_, ?_,
      by decide +kernel, by decide +kernel, by decide +kernel⟩
    · exact Reaches.refl.tail (guess 1) (quiet_ban (by decide +kernel)) (if_pos (by decide))
    · intro last hl
      cases hl
      decide
  · have hf : Reaches patient.step patient.Quiet emptyWorld (patient.next emptyWorld (manualBan 0)) :=
      Reaches.refl.tail (manualBan 0) (quiet_ban (by decide +kernel)) (if_pos (by decide))
    refine ⟨twiceBanned, lateGuess, patient.next twiceBanned lateGuess, ⟨reasonManual, some 5184000001⟩,
      ⟨reasonNonexistentAccount, some 2764800000⟩, by decide, ?_, quiet_ban (by decide +kernel),
      if_pos (by decide), by decide +kernel, by decide +kernel, ?_⟩
    · exact hf.tail (manualBan 1) (quiet_ban (by decide +kernel)) (if_pos (by decide))
    · intro hn
      have hle : (5184000001 : Int) ≤ 2764800000 := hn
      omega

lemma harmless_manualBan : shipped.Harmless afterBan (manualBan 1) := by
  intro peer reason hb old hold
  have hs : shipped.bans afterBan.keys 1 (manualBan 1).op = some (peerText, reasonManual) := by decide +kernel
  have hf : afterBan.ban 1 peerText = some ⟨reasonManual, some 86400000⟩ := by decide +kernel
  have hn : shipped.newExpiry afterBan.keys 1 peerText = some 604800001 := by decide +kernel
  obtain ⟨rfl, rfl⟩ := Prod.mk.inj (Option.some.inj (hs.symm.trans hb))
  obtain rfl := Option.some.inj (hf.symm.trans hold)
  refine ⟨?_, id⟩
  show NotEarlier (some 86400000) (shipped.newExpiry afterBan.keys 1 peerText)
  rw [hn]
  show (86400000 : Int) ≤ 604800001
  omega

theorem bans_kept_twice :
    (shipped.check ((shipped.next afterBan (manualBan 1)).conn 2 noFaults) peerText false).2.banned = true ∨
      (shipped.suppressBan ((shipped.next afterBan (manualBan 1)).conn 2 noFaults) peerText).2 = true := by
  have hr : Reaches shipped.step (fun w e => shipped.Quiet w e ∧ shipped.Harmless w e) afterBan
      (shipped.next afterBan (manualBan 1)) :=
    Reaches.refl.tail _ ⟨quiet_ban (by decide +kernel), harmless_manualBan⟩ (if_pos (by decide))
  refine (bans_kept shipped hr).1 peerText ⟨reasonManual, some 86400000⟩ (by decide +kernel) (by decide) 2
    (by decide) ?_ peerText (by decide) (by decide) (by decide) noFaults (by decide +kernel)
  intro last hl
  cases hl
  decide

end Sample

end Maildancer.PeerFilter

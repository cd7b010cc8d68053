import Maildancer.Auth.Changes
import Maildancer.Manager.Recipients
import Maildancer.Manager.Registry

namespace Maildancer.Manager

open Option Function List Text Queue Passwd Auth

namespace Directory

variable (dir : Directory) (h : Hasher) (c : CaseMap)

-- AuthenticateWithDomain. The rate limiter can only refuse.
def authenticate (limited : Bool) (keys : KeyResult) (username password : Bytes) : Except AuthError AuthSession :=
  if limited then .error .rateLimited
  else match authRoute c dir.hosting username with
    | .domain name base =>
      match (dir.host name).bind Host.agent with
      | none => .error .agentInit
      | some agent =>
        (agent.authenticate h keys base password).map fun session =>
          { session with mailbox := base ++ atSign :: (splitUsername username).2 }
    | .notHosted => .error .domainNotHosted
    | .fallback user => dir.fallback.authenticate h keys user password
    | .nowhere => .error .authFailed

-- The lookup that spawnSession makes.
def sessionCredentials (username : Bytes) : Option Credentials.Info :=
  (cut atSign username).bind fun (localpart, domainName) =>
    Credentials.lookup dir.maps dir.tree dir.domainsPath dir.domainsDataPath localpart domainName

def Authenticated (username : Bytes) : Prop :=
  ∃ password limited keys session, dir.authenticate h c limited keys username password = .ok session

-- The ids that the maps record for the account that an agent is asked about.
def Recorded (info : Credentials.Info) : Route → Prop
  | .domain name base => dir.maps.domainGID name = some info.gid ∧ dir.maps.userUID name base = some info.uid
  | .fallback user => ∃ localpart domainName, user = localpart ++ atSign :: domainName ∧
      dir.maps.domainGID domainName = some info.gid ∧ dir.maps.userUID domainName localpart = some info.uid
  | .notHosted => False
  | .nowhere => False

end Directory

-- The registry with what each mail-session was spawned with, and the tokens
-- that Login has returned with the user names that they were returned for.
structure Sessions where
  manager : Manager
  spawnedAs : Nat → Option Credentials.Info
  issued : List (Bytes × Bytes)

inductive SessionStep
  | login (username password token : Bytes) (limited : Bool) (keys : KeyResult) (alive : Bool)
  | spawned (username mailbox token : Bytes)
  | spawnFailed (username mailbox : Bytes)
  | logout (token : Bytes)
  | fire (timer e : Nat)
  | reap (e : Nat)
  | exit (e : Nat)
  | close

namespace Sessions

def new : Sessions := ⟨.new, fun _ => none, []⟩

def sessionForToken (s : Sessions) (token : Bytes) : Option Nat :=
  (s.manager.byToken.find? fun p => p.1 = token).map Prod.snd

def withManager (s : Sessions) (m : Manager) : Sessions := { s with manager := m }

variable (dir : Directory) (h : Hasher) (c : CaseMap)

-- Tokens are random and never drawn twice.
def step (s : Sessions) : SessionStep → Option Sessions
  | .login username password token limited keys alive =>
    if token ∈ s.issued.map Prod.fst then none
    else match dir.authenticate h c limited keys username password with
      | .error _ => some s
      | .ok session =>
        (s.manager.step (.login username session.mailbox token alive)).map fun m =>
          if (s.manager.byUser username).isSome ∧ alive then
            { s with manager := m, issued := (token, username) :: s.issued }
          else s.withManager m
  | .spawned username mailbox token =>
    if token ∈ s.issued.map Prod.fst then none
    else match dir.sessionCredentials username with
      | none => none
      | some info =>
        (s.manager.step (.spawned username mailbox token)).map fun m =>
          { manager := m
            spawnedAs := Function.update s.spawnedAs s.manager.nextEntry (some info)
            issued := (token, username) :: s.issued }
  | .spawnFailed username mailbox => (s.manager.step (.spawnFailed username mailbox)).map s.withManager
  | .logout token => (s.manager.step (.logout token)).map s.withManager
  | .fire timer e => (s.manager.step (.fire timer e)).map s.withManager
  | .reap e => (s.manager.step (.reap e)).map s.withManager
  | .exit e => (s.manager.step (.exit e)).map s.withManager
  | .close => (s.manager.step .close).map s.withManager

-- A token opens a session with the ids of the account whose password was checked.
def Isolated (s : Sessions) : Prop :=
  ∀ p ∈ s.issued, ∀ e, s.sessionForToken p.1 = some e →
    ∃ info, s.spawnedAs e = some info ∧ dir.Recorded info (authRoute c dir.hosting p.2)

end Sessions

structure Shrinks (m n : Manager) : Prop where
  names : ∀ e, (n.entries e).username = (m.entries e).username
  nextEntry : n.nextEntry = m.nextEntry
  users : ∀ u e, n.byUser u = some e → m.byUser u = some e
  tokens : n.byToken ⊆ m.byToken
  spawning : n.spawning ⊆ m.spawning

namespace Shrinks

variable {m n k : Manager}

lemma refl (m : Manager) : Shrinks m m :=
  ⟨fun _ => rfl, rfl, fun _ _ h => h, List.Subset.refl _, List.Subset.refl _⟩

lemma trans (h : Shrinks m n) (h' : Shrinks n k) : Shrinks m k where
  names e := (h'.names e).trans (h.names e)
  nextEntry := h'.nextEntry.trans h.nextEntry
  users u e hu := h.users u e (h'.users u e hu)
  tokens := List.Subset.trans h'.tokens h.tokens
  spawning := List.Subset.trans h'.spawning h.spawning

lemma setEntry {e : Nat} {entry : SessionEntry} (hn : entry.username = (m.entries e).username) :
    Shrinks m (m.setEntry e entry) :=
  ⟨username_setEntry hn, rfl, fun _ _ h => h, List.Subset.refl _, List.Subset.refl _⟩

lemma killEntry (e : Nat) : Shrinks m (m.killEntry e) := setEntry rfl

lemma stopTimer (e : Nat) : Shrinks m (m.stopTimer e) := by
  unfold Manager.stopTimer
  split
  · exact refl m
  · exact ⟨username_setEntry rfl, rfl, fun _ _ h => h, List.Subset.refl _, List.Subset.refl _⟩

lemma startTimer (e : Nat) : Shrinks m (m.startTimer e) :=
  ⟨username_setEntry rfl, rfl, fun _ _ h => h, List.Subset.refl _, List.Subset.refl _⟩

lemma unregister (e : Nat) : Shrinks m (m.unregister e) where
  names _ := rfl
  nextEntry := rfl
  users u d hu := by
    by_cases hn : u = (m.entries e).username
    · simp [Manager.unregister, hn] at hu
    · simpa [Manager.unregister, update_of_ne hn] using hu
  tokens _ hp := mem_of_mem_filter hp
  spawning := List.Subset.refl _

lemma removeEntry (e : Nat) : Shrinks m (m.removeEntry e) :=
  ((stopTimer e).trans (unregister e)).trans (killEntry e)

lemma logout {token : Bytes} (hst : m.logout token = some n) : Shrinks m n := by
  unfold Manager.logout at hst
  split at hst
  · cases hst
  case h_2 key e hf =>
    have hd : Shrinks m { m with byToken := m.byToken.filter fun p => p.1 ≠ token } :=
      ⟨fun _ => rfl, rfl, fun _ _ h => h, fun _ hp => mem_of_mem_filter hp, List.Subset.refl _⟩
    have hc : Shrinks m ({ m with byToken := m.byToken.filter fun p => p.1 ≠ token }.setEntry e
        { m.entries e with refCount := (m.entries e).refCount - 1 }) := hd.trans (setEntry rfl)
    cases hst
    split
    · exact hc.trans (startTimer e)
    · exact hc

lemma reapSession (e : Nat) : Shrinks m (m.reapSession e) := by
  unfold Manager.reapSession
  split
  · exact refl m
  · exact (unregister e).trans (killEntry e)

lemma monitorProcess (e : Nat) : Shrinks m (m.monitorProcess e) := by
  have hk := killEntry (m := m) e
  simp only [Manager.monitorProcess]
  split
  · exact hk.trans ((stopTimer e).trans (unregister e))
  · exact hk

lemma close : Shrinks m m.close where
  names e := by
    simp only [Manager.close]
    split <;> rfl
  nextEntry := rfl
  users _ _ hu := absurd hu.symm (some_ne_none _)
  tokens := nil_subset _
  spawning := List.Subset.refl _

lemma of_step {a : ManagerStep} (hst : m.step a = some n)
    (hl : ∀ username mailbox token alive, a ≠ .login username mailbox token alive)
    (hsp : ∀ username mailbox token, a ≠ .spawned username mailbox token) : Shrinks m n := by
  cases a with
  | login username mailbox token alive => exact absurd rfl (hl username mailbox token alive)
  | spawned username mailbox token => exact absurd rfl (hsp username mailbox token)
  | spawnFailed username mailbox =>
    simp only [Manager.step] at hst
    split_ifs at hst
    exact Option.some.inj hst ▸ ⟨fun _ => rfl, rfl, fun _ _ h => h, List.Subset.refl _, erase_subset⟩
  | logout token => exact logout hst
  | fire timer e =>
    simp only [Manager.step] at hst
    split_ifs at hst
    exact Option.some.inj hst ▸ ⟨fun _ => rfl, rfl, fun _ _ h => h, List.Subset.refl _, List.Subset.refl _⟩
  | reap e =>
    simp only [Manager.step] at hst
    split_ifs at hst
    have h := reapSession (m := m) e
    exact Option.some.inj hst ▸ ⟨h.names, h.nextEntry, h.users, h.tokens, h.spawning⟩
  | exit e =>
    simp only [Manager.step] at hst
    split_ifs at hst
    have h := monitorProcess (m := m) e
    exact Option.some.inj hst ▸ ⟨h.names, h.nextEntry, h.users, h.tokens, h.spawning⟩
  | close => exact Option.some.inj hst ▸ close

end Shrinks

namespace Sessions

variable {dir : Directory} {h : Hasher} {c : CaseMap} {s t : Sessions}

-- Every token leads to an entry of the user name that it was returned for, and
-- every entry was spawned with what the lookup gives for its user name.
structure Inv (dir : Directory) (h : Hasher) (c : CaseMap) (s : Sessions) : Prop where
  users : ∀ u e, s.manager.byUser u = some e → (s.manager.entries e).username = u ∧ e < s.manager.nextEntry
  tokens : ∀ p ∈ s.manager.byToken,
    p.2 < s.manager.nextEntry ∧ (p.1, (s.manager.entries p.2).username) ∈ s.issued
  spawned : ∀ e < s.manager.nextEntry,
    ∃ info, s.spawnedAs e = some info ∧ dir.sessionCredentials (s.manager.entries e).username = some info
  once : (s.issued.map Prod.fst).Nodup
  issued : ∀ p ∈ s.issued, dir.Authenticated h c p.2
  spawning : ∀ q ∈ s.manager.spawning, dir.Authenticated h c q.1

namespace Inv

lemma new : Inv dir h c new where
  users _ _ hu := absurd hu.symm (some_ne_none _)
  tokens _ hp := absurd hp not_mem_nil
  spawned e he := absurd he (Nat.not_lt_zero e)
  once := nodup_nil
  issued _ hp := absurd hp not_mem_nil
  spawning _ hq := absurd hq not_mem_nil

variable {username mailbox token : Bytes} {e : Nat} {info : Credentials.Info} (hs : Inv dir h c s)
include hs

lemma shrinks {m : Manager} (hm : Shrinks s.manager m) : Inv dir h c (s.withManager m) where
  users u e hu := by
    have hold := hs.users u e (hm.users u e hu)
    exact ⟨(hm.names e).trans hold.1, hold.2.trans_eq hm.nextEntry.symm⟩
  tokens p hp := by
    obtain ⟨hlt, hi⟩ := hs.tokens p (hm.tokens hp)
    rw [← hm.names] at hi
    exact ⟨hlt.trans_eq hm.nextEntry.symm, hi⟩
  spawned e he := by
    obtain ⟨info, hin, hl⟩ := hs.spawned e (he.trans_eq hm.nextEntry)
    exact ⟨info, hin, (congrArg _ (hm.names e)).trans hl⟩
  once := hs.once
  issued := hs.issued
  spawning q hq := hs.spawning q (hm.spawning hq)

lemma addToken (hu : s.manager.byUser username = some e)
    (hf : token ∉ s.issued.map Prod.fst) (ha : dir.Authenticated h c username) :
    Inv dir h c { s with manager := s.manager.generateToken e token, issued := (token, username) :: s.issued } where
  users := hs.users
  tokens p hp := by
    rcases mem_append.mp hp with hp | hp
    · obtain ⟨hlt, hi⟩ := hs.tokens p hp
      exact ⟨hlt, mem_cons_of_mem _ hi⟩
    · obtain rfl := mem_singleton.mp hp
      obtain ⟨hn, hlt⟩ := hs.users username e hu
      exact ⟨hlt, hn ▸ mem_cons_self⟩
  spawned := hs.spawned
  once := nodup_cons.mpr ⟨hf, hs.once⟩
  issued p hp := by
    rcases mem_cons.mp hp with rfl | hp
    · exact ha
    · exact hs.issued p hp
  spawning := hs.spawning

lemma reuse (hu : s.manager.byUser username = some e)
    (hf : token ∉ s.issued.map Prod.fst) (ha : dir.Authenticated h c username) :
    Inv dir h c { s with manager := s.manager.reuse e token, issued := (token, username) :: s.issued } := by
  let m := s.manager.stopTimer e
  have hst := Shrinks.stopTimer (m := s.manager) e
  have hc : Shrinks s.manager (m.setEntry e { m.entries e with refCount := (m.entries e).refCount + 1 }) :=
    hst.trans (Shrinks.setEntry rfl)
  have hu' : m.byUser username = some e := by
    rw [show m.byUser = s.manager.byUser from (SameRegistry.stopTimer e).byUser]
    exact hu
  exact (hs.shrinks hc).addToken hu' hf ha

lemma pending (ha : dir.Authenticated h c username) :
    Inv dir h c (s.withManager { s.manager with spawning := (username, mailbox) :: s.manager.spawning }) where
  users := hs.users
  tokens := hs.tokens
  spawned := hs.spawned
  once := hs.once
  issued := hs.issued
  spawning q hq := by
    rcases mem_cons.mp hq with rfl | hq
    · exact ha
    · exact hs.spawning q hq

lemma login {alive : Bool} (hf : token ∉ s.issued.map Prod.fst) (ha : dir.Authenticated h c username) :
    Inv dir h c (if (s.manager.byUser username).isSome ∧ alive then
      { s with manager := s.manager.login username mailbox token alive, issued := (token, username) :: s.issued }
      else s.withManager (s.manager.login username mailbox token alive)) := by
  unfold Manager.login
  rcases hu : s.manager.byUser username with _ | e
  · exact hs.pending ha
  · cases alive with
    | true => exact hs.reuse hu hf ha
    | false => exact (hs.shrinks (Shrinks.removeEntry e)).pending ha

omit hs in
lemma entries_addEntry (m : Manager) (username mailbox : Bytes) :
    (m.addEntry username mailbox).entries m.nextEntry = ⟨username, mailbox, 1, none, false⟩ :=
  update_self _ _ _

lemma addEntry (mailbox : Bytes) (hi : dir.sessionCredentials username = some info) : Inv dir h c { s with
      manager := s.manager.addEntry username mailbox
      spawnedAs := update s.spawnedAs s.manager.nextEntry (some info) } := by
  have hold : ∀ e < s.manager.nextEntry, (s.manager.addEntry username mailbox).entries e = s.manager.entries e :=
    fun e he => update_of_ne he.ne _ _
  refine ⟨fun u e hu => ?_, fun p hp => ?_, fun e he => ?_, hs.once, hs.issued, hs.spawning⟩
  · obtain ⟨hn, hlt⟩ := hs.users u e hu
    exact ⟨(congrArg SessionEntry.username (hold e hlt)).trans hn, Nat.lt_succ_of_lt hlt⟩
  · obtain ⟨hlt, his⟩ := hs.tokens p hp
    rw [← hold p.2 hlt] at his
    exact ⟨Nat.lt_succ_of_lt hlt, his⟩
  rcases Nat.lt_succ_iff_lt_or_eq.mp he with hlt | rfl
  · obtain ⟨old, hsp, hl⟩ := hs.spawned e hlt
    refine ⟨old, (update_of_ne hlt.ne _ _).trans hsp, ?_⟩
    rw [← hl]
    exact congrArg (fun entry : SessionEntry => dir.sessionCredentials entry.username) (hold e hlt)
  · refine ⟨info, update_self _ _ _, ?_⟩
    rw [entries_addEntry]
    exact hi

lemma register (he : e < s.manager.nextEntry)
    (hn : (s.manager.entries e).username = username) (monitored : List Nat) :
    Inv dir h c (s.withManager { s.manager with
      byUser := update s.manager.byUser username (some e), monitored := monitored }) where
  users u d hu := by
    by_cases hsa : u = username
    · have hd : e = d := by simpa [hsa, withManager] using hu
      exact ⟨by rw [← hd, hsa]; exact hn, hd ▸ he⟩
    · exact hs.users u d (by simpa [withManager, update_of_ne hsa] using hu)
  tokens := hs.tokens
  spawned := hs.spawned
  once := hs.once
  issued := hs.issued
  spawning := hs.spawning

lemma spawn (hi : dir.sessionCredentials username = some info) (hf : token ∉ s.issued.map Prod.fst)
    (hp : (username, mailbox) ∈ s.manager.spawning) : Inv dir h c {
      manager := s.manager.spawned username mailbox token
      spawnedAs := update s.spawnedAs s.manager.nextEntry (some info)
      issued := (token, username) :: s.issued } := by
  have ha := hs.spawning _ hp
  have hadd := hs.addEntry mailbox hi
  have he := hadd.shrinks (m := { s.manager.addEntry username mailbox with
    spawning := s.manager.spawning.erase (username, mailbox) })
    ⟨fun _ => rfl, rfl, fun _ _ hu => hu, List.Subset.refl _, erase_subset⟩
  simp only [Manager.spawned]
  split
  case h_1 existing hu =>
    exact (he.shrinks (Shrinks.killEntry s.manager.nextEntry)).reuse hu hf ha
  case h_2 hu =>
    have hr := he.register (Nat.lt_succ_self s.manager.nextEntry)
      (congrArg SessionEntry.username (entries_addEntry s.manager username mailbox))
      (s.manager.nextEntry :: s.manager.monitored)
    exact hr.addToken (update_self _ _ _) hf ha

lemma step {a : SessionStep} (hst : s.step dir h c a = some t) : Inv dir h c t := by
  cases a with
  | login username password token limited keys alive =>
    simp only [Sessions.step] at hst
    split at hst
    · cases hst
    next hu =>
    split at hst
    · exact Option.some.inj hst ▸ hs
    next session ha =>
    obtain ⟨m, hm, ht⟩ := map_eq_some_iff.mp hst
    simp only [Manager.step] at hm
    split_ifs at hm
    rw [← ht, ← Option.some.inj hm]
    exact hs.login hu ⟨password, limited, keys, session, ha⟩
  | spawned username mailbox token =>
    simp only [Sessions.step] at hst
    split at hst
    · cases hst
    next hu =>
    split at hst
    · cases hst
    next info hi =>
    obtain ⟨m, hm, ht⟩ := map_eq_some_iff.mp hst
    simp only [Manager.step] at hm
    split_ifs at hm with he
    rw [← ht, ← Option.some.inj hm]
    exact hs.spawn hi hu (not_not.mp fun hn => he (.inr hn))
  | spawnFailed _ _ | logout _ | fire _ _ | reap _ | exit _ | close =>
    simp only [Sessions.step] at hst
    obtain ⟨m, hm, rfl⟩ := map_eq_some_iff.mp hst
    exact hs.shrinks (Shrinks.of_step hm (fun _ _ _ _ h => by cases h) fun _ _ _ h => by cases h)

end Inv

end Sessions

section Accounts

variable {dir : Directory} {h : Hasher} {c : CaseMap} {username localpart domainName : Bytes} {info : Credentials.Info}

def CleanKeys (maps : Credentials.Maps) : Prop :=
  (∀ domain gid, maps.domainGID domain = some gid → ∀ b ∈ [plusSign, atSign, slash], b ∉ domain) ∧
    ∀ domain user uid, maps.userUID domain user = some uid → ∀ b ∈ [plusSign, atSign, slash], b ∉ user

-- The ids are those of the domain whose agent has checked the password, however
-- the user name spells the domain.
def Directory.SameIds (dir : Directory) (h : Hasher) (c : CaseMap) : Prop :=
  ∀ username localpart domainName info, cut atSign username = some (localpart, domainName) →
    dir.Authenticated h c username → dir.sessionCredentials username = some info →
    (dir.host (c.lower domainName)).isSome →
    dir.maps.domainGID (c.lower domainName) = some info.gid ∧
      dir.maps.userUID (c.lower domainName) localpart = some info.uid

lemma sessionCredentials_eq_some (hk : CleanKeys dir.maps) (hi : dir.sessionCredentials username = some info) :
    ∃ localpart domainName, cut atSign username = some (localpart, domainName) ∧
      splitUsername username = (localpart, domainName) ∧ parseLocalPart localpart = (localpart, []) ∧
      dir.maps.domainGID domainName = some info.gid ∧ dir.maps.userUID domainName localpart = some info.uid := by
  obtain ⟨⟨localpart, domainName⟩, hc, hl⟩ := bind_eq_some_iff.mp hi
  obtain ⟨hg, hu, -⟩ := Credentials.lookup_eq_some hl
  have hat := hk.1 domainName info.gid hg atSign (by simp)
  have hp := hk.2 domainName localpart info.uid hu plusSign (by simp)
  refine ⟨localpart, domainName, hc, ?_, ?_, hg, hu⟩
  · rw [splitUsername, cutLast_eq_some.mpr ⟨(cut_eq_some.mp hc).1, hat⟩]
    rfl
  · rw [parseLocalPart, cut_eq_none hp]
    rfl

lemma authRoute_plain {hosting : Hosting} (hsp : splitUsername username = (localpart, domainName))
    (hp : parseLocalPart localpart = (localpart, [])) : authRoute c hosting username =
      if domainName ≠ [] ∧ hosting.hosted (c.lower domainName) then .domain (c.lower domainName) localpart
      else if domainName ≠ [] ∧ hosting.hasDomains then .notHosted
      else if hosting.hasFallback then .fallback username
      else .nowhere := by
  unfold authRoute
  rw [hsp]
  dsimp only
  rw [hp]
  rfl

lemma Directory.Authenticated.hosted (ha : dir.Authenticated h c username) :
    authRoute c dir.hosting username ≠ .notHosted := by
  obtain ⟨password, limited, keys, session, hse⟩ := ha
  intro hr
  unfold Directory.authenticate at hse
  rw [hr] at hse
  cases limited <;> cases hse

lemma Directory.SameIds.recorded (hsa : dir.SameIds h c) (hk : CleanKeys dir.maps)
    (ha : dir.Authenticated h c username) (hi : dir.sessionCredentials username = some info) :
    dir.Recorded info (authRoute c dir.hosting username) := by
  obtain ⟨localpart, domainName, hc, hsp, hp, hg, hu⟩ := sessionCredentials_eq_some hk hi
  have hn := ha.hosted
  rw [authRoute_plain hsp hp] at hn ⊢
  by_cases hh : domainName ≠ [] ∧ dir.hosting.hosted (c.lower domainName)
  · rw [if_pos hh]
    exact hsa username localpart domainName info hc ha hi hh.2
  rw [if_neg hh] at hn ⊢
  by_cases hd : domainName ≠ [] ∧ dir.hosting.hasDomains
  · rw [if_pos hd] at hn
    exact absurd rfl hn
  · rw [if_neg hd]
    exact ⟨localpart, domainName, (cut_eq_some.mp hc).1, hg, hu⟩

lemma Directory.sameIds_of_lower (hk : CleanKeys dir.maps)
    (hl : ∀ domain gid, dir.maps.domainGID domain = some gid → c.lower domain = domain) : dir.SameIds h c := by
  intro username localpart domainName info hc _ hi _
  obtain ⟨localpart', domainName', hcut', -, -, hg, hu⟩ := sessionCredentials_eq_some hk hi
  obtain ⟨rfl, rfl⟩ := Prod.mk.inj (Option.some.inj (hc.symm.trans hcut'))
  rw [hl domainName info.gid hg]
  exact ⟨hg, hu⟩

lemma exists_login (ha : dir.Authenticated h c username) (hi : dir.sessionCredentials username = some info)
    (token : Bytes) : ∃ s, Reaches (Sessions.step dir h c) (fun _ _ => True) .new s ∧
      (token, username) ∈ s.issued ∧ s.sessionForToken token = some 0 ∧ s.spawnedAs 0 = some info := by
  obtain ⟨password, limited, keys, session, hse⟩ := ha
  have hl : Sessions.new.step dir h c (.login username password token limited keys true) =
      some (Sessions.new.withManager { Manager.new with spawning := [(username, session.mailbox)] }) := by
    simp only [Sessions.step, hse]
    rfl
  have hsp : (Sessions.new.withManager { Manager.new with spawning := [(username, session.mailbox)] }).step dir h c
      (.spawned username session.mailbox token) = some {
        manager := { Manager.new with spawning := [(username, session.mailbox)] }.spawned username session.mailbox token
        spawnedAs := update Sessions.new.spawnedAs 0 (some info)
        issued := [(token, username)] } := by
    simp only [Sessions.step, hi, Manager.step]
    simp [Sessions.new, Sessions.withManager, Manager.new]
  refine ⟨_, .tail _ (.tail _ .refl trivial hl) trivial hsp, mem_singleton_self _, ?_, ?_⟩
  · simp [Sessions.sessionForToken, Manager.spawned, Manager.generateToken,
      Manager.addEntry, Manager.setEntry, Manager.new]
  · simp

end Accounts

lemma Sessions.Inv.isolated {dir : Directory} {h : Hasher} {c : CaseMap} {s : Sessions} (hs : Sessions.Inv dir h c s)
    (hk : CleanKeys dir.maps) (hsa : dir.SameIds h c) : s.Isolated dir c := by
  rintro ⟨token, username⟩ hp e he
  obtain ⟨p, hf, rfl⟩ := map_eq_some_iff.mp he
  have ht : p.1 = token := by simpa using List.find?_some hf
  obtain ⟨hlt, hi⟩ := hs.tokens p (mem_of_find?_eq_some hf)
  -- no token is returned twice, so the entry is one of the user who holds it
  have hn : (s.manager.entries p.2).username = username := by
    have hpa := inj_on_of_nodup_map hs.once hi hp ht
    exact congrArg Prod.snd hpa
  obtain ⟨info, hsp, hin⟩ := hs.spawned p.2 hlt
  rw [hn] at hin
  exact ⟨info, hsp, hsa.recorded hk (hs.issued _ hp) hin⟩

theorem token_opens_account_iff (dir : Directory) (h : Hasher) (c : CaseMap) (hkeys : CleanKeys dir.maps) :
    (∀ s, Reaches (Sessions.step dir h c) (fun _ _ => True) .new s → s.Isolated dir c) ↔ dir.SameIds h c := by
  constructor
  · intro ha username localpart domainName info hc hau hi hh
    obtain ⟨s, hr, his, ht, hsp⟩ := exists_login hau hi []
    obtain ⟨info', hin, hre⟩ := ha s hr _ his 0 ht
    obtain rfl := Option.some.inj (hsp.symm.trans hin)
    obtain ⟨localpart', domainName', hcu, hsl, hp, hg, hu⟩ := sessionCredentials_eq_some hkeys hi
    obtain ⟨rfl, rfl⟩ := Prod.mk.inj (Option.some.inj (hc.symm.trans hcu))
    by_cases hn : domainName = []
    · rw [hn, lower_nil]
      rw [hn] at hg hu
      exact ⟨hg, hu⟩
    · rw [authRoute_plain hsl hp, if_pos ⟨hn, hh⟩] at hre
      exact hre
  · intro hsa s hr
    have hiv : Sessions.Inv dir h c s := hr.invariant .new fun _ _ _ hs _ hst => hs.step hst
    exact hiv.isolated hkeys hsa

section Sample

def aliceDirectory (ids : List (Bytes × Nat × Nat)) : Directory where
  host := fun name =>
    if name = ascii "a.org" then
      some ⟨some ⟨[⟨ascii "alice", spell (ascii "password"), ascii "alice"⟩]⟩, fun _ => none, []⟩
    else none
  hasDomains := true
  fallback := ⟨[]⟩
  maps := {
    gids := some fun name => (ids.find? fun p => p.1 = name).map fun p => p.2.1
    uids := fun name => (ids.find? fun p => p.1 = name).map fun p user =>
      if user = ascii "alice" then some p.2.2 else none }
  tree := ⟨fun _ => false, fun _ => .missing, fun _ => .notExist⟩
  domainsPath := ascii "/c"
  domainsDataPath := []

variable {ids : List (Bytes × Nat × Nat)}

lemma aliceDirectory_gid {domain : Bytes} {gid : Nat}
    (hg : (aliceDirectory ids).maps.domainGID domain = some gid) : domain ∈ ids.map Prod.fst := by
  obtain ⟨p, hp, -⟩ := map_eq_some_iff.mp hg
  have hn : p.1 = domain := by simpa using List.find?_some hp
  exact mem_map.mpr ⟨p, mem_of_find?_eq_some hp, hn⟩

lemma aliceDirectory_keys
    (hi : ∀ domain ∈ ids.map Prod.fst, ∀ b ∈ [plusSign, atSign, slash], b ∉ domain) :
    CleanKeys (aliceDirectory ids).maps := by
  refine ⟨fun domain gid hg => hi domain (aliceDirectory_gid hg), fun domain user uid huid => ?_⟩
  obtain ⟨m, hm, hu⟩ := bind_eq_some_iff.mp huid
  obtain ⟨p, -, rfl⟩ := map_eq_some_iff.mp hm
  by_cases hn : user = ascii "alice"
  · rw [hn]
    decide +kernel
  · dsimp only at hu
    rw [if_neg hn] at hu
    cases hu

lemma aliceDirectory_authenticated {username : Bytes}
    (hn : username ∈ [ascii "alice@a.org", ascii "alice@A.org"]) :
    (aliceDirectory ids).Authenticated speller .asciiOnly username := by
  have hb : ∀ username ∈ [ascii "alice@a.org", ascii "alice@A.org"],
      ((aliceDirectory []).authenticate speller .asciiOnly false .notFound username (ascii "password")).isOk =
        true := by
    decide +kernel
  have hok :
      ((aliceDirectory ids).authenticate speller .asciiOnly false .notFound username (ascii "password")).isOk = true :=
    hb username hn
  cases hse : (aliceDirectory ids).authenticate speller .asciiOnly false .notFound username (ascii "password") with
  | error err =>
    rw [hse] at hok
    cases hok
  | ok session => exact ⟨_, _, _, session, hse⟩

end Sample

theorem token_opens_account_iff_lower : CleanKeys (aliceDirectory [(ascii "a.org", 10000, 10001)]).maps ∧
    (∃ s, Reaches (Sessions.step (aliceDirectory [(ascii "a.org", 10000, 10001)]) speller .asciiOnly)
      (fun _ _ => True) .new s ∧ (s.sessionForToken (ascii "t")).isSome) ∧
    ∀ s, Reaches (Sessions.step (aliceDirectory [(ascii "a.org", 10000, 10001)]) speller .asciiOnly)
      (fun _ _ => True) .new s → s.Isolated (aliceDirectory [(ascii "a.org", 10000, 10001)]) .asciiOnly := by
  have hk : CleanKeys (aliceDirectory [(ascii "a.org", 10000, 10001)]).maps := aliceDirectory_keys (by decide +kernel)
  have hi : ((aliceDirectory [(ascii "a.org", 10000, 10001)]).sessionCredentials (ascii "alice@a.org")).isSome := by
    decide +kernel
  obtain ⟨info, hi⟩ := isSome_iff_exists.mp hi
  obtain ⟨s, hr, -, ht, -⟩ := exists_login (aliceDirectory_authenticated (mem_cons_self)) hi _
  refine ⟨hk, ⟨s, hr, by rw [ht]; rfl⟩, ?_⟩
  refine (token_opens_account_iff _ speller .asciiOnly hk).mpr (Directory.sameIds_of_lower hk fun domain gid hg => ?_)
  obtain rfl := mem_singleton.mp (aliceDirectory_gid hg)
  decide

-- The password is that of alice at a.org, the ids are those of alice at A.org.
theorem token_opens_other_account :
    CleanKeys (aliceDirectory [(ascii "a.org", 10000, 10001), (ascii "A.org", 10002, 10003)]).maps ∧
    ∃ s, Reaches (Sessions.step (aliceDirectory [(ascii "a.org", 10000, 10001), (ascii "A.org", 10002, 10003)]) speller
      .asciiOnly) (fun _ _ => True) .new s ∧
      ¬s.Isolated (aliceDirectory [(ascii "a.org", 10000, 10001), (ascii "A.org", 10002, 10003)]) .asciiOnly := by
  have hi : ((aliceDirectory [(ascii "a.org", 10000, 10001), (ascii "A.org", 10002, 10003)]).sessionCredentials
      (ascii "alice@A.org")).any fun info => info.gid = 10002 := by decide +kernel
  obtain ⟨info, hi, hg⟩ := (any_eq_true _ _).mp hi
  obtain ⟨s, hr, his, ht, hsp⟩ := exists_login
    (aliceDirectory_authenticated (mem_cons_of_mem _ mem_cons_self)) hi (ascii "t")
  refine ⟨aliceDirectory_keys (by decide +kernel), s, hr, fun hio => ?_⟩
  obtain ⟨info', hin, hre⟩ := hio _ his 0 ht
  obtain rfl := Option.some.inj (hsp.symm.trans hin)
  rw [show authRoute .asciiOnly (aliceDirectory [(ascii "a.org", 10000, 10001), (ascii "A.org", 10002, 10003)]).hosting
    (ascii "alice@A.org") = .domain (ascii "a.org") (ascii "alice") by decide +kernel] at hre
  have hgi : some info.gid = some 10000 := hre.1.symm.trans (by decide +kernel)
  rw [of_decide_eq_true hg] at hgi
  exact absurd hgi (by decide)

end Maildancer.Manager

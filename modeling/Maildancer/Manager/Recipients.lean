import Maildancer.Auth.Server
import Maildancer.Credentials

namespace Maildancer.Manager

open Option Text Queue Passwd Auth Domains Identity

-- A domain as the session-manager has it: the users that its agent has read,
-- if it could be opened, and its forwarding rules.
structure Host where
  agent : Option Agent
  resolve : Bytes → Option (List Bytes)
  recipientRejection : Bytes

-- mailAuthAgent.UserExists; none if the agent could not be opened.
def Host.userExists (host : Host) (username : Bytes) : Option Bool :=
  host.agent.map fun agent => agent.userExists username || (host.resolve username).isSome

-- Domains are found by their names in lower case.
structure Directory where
  host : Bytes → Option Host
  hasDomains : Bool
  fallback : Agent
  maps : Credentials.Maps
  tree : Tree
  domainsPath : Bytes
  domainsDataPath : Bytes

def loadedHost (c : CaseMap) (tree : Tree) (files : Bytes → ReadResult) (dom : Domain) : Host where
  agent := openAuthAgent dom (files dom.credentialBackend)
  resolve := dom.chain.resolve c tree
  recipientRejection := dom.recipientRejection

structure Validation where
  domainIsLocal : Bool
  userExists : Bool
  deferRejection : Bool
deriving DecidableEq

namespace Directory

variable (dir : Directory) (c : CaseMap)

def hosting : Hosting := ⟨fun name => (dir.host name).isSome, dir.hasDomains, true⟩

-- AuthRouter.UserExists
def userExists (address : Bytes) : Option Bool :=
  match existsRoute c dir.hosting address with
  | .domain name base => (dir.host name).bind fun host => host.userExists base
  | .fallback user => some (dir.fallback.userExists user)
  | _ => some false

-- None is the error of an address without a domain.
def validateRecipient (address : Bytes) : Option Validation :=
  match cut atSign address with
  | none => none
  | some (_, domainName) =>
    if domainName = [] then none
    else
      match dir.host (c.lower domainName) with
      | none => some ⟨false, false, false⟩
      | some host => some ⟨true, (dir.userExists c address).getD false, host.recipientRejection = ascii "data"⟩

def resolveForward (recipient : Bytes) : Option (List Bytes) :=
  match cut atSign recipient with
  | none => none
  | some (localpart, domainName) =>
    if domainName = [] then none
    else (dir.host (c.lower domainName)).bind fun host => host.resolve localpart

def deliveryCredentials (recipient : Bytes) : Option Credentials.Info :=
  (cut atSign recipient).bind fun (localpart, domainName) =>
    Credentials.lookup dir.maps dir.tree dir.domainsPath dir.domainsDataPath localpart domainName

structure Provisioned : Prop where
  gid : ∀ name host, dir.host name = some host → ∃ id, dir.maps.domainGID name = some id ∧ Allocatable id
  uid : ∀ name host agent username, dir.host name = some host → host.agent = some agent →
    agent.userExists username = true → ∃ id, dir.maps.userUID name username = some id ∧ Allocatable id

def Accepts (address : Bytes) : Prop :=
  ∃ deferRejection, dir.validateRecipient c address = some ⟨true, true, deferRejection⟩

-- The address is forwarded by the rule that made its user exist, or delivered
-- with the ids of the account that was reported to exist.
inductive Deliverable (address : Bytes) : Prop
  | forwarded {name base : Bytes} {host : Host} {agent : Agent} {targets : List Bytes}
      (hroute : existsRoute c dir.hosting address = .domain name base) (hhost : dir.host name = some host)
      (hagent : host.agent = some agent) (hnew : agent.userExists base = false)
      (hrule : host.resolve base = some targets) (hforward : dir.resolveForward c address = some targets)
  | delivered {name base : Bytes} {info : Credentials.Info}
      (hroute : existsRoute c dir.hosting address = .domain name base)
      (hinfo : dir.deliveryCredentials address = some info) (hgid : dir.maps.domainGID name = some info.gid)
      (huid : dir.maps.userUID name base = some info.uid)

end Directory

def askedFor (c : CaseMap) (address : Bytes) : Bytes × Bytes :=
  ((parseLocalPart (splitUsername address).1).1, c.lower (splitUsername address).2)

-- The account that is looked up is the one that UserExists asks for, and the
-- domain is found under the same name.
def ReadAlike (c : CaseMap) (address : Bytes) : Prop :=
  ∀ localpart domainName, cut atSign address = some (localpart, domainName) → domainName ≠ [] →
    (localpart, domainName) = askedFor c address ∧ c.lower domainName = (askedFor c address).2

lemma lower_nil (c : CaseMap) : c.lower [] = [] := c.lower_ascii [] nofun

section

variable {dir : Directory} {c : CaseMap} {address localpart domainName : Bytes}

lemma existsRoute_hosted (hd : (splitUsername address).2 ≠ [])
    (hh : (dir.host (askedFor c address).2).isSome) :
    existsRoute c dir.hosting address = .domain (askedFor c address).2 (askedFor c address).1 :=
  if_pos ⟨hd, hh⟩

lemma accepts_iff (hc : cut atSign address = some (localpart, domainName)) (hd : domainName ≠ []) :
    dir.Accepts c address ↔ (dir.host (c.lower domainName)).isSome ∧ dir.userExists c address = some true := by
  unfold Directory.Accepts Directory.validateRecipient
  rw [hc]
  dsimp only
  rw [if_neg hd]
  rcases dir.host (c.lower domainName) with _ | host
  · simp
  · cases dir.userExists c address <;> simp

lemma Directory.Accepts.parts (ha : dir.Accepts c address) :
    ∃ localpart domainName, cut atSign address = some (localpart, domainName) ∧ domainName ≠ [] := by
  obtain ⟨deferRejection, hv⟩ := ha
  unfold Directory.validateRecipient at hv
  rcases hc : cut atSign address with _ | parts
  · rw [hc] at hv
    cases hv
  obtain ⟨localpart, domainName⟩ := parts
  rw [hc] at hv
  refine ⟨localpart, domainName, rfl, fun hn => ?_⟩
  dsimp only at hv
  rw [if_pos hn] at hv
  cases hv

lemma deliveryCredentials_provisioned (hp : dir.Provisioned) {host : Host} {agent : Agent}
    (hc : cut atSign address = some (localpart, domainName)) (hh : dir.host domainName = some host)
    (ha : host.agent = some agent) (hu : agent.userExists localpart = true) :
    ∃ info, dir.deliveryCredentials address = some info ∧ dir.maps.domainGID domainName = some info.gid ∧
      dir.maps.userUID domainName localpart = some info.uid := by
  obtain ⟨gid, hgid, hg⟩ := hp.gid domainName host hh
  obtain ⟨uid, huid, hui⟩ := hp.uid domainName host agent localpart hh ha hu
  refine ⟨⟨uid, gid, Credentials.basePath dir.tree dir.domainsPath dir.domainsDataPath domainName,
    Credentials.storeType dir.tree dir.domainsPath domainName⟩, ?_, hgid, huid⟩
  rw [Directory.deliveryCredentials, hc]
  exact Credentials.lookup_of_ids hgid huid hui hg

lemma deliverable_of_readAlike (ha : ReadAlike c address) (hp : dir.Provisioned)
    (hac : dir.Accepts c address) : dir.Deliverable c address := by
  obtain ⟨localpart, domainName, hc, hd⟩ := hac.parts
  obtain ⟨hs, hl⟩ := ha localpart domainName hc hd
  have hlo : localpart = (askedFor c address).1 := congrArg Prod.fst hs
  have hn := congrArg Prod.snd hs
  obtain ⟨hh, he⟩ := (accepts_iff hc hd).mp hac
  rw [hl] at hh
  have hak : (splitUsername address).2 ≠ [] := by
    intro hnil
    refine hd (hn.trans ?_)
    rw [askedFor, hnil]
    exact lower_nil c
  have hr := existsRoute_hosted hak hh
  obtain ⟨host, hho⟩ := isSome_iff_exists.mp hh
  rw [Directory.userExists, hr] at he
  dsimp only at he
  rw [hho, bind_some, Host.userExists] at he
  obtain ⟨agent, hag, hu⟩ := map_eq_some_iff.mp he
  rcases hk : agent.userExists (askedFor c address).1 with _ | _
  · rw [hk, Bool.false_or] at hu
    obtain ⟨targets, hru⟩ := isSome_iff_exists.mp hu
    refine .forwarded hr hho hag hk hru ?_
    simp only [Directory.resolveForward, hc, if_neg hd, hl, hho, bind_some]
    rw [hlo, hru]
  · rw [← hn] at hr hho
    rw [← hlo] at hr hk
    obtain ⟨info, hi, hg, huid⟩ := deliveryCredentials_provisioned hp hc hho hag hk
    exact .delivered hr hi hg huid

end

section Gap

variable (c : CaseMap) (address domainName : Bytes) (known : Bool)

def gapHost : Host where
  agent := some ⟨if known then [⟨(askedFor c address).1, [], []⟩] else []⟩
  resolve := fun user => if known = false ∧ user = (askedFor c address).1 then some [] else none
  recipientRejection := []

def gapDirectory : Directory where
  host := fun name =>
    if name = (askedFor c address).2 then some (gapHost c address known)
    else if name = c.lower domainName then some ⟨some ⟨[]⟩, fun _ => none, []⟩
    else none
  hasDomains := true
  fallback := ⟨[⟨fallbackUser address (askedFor c address).1 (parseLocalPart (splitUsername address).1).2
    (splitUsername address).2, [], []⟩]⟩
  maps := {
    gids := some fun name =>
      if name = (askedFor c address).2 ∨ name = c.lower domainName then some allocatorFloor else none
    uids := fun name => some fun user =>
      if known ∧ (user, name) = askedFor c address then some allocatorFloor else none }
  tree := ⟨fun _ => false, fun _ => .missing, fun _ => .notExist⟩
  domainsPath := []
  domainsDataPath := []

lemma userExists_singleton (entry : UserEntry) (username : Bytes) :
    Agent.userExists ⟨[entry]⟩ username = decide (entry.username = username) := by
  by_cases h : entry.username = username <;> simp [Agent.userExists, Agent.lookup, h]

lemma gap_host (name : Bytes) : (gapDirectory c address domainName known).host name =
      if name = (askedFor c address).2 then some (gapHost c address known)
      else if name = c.lower domainName then some ⟨some ⟨[]⟩, fun _ => none, []⟩
      else none := rfl

lemma gap_userUID (name user : Bytes) : (gapDirectory c address domainName known).maps.userUID name user =
      if known ∧ (user, name) = askedFor c address then some allocatorFloor else none := rfl

lemma gap_provisioned : (gapDirectory c address domainName known).Provisioned := by
  have hf : Allocatable allocatorFloor := by decide
  constructor
  · intro name host hh
    refine ⟨allocatorFloor, if_pos ?_, hf⟩
    by_contra hn
    rw [gap_host, if_neg fun h => hn (.inl h), if_neg fun h => hn (.inr h)] at hh
    cases hh
  · intro name host agent username hh ha hu
    refine ⟨allocatorFloor, if_pos ?_, hf⟩
    rw [gap_host] at hh
    by_cases hak : name = (askedFor c address).2
    · rw [if_pos hak] at hh
      cases hh
      cases ha
      rcases known with _ | _
      · cases hu
      · rw [if_pos rfl, userExists_singleton, decide_eq_true_eq] at hu
        exact ⟨rfl, Prod.ext hu.symm hak⟩
    · rw [if_neg hak] at hh
      by_cases hfi : name = c.lower domainName
      · rw [if_pos hfi] at hh
        cases hh
        cases ha
        cases hu
      · rw [if_neg hfi] at hh
        cases hh

variable {address domainName} {localpart : Bytes}

lemma gap_accepts (hc : cut atSign address = some (localpart, domainName)) (hd : domainName ≠ []) :
    (gapDirectory c address domainName known).Accepts c address := by
  rw [accepts_iff hc hd]
  constructor
  · rw [gap_host]
    by_cases ha : c.lower domainName = (askedFor c address).2
    · rw [if_pos ha]
      rfl
    · rw [if_neg ha, if_pos rfl]
      rfl
  · unfold Directory.userExists
    by_cases hn : (splitUsername address).2 = []
    · have hr : existsRoute c (gapDirectory c address domainName known).hosting address =
          .fallback (fallbackUser address (askedFor c address).1 (parseLocalPart (splitUsername address).1).2
            (splitUsername address).2) := by
        unfold existsRoute
        dsimp only
        rw [if_neg fun h => h.1 hn]
        exact if_pos rfl
      rw [hr]
      dsimp only [gapDirectory]
      rw [userExists_singleton, decide_eq_true rfl]
    · have hh : (gapDirectory c address domainName known).host (askedFor c address).2 =
          some (gapHost c address known) := if_pos rfl
      rw [existsRoute_hosted hn (by rw [hh]; rfl)]
      dsimp only
      rw [hh]
      cases known with
      | true => simp [Host.userExists, gapHost, userExists_singleton]
      | false => simp [Host.userExists, gapHost]

lemma gap_not_deliverable (hc : cut atSign address = some (localpart, domainName)) (hd : domainName ≠ [])
    (hg : if known then (localpart, domainName) ≠ askedFor c address
      else c.lower domainName ≠ (askedFor c address).2) :
    ¬(gapDirectory c address domainName known).Deliverable c address := by
  intro hde
  cases hde with
  | @forwarded name base host agent targets hr hh ha hnew hru hf =>
    cases known with
    | true =>
      -- no domain forwards anything
      have hn : host.resolve base = none := by
        rw [gap_host] at hh
        by_cases hak : name = (askedFor c address).2
        · rw [if_pos hak] at hh
          cases hh
          simp [gapHost]
        rw [if_neg hak] at hh
        by_cases hfi : name = c.lower domainName
        · rw [if_pos hfi] at hh
          cases hh
          rfl
        · rw [if_neg hfi] at hh
          cases hh
      rw [hn] at hru
      cases hru
    | false =>
      rw [if_neg Bool.false_ne_true] at hg
      rw [Directory.resolveForward, hc] at hf
      dsimp only at hf
      rw [if_neg hd, gap_host, if_neg hg, if_pos rfl] at hf
      cases hf
  | delivered hr hi hgid hu =>
    rcases known with _ | _
    · rw [gap_userUID, if_neg fun h => Bool.false_ne_true h.1] at hu
      cases hu
    rw [Directory.deliveryCredentials, hc] at hi
    have hids := (Credentials.lookup_eq_some hi).2.1
    rw [gap_userUID, if_neg fun h => hg h.2] at hids
    cases hids

end Gap

theorem accepted_deliverable_iff (c : CaseMap) (address : Bytes) :
    (∀ dir : Directory, dir.Provisioned → dir.Accepts c address → dir.Deliverable c address) ↔ ReadAlike c address := by
  constructor
  · intro ha localpart domainName hc hd
    have hcl := fun known => ha _ (gap_provisioned c address domainName known)
      (gap_accepts c known hc hd)
    constructor
    · by_contra hne
      exact gap_not_deliverable c true hc hd hne (hcl true)
    · by_contra hne
      exact gap_not_deliverable c false hc hd hne (hcl false)
  · intro hal dir hp hac
    exact deliverable_of_readAlike hal hp hac

section Sample

def singleProvider : FilesystemDomainProvider where
  basePath := ascii "/c"
  dataPath := []
  defaults := some { DomainConfig.empty with
    auth := ⟨ascii "passwd", ascii "passwd", ascii "keys"⟩
    msgStore := ⟨ascii "maildir", ascii "users", []⟩ }
  baseDefaults := none
  domainOverrides := fun _ => none
  postmaster := none

def sampleDirectory : Directory where
  host := fun name => if name = ascii "a.org" then
      (singleProvider.domainNamed .asciiOnly .same ⟨fun _ => false, fun _ => .missing, fun _ => .notExist⟩ name).map
        (loadedHost .asciiOnly ⟨fun _ => false, fun _ => .missing, fun _ => .notExist⟩
          fun _ => .content (ascii "alice:hash:alice\n"))
    else none
  hasDomains := true
  fallback := ⟨[]⟩
  maps := {
    gids := some fun name => if name = ascii "a.org" then some 10000 else none
    uids := fun name => some fun user => if name = ascii "a.org" ∧ user = ascii "alice" then some 10001 else none }
  tree := ⟨fun _ => false, fun _ => .missing, fun _ => .notExist⟩
  domainsPath := ascii "/c"
  domainsDataPath := []

end Sample

lemma sampleDirectory_provisioned : sampleDirectory.Provisioned := by
  have hn : ∀ name host, sampleDirectory.host name = some host → name = ascii "a.org" := by
    intro name host hh
    by_contra hne
    simp [sampleDirectory, hne] at hh
  constructor
  · intro name host hh
    obtain rfl := hn name host hh
    exact ⟨10000, by decide +kernel, by decide⟩
  intro name host agent username hh ha hu
  obtain rfl := hn name host hh
  have hus : (sampleDirectory.host (ascii "a.org")).bind Host.agent =
      some ⟨[⟨ascii "alice", ascii "hash", ascii "alice"⟩]⟩ := by decide +kernel
  rw [hh, bind_some, ha] at hus
  rw [Option.some.inj hus, userExists_singleton, decide_eq_true_eq] at hu
  rw [← hu]
  exact ⟨10001, by decide +kernel, by decide⟩

-- UserExists drops the extension and the case of the domain, the lookup takes both as they are written.
theorem accepted_undeliverable : sampleDirectory.Provisioned ∧
    ∀ address ∈ [ascii "alice+tag@a.org", ascii "alice@A.org"],
      sampleDirectory.Accepts .asciiOnly address ∧ ¬sampleDirectory.Deliverable .asciiOnly address := by
  refine ⟨sampleDirectory_provisioned, fun address ha => ?_⟩
  have han : ∀ address ∈ [ascii "alice+tag@a.org", ascii "alice@A.org"],
      sampleDirectory.validateRecipient .asciiOnly address = some ⟨true, true, false⟩ ∧
      sampleDirectory.resolveForward .asciiOnly address = none ∧
      sampleDirectory.deliveryCredentials address = none := by decide +kernel
  obtain ⟨hv, hf, hc⟩ := han address ha
  refine ⟨⟨false, hv⟩, fun hd => ?_⟩
  cases hd with
  | forwarded _ _ _ _ _ hfo => cases hf.symm.trans hfo
  | delivered _ hi _ _ => cases hc.symm.trans hi

end Maildancer.Manager

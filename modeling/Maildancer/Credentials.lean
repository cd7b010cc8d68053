import Maildancer.Domains
import Maildancer.Identity

namespace Maildancer.Credentials

open Text Domains Identity

structure Info where
  uid : Nat
  gid : Nat
  basePath : Bytes
  storeType : Bytes
deriving DecidableEq

-- gid.toml, and uid.toml in the directory that a domain name leads to; none where a map cannot be loaded.
structure Maps where
  gids : Option IdMap
  uids : Bytes → Option IdMap

def Maps.domainGID (maps : Maps) (domain : Bytes) : Option Nat := maps.gids.bind fun m => m domain

def Maps.userUID (maps : Maps) (domain localpart : Bytes) : Option Nat := (maps.uids domain).bind fun m => m localpart

def loadDomainConfig (tree : Tree) (path : Bytes) : Option DomainConfig :=
  match tree.config path with
  | .table t => unmarshal t
  | _ => none

-- The configuration of a domain alone; one that cannot be loaded is empty.
def domainConfig (tree : Tree) (domainsPath domainName : Bytes) : DomainConfig :=
  (loadDomainConfig tree (joinPath [joinPath [domainsPath, domainName], ascii "config.toml"])).getD .empty

def basePath (tree : Tree) (domainsPath domainsDataPath domainName : Bytes) : Bytes :=
  let storageBase :=
    if domainsDataPath ≠ [] then joinPath [domainsDataPath, domainName] else joinPath [domainsPath, domainName]
  let configured := (domainConfig tree domainsPath domainName).msgStore.basePath
  let base := if configured = [] then ascii "users" else configured
  if isAbs base then base else joinPath [storageBase, base]

def storeType (tree : Tree) (domainsPath domainName : Bytes) : Bytes :=
  let configured := (domainConfig tree domainsPath domainName).msgStore.type
  if configured = [] then ascii "maildir" else configured

def lookup (maps : Maps) (tree : Tree) (domainsPath domainsDataPath localpart domainName : Bytes) : Option Info :=
  match maps.domainGID domainName, maps.userUID domainName localpart with
  | some gid, some uid =>
    if Allocatable uid ∧ Allocatable gid then
      some ⟨uid, gid, basePath tree domainsPath domainsDataPath domainName, storeType tree domainsPath domainName⟩
    else none
  | _, _ => none

section Lookup

variable {maps : Maps} {tree : Tree} {domainsPath domainsDataPath localpart domainName : Bytes}

lemma lookup_of_ids {uid gid : Nat} (hgid : maps.domainGID domainName = some gid)
    (huid : maps.userUID domainName localpart = some uid) (hu : Allocatable uid) (hg : Allocatable gid) :
    lookup maps tree domainsPath domainsDataPath localpart domainName =
      some ⟨uid, gid, basePath tree domainsPath domainsDataPath domainName, storeType tree domainsPath domainName⟩ := by
  unfold lookup
  rw [hgid, huid]
  exact if_pos ⟨hu, hg⟩

lemma lookup_eq_some {info : Info}
    (h : lookup maps tree domainsPath domainsDataPath localpart domainName = some info) :
    maps.domainGID domainName = some info.gid ∧ maps.userUID domainName localpart = some info.uid ∧
      info.basePath = basePath tree domainsPath domainsDataPath domainName ∧
      info.storeType = storeType tree domainsPath domainName := by
  unfold lookup at h
  rcases hg : maps.domainGID domainName with _ | gid
  · rw [hg] at h
    cases h
  rcases hu : maps.userUID domainName localpart with _ | uid
  · rw [hg, hu] at h
    cases h
  rw [hg, hu] at h
  dsimp only at h
  by_cases hi : Allocatable uid ∧ Allocatable gid
  · rw [if_pos hi] at h
    cases h
    exact ⟨rfl, rfl, rfl, rfl⟩
  · rw [if_neg hi] at h
    cases h

end Lookup

end Maildancer.Credentials

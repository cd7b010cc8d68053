import Maildancer.Text
import Mathlib.Data.Fintype.EquivFin

namespace Maildancer.Webadmin

open List Text

inductive Role
  | superAdmin
  | domainAdmin
  | other (text : Bytes)
deriving DecidableEq

structure AdminEntry where
  role : Role
  domains : List Bytes

abbrev RoleStore := Bytes → Option AdminEntry

namespace RoleStore

-- A user without an entry has every right.
def isSuperAdmin (rs : RoleStore) (username : Bytes) : Bool := (rs username).all (·.role = .superAdmin)

def canAccessDomain (rs : RoleStore) (username domain : Bytes) : Bool :=
  (rs username).any fun entry => entry.role = .superAdmin || entry.domains.contains domain

def filterDomains (rs : RoleStore) (username : Bytes) (domains : List Bytes) : List Bytes :=
  if rs.isSuperAdmin username then domains else domains.filter (rs.canAccessDomain username)

-- Without a domain, what RequireSuperAdmin asks; with one, what RequireDomainAccess does.
def grants (rs : RoleStore) (username : Bytes) : Option Bytes → Bool
  | none => rs.isSuperAdmin username
  | some domain => rs.isSuperAdmin username || rs.canAccessDomain username domain

end RoleStore

-- The handlers of domains and pages ask again, with the roles there were when the routes were registered.
structure Route where
  domain : Option Bytes
  asksAgain : Bool

def allows (registered roles : RoleStore) (username : Bytes) (route : Route) : Bool :=
  roles.grants username route.domain && (!route.asksAgain || registered.grants username route.domain)

-- An entry that is set, or none for one that is deleted.
structure RoleChange where
  admin : Bytes
  username : Bytes
  entry : Option AdminEntry

def updateRoles (roles : RoleStore) (c : RoleChange) : RoleStore :=
  if !roles.isSuperAdmin c.admin || c.username = [] || c.entry.any (·.role ∉ [.superAdmin, .domainAdmin]) then roles
  else Function.update roles c.username c.entry

-- The latest change is the first one.
def after (registered : RoleStore) : List RoleChange → RoleStore
  | [] => registered
  | c :: past => updateRoles (after registered past) c

-- The directories below the domains' path, and which of them hold a config.toml.
structure DomainsPath where
  entries : List Bytes
  configured : Bytes → Bool

-- GET /api/dashboard is behind requireAuth alone and asks no roles.
def handleGetDashboard (path : DomainsPath) : List Bytes := path.entries.filter path.configured

-- The old domains bound the new ones.
def Reduces (roles : RoleStore) (c : RoleChange) : Prop :=
  c.entry = none ∨ ∃ old new, roles c.username = some old ∧ c.entry = some new ∧ new.role = old.role ∧
    new.domains ⊆ old.domains

-- What the roles promise after a history: each request is decided by the latest roles, both lists
-- of domains show what may be opened, and a last change that takes rights away lets nothing new pass.
structure Lawful (path : DomainsPath) (registered : RoleStore) (past : List RoleChange) : Prop where
  followed : ∀ username route, allows registered (after registered past) username route =
    (after registered past).grants username route.domain
  listed : ∀ username domains, registered.filterDomains username domains =
    domains.filter fun domain => allows registered (after registered past) username ⟨some domain, true⟩
  counted : ∀ username, handleGetDashboard path =
    path.entries.filter fun domain => allows registered (after registered past) username ⟨some domain, true⟩
  reduced : ∀ c older, past = c :: older → Reduces (after registered older) c → ∀ route,
    allows registered (after registered past) c.username route = true →
      allows registered (after registered older) c.username route = true

variable {path : DomainsPath} {registered roles : RoleStore} {username : Bytes}

lemma filterDomains_eq (rs : RoleStore) (username : Bytes) (domains : List Bytes) :
    rs.filterDomains username domains = domains.filter fun domain => rs.grants username (some domain) := by
  unfold RoleStore.filterDomains RoleStore.grants
  by_cases hs : rs.isSuperAdmin username = true
  · simp [hs]
  · simp [Bool.eq_false_iff.mpr hs]

-- An entry lists some of the domains there could be, so who may open any is a super admin.
lemma isSuperAdmin_of_all (h : ∀ domain, roles.grants username (some domain) = true) :
    roles.isSuperAdmin username = true := by
  by_contra hs
  rcases he : roles username with _ | entry
  · simp [RoleStore.isSuperAdmin, he] at hs
  obtain ⟨domain, hd⟩ := Infinite.exists_notMem_finset entry.domains.toFinset
  have hg := h domain
  simp_all [RoleStore.grants, RoleStore.isSuperAdmin, RoleStore.canAccessDomain]

lemma Lawful.grants_eq {past : List RoleChange} (h : Lawful path registered past) (username : Bytes)
    (target : Option Bytes) :
    (after registered past).grants username target = registered.grants username target := by
  have hf (target : Option Bytes) (hg : (after registered past).grants username target = true) :
      registered.grants username target = true := by
    simpa [allows, hg] using h.followed username ⟨target, true⟩
  have hl (domain : Bytes) (hg : registered.grants username (some domain) = true) :
      (after registered past).grants username (some domain) = true := by
    have hm : domain ∈ registered.filterDomains username [domain] := by simp [filterDomains_eq, hg]
    rw [h.listed, mem_filter, allows, Bool.and_eq_true] at hm
    exact hm.2.1
  rw [Bool.eq_iff_iff]
  refine ⟨hf target, fun hg => ?_⟩
  cases target with
  | some domain => exact hl domain hg
  | none => exact isSuperAdmin_of_all fun domain => hl domain (by simp_all [RoleStore.grants])

end Maildancer.Webadmin

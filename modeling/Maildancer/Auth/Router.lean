import Maildancer.Address

namespace Maildancer.Auth

open Text Queue

-- What the provider hosts, by lower-cased name, and whether there is a fallback agent.
structure Hosting where
  hosted : Bytes → Bool
  hasDomains : Bool
  hasFallback : Bool

inductive Route
  | domain (name base : Bytes)
  | notHosted
  | fallback (user : Bytes)
  | nowhere
deriving DecidableEq

def fallbackUser (username base extension domainName : Bytes) : Bytes :=
  if extension = [] then username
  else if domainName = [] then base
  else base ++ atSign :: domainName

def authRoute (c : CaseMap) (h : Hosting) (username : Bytes) : Route :=
  let (localPart, domainName) := splitUsername username
  let (base, extension) := parseLocalPart localPart
  if domainName ≠ [] ∧ h.hosted (c.lower domainName) then .domain (c.lower domainName) base
  else if domainName ≠ [] ∧ h.hasDomains then .notHosted
  else if h.hasFallback then .fallback (fallbackUser username base extension domainName)
  else .nowhere

-- The agent that UserExists asks: a domain that is not hosted goes to the fallback agent.
def existsRoute (c : CaseMap) (h : Hosting) (username : Bytes) : Route :=
  let (localPart, domainName) := splitUsername username
  let (base, extension) := parseLocalPart localPart
  if domainName ≠ [] ∧ h.hosted (c.lower domainName) then .domain (c.lower domainName) base
  else if h.hasFallback then .fallback (fallbackUser username base extension domainName)
  else .nowhere

end Maildancer.Auth

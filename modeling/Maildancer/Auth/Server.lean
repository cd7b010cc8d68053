import Maildancer.Admin
import Maildancer.Auth.Router
import Maildancer.Domains
import Maildancer.Transition

namespace Maildancer.Auth

open Text Queue Passwd Admin Domains

-- A session-manager and the administration of the same domains. The domains themselves stay as they are.
structure Server where
  hasher : Hasher
  caseMap : CaseMap
  order : MapOrder
  provider : FilesystemDomainProvider
  tree : Tree
  hasDomains : Bool
  fallback : Agent
  admin : Paths
  domainExists : Bytes → Bool

abbrev Accounts := Bytes → Bytes → Bytes → Bool

def Accounts.set (accounts : Accounts) (domain username : Bytes) (accepted : Bytes → Bool) : Accounts :=
  Function.update accounts domain (Function.update (accounts domain) username accepted)

-- The agent of a domain once it has been opened, if that succeeded. The last two fields record what the
-- administrators have set, and what they had set when the agent of a domain was opened.
structure State where
  files : Files
  agents : Bytes → Option (Option Agent)
  accounts : Accounts
  seen : Bytes → Accounts

-- auth.OpenAuthAgent
def openAuthAgent (dom : Domain) (file : ReadResult) : Option Agent :=
  if dom.authType ≠ ascii "passwd" ∨ dom.credentialBackend = [] ∨ dom.keyBackend = [] then none
  else newAgent file

-- A call and what happens to it besides: the rate limiter may refuse it, and reading a file may fail.
structure AuthCall where
  username : Bytes
  password : Bytes
  limited : Bool
  keys : KeyResult
  readable : Bool

inductive Event
  | authenticate (call : AuthCall)
  | userExists (username : Bytes) (readable : Bool)
  | createUser (domain username password salt : Bytes)
  | deleteUser (domain username : Bytes)
  | resetPassword (hasSealedKey : Bool) (domain username password salt : Bytes)
  | changePassword (keys : KeyResult) (domain username oldPassword newPassword salt : Bytes)
  | resetPasswordRegenKeys (domain username newPassword salt : Bytes)
  | restart

namespace State

-- lazyAuthAgent.init
def init (s : State) (name : Bytes) (dom : Domain) (readable : Bool) : State × Option Agent :=
  match s.agents name with
  | some agent => (s, agent)
  | none =>
    let agent := openAuthAgent dom (if readable then s.files dom.credentialBackend else .failed)
    ({ s with
      agents := Function.update s.agents name (some agent)
      seen := Function.update s.seen name s.accounts }, agent)

def edited (s : State) (domain username : Bytes) (accepted : Bytes → Bool) (files : Files) : State :=
  { s with files := files, accounts := s.accounts.set domain username accepted }

end State

namespace Server

variable (srv : Server)

def domainNamed (name : Bytes) : Option Domain :=
  srv.provider.domainNamed srv.caseMap srv.order srv.tree name

def hosting : Hosting := ⟨fun name => (srv.domainNamed name).isSome, srv.hasDomains, true⟩

def route (username : Bytes) : Route := authRoute srv.caseMap srv.hosting username

def start (files : Files) : State where
  files := files
  agents := fun _ => none
  accounts := fun domain username password =>
    (newAgent (files (srv.admin.passwdPath domain))).any fun agent => agent.accepts srv.hasher username password
  seen := fun _ _ _ _ => false

def authenticateAt (s : State) (name base : Bytes) (call : AuthCall) : State × Except AuthError AuthSession :=
  match srv.domainNamed name with
  | none => (s, .error .domainNotHosted)
  | some dom =>
    match s.init name dom call.readable with
    | (next, none) => (next, .error .agentInit)
    | (next, some agent) =>
      (next, (agent.authenticate srv.hasher call.keys base call.password).map fun session =>
        { session with mailbox := base ++ atSign :: (splitUsername call.username).2 })

def authenticateWithDomain (s : State) (call : AuthCall) : State × Except AuthError AuthSession :=
  if call.limited then (s, .error .rateLimited)
  else
    match srv.route call.username with
    | .domain name base => srv.authenticateAt s name base call
    | .notHosted => (s, .error .domainNotHosted)
    | .fallback user => (s, srv.fallback.authenticate srv.hasher call.keys user call.password)
    | .nowhere => (s, .error .authFailed)

-- UserExists opens the agent of the domain too.
def userExists (s : State) (username : Bytes) (readable : Bool) : State :=
  match existsRoute srv.caseMap srv.hosting username with
  | .domain name _ =>
    match srv.domainNamed name with
    | none => s
    | some dom => (s.init name dom readable).1
  | _ => s

-- An operation that fails is no step.
def step (s : State) : Event → Option State
  | .authenticate call => some (srv.authenticateWithDomain s call).1
  | .userExists username readable => some (srv.userExists s username readable)
  | .createUser domain username password salt =>
    (srv.admin.createUser srv.hasher srv.domainExists s.files domain username password salt).map
      (s.edited domain username fun tried => tried = password)
  | .deleteUser domain username =>
    (srv.admin.deleteUser srv.domainExists s.files domain username).map (s.edited domain username fun _ => false)
  | .resetPassword hasSealedKey domain username password salt =>
    (srv.admin.resetPassword srv.hasher srv.domainExists s.files hasSealedKey domain username password salt).map
      (s.edited domain username fun tried => tried = password)
  | .changePassword keys domain username oldPassword newPassword salt =>
    (srv.admin.changePassword srv.hasher srv.domainExists s.files keys domain username oldPassword newPassword
      salt).map (s.edited domain username fun tried => tried = newPassword)
  | .resetPasswordRegenKeys domain username newPassword salt =>
    (srv.admin.resetPasswordRegenKeys srv.hasher srv.domainExists s.files domain username newPassword salt).map
      (s.edited domain username fun tried => tried = newPassword)
  | .restart => some { s with agents := fun _ => none }

lemma step_cases {s t : State} {event : Event}
    (he : ∀ domain, validDomainName domain = true → Terminated (existing (s.files (srv.admin.passwdPath domain))))
    (h : srv.step s event = some t) :
    t = s ∨ (∃ name dom readable, srv.domainNamed name = some dom ∧ t = (s.init name dom readable).1) ∨
      (∃ domain username accepted files, srv.admin.Sets srv.hasher s.files files domain username accepted ∧
        t = s.edited domain username accepted files) ∨
      t = { s with agents := fun _ => none } := by
  have hed : ∀ {domain username : Bytes} {accepted : Bytes → Bool} {result : Option Files},
      (∀ files, result = some files → srv.admin.Sets srv.hasher s.files files domain username accepted) →
      result.map (s.edited domain username accepted) = some t →
      ∃ domain username accepted files, srv.admin.Sets srv.hasher s.files files domain username accepted ∧
        t = s.edited domain username accepted files := by
    intro domain username accepted result hs hm
    obtain ⟨files, hf, rfl⟩ := Option.map_eq_some_iff.mp hm
    exact ⟨domain, username, accepted, files, hs files hf, rfl⟩
  cases event with
  | authenticate call =>
    cases h
    unfold authenticateWithDomain
    by_cases hl : call.limited = true
    · rw [if_pos hl]
      exact .inl rfl
    rw [if_neg hl]
    cases srv.route call.username with
    | notHosted | fallback user | nowhere => exact .inl rfl
    | domain name base =>
      dsimp only [authenticateAt]
      rcases hdom : srv.domainNamed name with _ | dom
      · exact .inl rfl
      refine .inr (.inl ⟨name, dom, call.readable, hdom, ?_⟩)
      dsimp only
      cases hi : s.init name dom call.readable with
      | mk next agent => cases agent <;> rfl
  | userExists username readable =>
    cases h
    unfold userExists
    cases existsRoute srv.caseMap srv.hosting username with
    | notHosted | fallback user | nowhere => exact .inl rfl
    | domain name base =>
      dsimp only
      rcases hdom : srv.domainNamed name with _ | dom
      · exact .inl rfl
      · exact .inr (.inl ⟨name, dom, readable, hdom, rfl⟩)
  | createUser domain username password salt =>
    refine .inr (.inr (.inl (hed (fun files hc => ?_) h)))
    have hd := (Paths.edit_some hc).1
    exact srv.admin.edit_sets srv.admin.joinPath_domainDir (fun _ hn ha => addUser_sets hn (he domain hd) ha) hc
  | deleteUser domain username =>
    refine .inr (.inr (.inl (hed (fun files hc => ?_) h)))
    exact srv.admin.edit_sets srv.admin.joinPath_domainDir (fun _ _ hr => deleteUser_sets hr) hc
  | resetPassword _ _ _ _ _ | changePassword _ _ _ _ _ _ | resetPasswordRegenKeys _ _ _ _ =>
    refine .inr (.inr (.inl (hed (fun files hc => ?_) h)))
    exact srv.admin.edit_sets (fun _ => rfl) (fun _ hn hs => setPassword_sets hn hs) hc
  | restart => exact .inr (.inr (.inr (Option.some.inj h).symm))

end Server

end Maildancer.Auth

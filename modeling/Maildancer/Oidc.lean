import Maildancer.Passwd
import Maildancer.Service

namespace Maildancer.Oidc

open Text Passwd

structure AuthCode where
  code : Bytes
  domain : Bytes
  clientID : Bytes
  username : Bytes
  redirectURI : Bytes
  pkceChallenge : Bytes
  pkceMethod : Bytes
  nonce : Bytes
  expiresAt : Int
deriving DecidableEq

structure SsoSession where
  id : Bytes
  domain : Bytes
  username : Bytes
  expiresAt : Int
deriving DecidableEq

structure RegisteredClient where
  clientID : Bytes
  domain : Bytes
  clientName : Bytes
  redirectURIs : List Bytes
  registeredAt : Int
deriving DecidableEq

structure ClientConfig where
  domain : Bytes
  id : Bytes
  secret : Bytes
  redirectURIs : List Bytes
deriving DecidableEq

structure DomainEntry where
  name : Bytes
  agent : Agent
  clients : List ClientConfig
deriving DecidableEq

-- What url.Parse finds, as far as it is looked at.
structure ParsedURL where
  scheme : Bytes
  host : Bytes
  hostname : Bytes

-- SHA-256 and the encodings of its digests, without collisions.
structure Digest where
  sha256 : Bytes → Bytes
  rawURLEncoding : Bytes → Bytes
  base32 : Bytes → Bytes
  sha256_inj : ∀ a b, sha256 a = sha256 b → a = b
  rawURLEncoding_inj : ∀ a b, rawURLEncoding a = rawURLEncoding b → a = b

-- agents has the domains that were loaded, hostOf takes the port off a Host header, and keptTime is what the
-- store keeps of a time: all of it in memory, the seconds in the database. Times are in nanoseconds.
structure Server where
  hasher : Hasher
  digest : Digest
  hostOf : Bytes → Bytes
  parseURL : Bytes → Option ParsedURL
  keptTime : Int → Int
  keptTime_le : ∀ t, keptTime t ≤ t
  agents : Bytes → Option Agent
  clients : List ClientConfig
  sessionTTLSec : Int
  jwtTTLSec : Int

structure Store where
  codes : Bytes → Option AuthCode
  sessions : Bytes → Option SsoSession
  clients : Bytes × Bytes → Option RegisteredClient

def newStore : Store := ⟨fun _ => none, fun _ => none, fun _ => none⟩

def Store.deleteCode (s : Store) (code : Bytes) : Store := { s with codes := Function.update s.codes code none }

def Store.deleteSession (s : Store) (id : Bytes) : Store := { s with sessions := Function.update s.sessions id none }

inductive ConsumeError
  | notFound
  | expired
  | failed
deriving DecidableEq

-- The calls of the handlers that read or write what they share, with the clock, the
-- random source, the passwd agents and the signing keys.
inductive Op
  | clock
  | generateToken (n : Nat)
  | authenticate (domain username password : Bytes)
  | storeCode (c : AuthCode)
  | consumeCode (code : Bytes)
  | storeSession (sess : SsoSession)
  | lookupSession (id : Bytes)
  | deleteSession (id : Bytes)
  | registerClient (c : RegisteredClient)
  | lookupClient (domain clientID : Bytes)
  | currentKeyFor (domain : Bytes)
  | sign (domain : Bytes)
  | sweepExpired (now : Int)

abbrev Op.reply : Op → Type
  | .clock => Int
  | .generateToken _ => Bytes
  | .authenticate _ _ _ => Except AuthError AuthSession
  | .consumeCode _ => Except ConsumeError AuthCode
  | .lookupSession _ => Option SsoSession
  | .lookupClient _ _ => Option RegisteredClient
  | .currentKeyFor _ | .sign _ => Bool
  | .storeCode _ | .storeSession _ | .deleteSession _ | .registerClient _ | .sweepExpired _ => Unit

-- The moment of a call: the time, the random bytes, what the agent finds of the keys of
-- the user, whether what is to be written is, and whether the call gets its reply.
structure Moment where
  now : Int
  token : Bytes
  keys : KeyResult
  written : Bool
  replied : Bool

namespace Server

variable (srv : Server)

-- loadDomain, for a domain that loads.
def domainEntry (name : Bytes) : Option DomainEntry :=
  (srv.agents name).map fun agent => ⟨name, agent, srv.clients.filter (·.domain = name)⟩

def authenticate (keys : KeyResult) (domain username password : Bytes) : Except AuthError AuthSession :=
  match srv.domainEntry domain with
  | none => .error .agentInit
  | some de => de.agent.authenticate srv.hasher keys username password

def keptCode (c : AuthCode) : AuthCode := { c with expiresAt := srv.keptTime c.expiresAt }

def keptSession (sess : SsoSession) : SsoSession := { sess with expiresAt := srv.keptTime sess.expiresAt }

def keptClient (c : RegisteredClient) : RegisteredClient := { c with registeredAt := srv.keptTime c.registeredAt }

def storeCode (c : AuthCode) (s : Store) : Store :=
  { s with codes := Function.update s.codes c.code (some (srv.keptCode c)) }

def storeSession (sess : SsoSession) (s : Store) : Store :=
  { s with sessions := Function.update s.sessions sess.id (some (srv.keptSession sess)) }

def registerClient (c : RegisteredClient) (s : Store) : Store :=
  { s with clients := Function.update s.clients (c.domain, c.clientID) (some (srv.keptClient c)) }

def sweepExpired (now : Int) (s : Store) : Store :=
  { s with
    codes := fun code => (s.codes code).filter fun c => srv.keptTime now < c.expiresAt
    sessions := fun id => (s.sessions id).filter fun sess => srv.keptTime now < sess.expiresAt }

def perform : (o : Op) → Moment → Store → Store × o.reply
  | .clock, x, s => (s, x.now)
  | .generateToken _, x, s => (s, x.token)
  | .authenticate domain username password, x, s => (s, srv.authenticate x.keys domain username password)
  | .storeCode c, x, s => (if x.written then srv.storeCode c s else s, ())
  | .consumeCode code, x, s =>
    (if x.written then s.deleteCode code else s,
      if !(x.written && x.replied) then .error .failed
      else match s.codes code with
        | none => .error .notFound
        | some c => if c.expiresAt < x.now then .error .expired else .ok c)
  | .storeSession sess, x, s => (if x.written then srv.storeSession sess s else s, ())
  | .lookupSession id, x, s =>
    if !x.replied then (s, none)
    else match s.sessions id with
      | none => (s, none)
      | some sess =>
        if sess.expiresAt < x.now then (if x.written then s.deleteSession id else s, none) else (s, some sess)
  | .deleteSession id, x, s => (if x.written then s.deleteSession id else s, ())
  | .registerClient c, x, s => (if x.written then srv.registerClient c s else s, ())
  | .lookupClient domain clientID, x, s => (s, if x.replied then s.clients (domain, clientID) else none)
  | .currentKeyFor _, x, s => (s, x.replied)
  | .sign _, x, s => (s, x.replied)
  | .sweepExpired now, x, s => (if x.written then srv.sweepExpired now s else s, ())

end Server

structure AuthorizeParams where
  clientID : Bytes
  redirectURI : Bytes
  scope : Bytes
  state : Bytes
  codeChallenge : Bytes
  codeChallengeMethod : Bytes
  nonce : Bytes
deriving DecidableEq

structure LoginForm where
  parsed : Bool
  csrfCookie : Bytes
  csrfToken : Bytes
  params : AuthorizeParams
  username : Bytes
  password : Bytes
deriving DecidableEq

structure TokenForm where
  parsed : Bool
  grantType : Bytes
  code : Bytes
  redirectURI : Bytes
  clientID : Bytes
  codeVerifier : Bytes
  clientSecret : Bytes
deriving DecidableEq

structure RegistrationRequest where
  clientName : Bytes
  redirectURIs : List Bytes
  tokenEndpointAuthMethod : Bytes
  grantTypes : List Bytes
  responseTypes : List Bytes
deriving DecidableEq

inductive Request
  | authorize (host responseType : Bytes) (params : AuthorizeParams) (csrfCookie sessionCookie : Bytes)
  | login (host : Bytes) (form : LoginForm)
  | token (scheme host : Bytes) (form : TokenForm)
  | register (host : Bytes) (body : Option RegistrationRequest)
  | logout (host sessionCookie : Bytes)
  | sweep
deriving DecidableEq

-- The claims of the access token and of the ID token, which has the nonce too.
structure Claims where
  issuer : Bytes
  audience : Bytes
  subject : Bytes
  email : Bytes
  nonce : Bytes
  expiresIn : Int
deriving DecidableEq

structure Message where
  text : String
  quoted : Option Bytes
deriving DecidableEq

def Message.plain (text : String) : Message := ⟨text, none⟩

-- A redirect has the code and the state in the query of the URI, and the session cookie if one is set.
inductive Response
  | unknownDomain
  | errorPage (status : Nat) (title message : String)
  | loginForm (status : Nat) (domain : Bytes) (params : AuthorizeParams) (username : Bytes) (error : String)
      (csrfToken : Bytes)
  | redirect (uri code state : Bytes) (cookie : Option Bytes)
  | aborted
  | jsonError (status : Nat) (error : String) (description : Message)
  | tokens (claims : Claims)
  | registered (status : Nat) (client : RegisteredClient) (authMethod : Bytes) (grantTypes responseTypes : List Bytes)
  | noContent
deriving DecidableEq

abbrev Handler := Procedure Op.reply

namespace Server

variable (srv : Server)

def dot : UInt8 := 46

def atSign : UInt8 := 64

def candidates : Bytes → List Bytes
  | [] => []
  | b :: rest => if b ≠ dot then candidates rest else if dot ∈ rest then rest :: candidates rest else []

def domainForHost (host : Bytes) : Option DomainEntry :=
  (srv.hostOf host :: candidates (srv.hostOf host)).findSome? srv.domainEntry

def issuerBase (scheme host : Bytes) : Bytes := scheme ++ ascii "://" ++ host

def clientFor (de : DomainEntry) (clientID : Bytes) : Handler (Option ClientConfig) :=
  match de.clients.find? (·.id = clientID) with
  | some client => .finish (some client)
  | none => .call (.lookupClient de.name clientID) fun found =>
    .finish (found.map fun rc => ⟨rc.domain, rc.clientID, [], rc.redirectURIs⟩)

def validRedirectURI (client : ClientConfig) (uri : Bytes) : Bool := client.redirectURIs.any (· = uri)

def validateParams (de : DomainEntry) (params : AuthorizeParams) : Handler (Option String) :=
  if params.clientID = [] then .finish (some "client_id is required")
  else if params.redirectURI = [] then .finish (some "redirect_uri is required")
  else if params.codeChallenge = [] then .finish (some "code_challenge is required (PKCE)")
  else if params.codeChallengeMethod ≠ ascii "S256" then .finish (some "code_challenge_method must be S256")
  else (clientFor de params.clientID).bind fun found =>
    match found with
    | none => .finish (some "unknown client_id")
    | some client =>
      .finish (if validRedirectURI client params.redirectURI then none
        else some "redirect_uri not registered for this client")

def second : Int := 1000000000

def codeTTL : Int := 600 * second

-- A redirect URI that does not parse is a nil pointer, after the code has been stored.
def issueCodeAndRedirect (de : DomainEntry) (username : Bytes) (params : AuthorizeParams) (cookie : Option Bytes) :
    Handler Response :=
  .call (.generateToken 24) fun code => .call .clock fun now =>
    .call (.storeCode ⟨code, de.name, params.clientID, username, params.redirectURI, params.codeChallenge,
      params.codeChallengeMethod, params.nonce, now + codeTTL⟩) fun _ =>
    .finish (if (srv.parseURL params.redirectURI).isSome then .redirect params.redirectURI code params.state cookie
      else .aborted)

def getOrSetCSRF (cookie : Bytes) : Handler Bytes :=
  if cookie ≠ [] then .finish cookie else .call (.generateToken 16) .finish

def renderLoginForm (de : DomainEntry) (params : AuthorizeParams) (username : Bytes) (error : String)
    (csrfToken : Bytes) : Response :=
  .loginForm (if error ≠ "" then 401 else 200) de.name params username error csrfToken

def askForLogin (de : DomainEntry) (params : AuthorizeParams) (csrfCookie : Bytes) : Handler Response :=
  (getOrSetCSRF csrfCookie).bind fun csrfToken => .finish (renderLoginForm de params [] "" csrfToken)

def serveAuthorize (de : DomainEntry) (responseType : Bytes) (params : AuthorizeParams)
    (csrfCookie sessionCookie : Bytes) : Handler Response :=
  if responseType ≠ ascii "code" then
    .finish (.errorPage 400 "Bad Request" "only response_type=code is supported")
  else (validateParams de params).bind fun wrong =>
    match wrong with
    | some wrong => .finish (.errorPage 400 "Bad Request" wrong)
    | none =>
      if sessionCookie = [] then askForLogin de params csrfCookie
      else .call (.lookupSession sessionCookie) fun found =>
        match found with
        | none => askForLogin de params csrfCookie
        | some sess =>
          if sess.domain = de.name then srv.issueCodeAndRedirect de sess.username params none
          else askForLogin de params csrfCookie

def checkCSRF (cookie formToken : Bytes) : Bool := cookie ≠ [] && cookie = formToken

-- The part before the first '@', if what follows it is the domain.
def normalizeLocalpart (input domain : Bytes) : Option Bytes :=
  match cut atSign input with
  | none => some input
  | some (localpart, d) => if d ≠ domain then none else some localpart

def loginError : AuthError → String
  | .userNotFound | .authFailed => "Invalid username or password."
  | _ => "An error occurred. Please try again."

def startSession (de : DomainEntry) (localpart : Bytes) (params : AuthorizeParams) : Handler Response :=
  .call (.generateToken 32) fun sessID => .call .clock fun now =>
    .call (.storeSession ⟨sessID, de.name, localpart, now + srv.sessionTTLSec * second⟩) fun _ =>
    srv.issueCodeAndRedirect de localpart params (some sessID)

def serveLogin (de : DomainEntry) (form : LoginForm) : Handler Response :=
  if !form.parsed then .finish (.errorPage 400 "Bad Request" "invalid form data")
  else if !checkCSRF form.csrfCookie form.csrfToken then
    .finish (.errorPage 403 "Forbidden" "invalid or missing CSRF token")
  else (validateParams de form.params).bind fun wrong =>
    match wrong with
    | some wrong => .finish (.errorPage 400 "Bad Request" wrong)
    | none => (getOrSetCSRF form.csrfCookie).bind fun csrfToken =>
      match normalizeLocalpart form.username de.name with
      | none => .finish (renderLoginForm de form.params form.username "Invalid email or username." csrfToken)
      | some localpart => .call (.authenticate de.name localpart form.password) fun result =>
        match result with
        | .error e => .finish (renderLoginForm de form.params form.username (loginError e) csrfToken)
        | .ok _ => srv.startSession de localpart form.params

def s256 (verifier : Bytes) : Bytes := srv.digest.rawURLEncoding (srv.digest.sha256 verifier)

def verifyPKCE (verifier challenge method : Bytes) : Bool :=
  if method ≠ ascii "S256" ∨ verifier = [] then false else srv.s256 verifier = challenge

def codeMismatch (de : DomainEntry) (form : TokenForm) (c : AuthCode) : Option String :=
  if c.domain ≠ de.name then some "domain mismatch"
  else if c.clientID ≠ form.clientID then some "client_id mismatch"
  else if c.redirectURI ≠ form.redirectURI then some "redirect_uri mismatch"
  else if !srv.verifyPKCE form.codeVerifier c.pkceChallenge c.pkceMethod then some "PKCE verification failed"
  else none

def tokenClaims (de : DomainEntry) (issuer : Bytes) (form : TokenForm) (c : AuthCode) : Claims :=
  ⟨issuer, form.clientID, c.username, c.username ++ atSign :: de.name, c.nonce, srv.jwtTTLSec⟩

def signTokens (de : DomainEntry) (claims : Claims) : Handler Response :=
  .call (.currentKeyFor de.name) fun available =>
    if !available then .finish (.jsonError 500 "server_error" (.plain "signing key unavailable"))
    else .call (.sign de.name) fun signed =>
      if !signed then .finish (.jsonError 500 "server_error" (.plain "token signing failed"))
      else .call (.sign de.name) fun signed =>
        if !signed then .finish (.jsonError 500 "server_error" (.plain "token signing failed"))
        else .finish (.tokens claims)

def issueTokens (de : DomainEntry) (issuer : Bytes) (form : TokenForm) (c : AuthCode) : Handler Response :=
  (clientFor de form.clientID).bind fun found =>
    match found with
    | none => .finish (.jsonError 400 "invalid_client" (.plain "unknown client"))
    | some client =>
      if client.secret ≠ [] ∧ form.clientSecret ≠ client.secret then
        .finish (.jsonError 401 "invalid_client" (.plain "client authentication failed"))
      else signTokens de (srv.tokenClaims de issuer form c)

def serveToken (de : DomainEntry) (issuer : Bytes) (form : TokenForm) : Handler Response :=
  if !form.parsed then .finish (.jsonError 400 "invalid_request" (.plain "cannot parse form"))
  else if form.grantType ≠ ascii "authorization_code" then
    .finish (.jsonError 400 "unsupported_grant_type" (.plain "only authorization_code is supported"))
  else .call (.consumeCode form.code) fun result =>
    match result with
    | .error .failed => .finish (.jsonError 500 "server_error" (.plain "token exchange failed"))
    | .error _ => .finish (.jsonError 401 "invalid_grant" (.plain "invalid or expired authorization code"))
    | .ok c =>
      match srv.codeMismatch de form c with
      | some wrong => .finish (.jsonError 400 "invalid_grant" (.plain wrong))
      | none => srv.issueTokens de issuer form c

def maxClientNameLen : Nat := 200

def maxRedirectURIsPerReg : Nat := 10

def maxRedirectURILen : Nat := 2048

def validateRedirectURIScheme (uri : Bytes) : Option Message :=
  match srv.parseURL uri with
  | none => some ⟨"invalid redirect_uri: %q", some uri⟩
  | some u =>
    if u.host = [] then some ⟨"invalid redirect_uri: %q", some uri⟩
    else if u.hostname = ascii "localhost" ∨ u.hostname = ascii "127.0.0.1" ∨ u.hostname = ascii "::1" then none
    else if u.scheme ≠ ascii "https" then some ⟨"redirect_uri must use https (got %q)", some u.scheme⟩
    else none

def checkRedirectURI (uri : Bytes) : Option Message :=
  if maxRedirectURILen < uri.length then some (.plain "redirect_uri exceeds 2048 bytes")
  else srv.validateRedirectURIScheme uri

def deriveClientID (domain clientName : Bytes) (redirectURIs : List Bytes) : Bytes :=
  let sum := srv.digest.sha256 (domain ++ 0 :: clientName ++ 0 :: (sortStrings redirectURIs).flatMap (· ++ [0]))
  ascii "dyn_" ++ (srv.digest.base32 (sum.take 15)).map lowerByte

def registrationMatches (stored : RegisteredClient) (clientName : Bytes) (redirectURIs : List Bytes) : Bool :=
  stored.clientName = clientName && stored.redirectURIs.length = redirectURIs.length &&
    sortStrings stored.redirectURIs = sortStrings redirectURIs

def registerAs (de : DomainEntry) (req : RegistrationRequest) (clientID : Bytes)
    (answer : Nat → RegisteredClient → Response) : Handler Response :=
  .call .clock fun now =>
    .call (.registerClient ⟨clientID, de.name, req.clientName, req.redirectURIs, now⟩) fun _ =>
    .finish (answer 201 ⟨clientID, de.name, req.clientName, req.redirectURIs, now⟩)

-- Another registration under the derived id makes the id a random one.
def registerUnder (de : DomainEntry) (req : RegistrationRequest) (clientID : Bytes)
    (answer : Nat → RegisteredClient → Response) : Handler Response :=
  .call (.lookupClient de.name clientID) fun found =>
    match found with
    | none => registerAs de req clientID answer
    | some existing =>
      if registrationMatches existing req.clientName req.redirectURIs then .finish (answer 200 existing)
      else .call (.generateToken 16) fun random => registerAs de req random answer

def registrationError (req : RegistrationRequest) : Option Response :=
  if req.redirectURIs = [] then
    some (.jsonError 400 "invalid_redirect_uri" (.plain "redirect_uris is required"))
  else if maxRedirectURIsPerReg < req.redirectURIs.length then
    some (.jsonError 400 "invalid_redirect_uri" (.plain "at most 10 redirect_uris allowed per registration"))
  else if maxClientNameLen < req.clientName.length then
    some (.jsonError 400 "invalid_client_metadata" (.plain "client_name exceeds 200 bytes"))
  else (req.redirectURIs.findSome? srv.checkRedirectURI).map (.jsonError 400 "invalid_redirect_uri")

def registrationResponse (req : RegistrationRequest) (status : Nat) (client : RegisteredClient) : Response :=
  .registered status client
    (if req.tokenEndpointAuthMethod = [] then ascii "none" else req.tokenEndpointAuthMethod)
    (if req.grantTypes = [] then [ascii "authorization_code"] else req.grantTypes)
    (if req.responseTypes = [] then [ascii "code"] else req.responseTypes)

def serveRegister (de : DomainEntry) (body : Option RegistrationRequest) : Handler Response :=
  match body with
  | none => .finish (.jsonError 400 "invalid_client_metadata" (.plain "invalid JSON body"))
  | some req =>
    match srv.registrationError req with
    | some wrong => .finish wrong
    | none => registerUnder de req (srv.deriveClientID de.name req.clientName req.redirectURIs)
        (registrationResponse req)

def serveLogout (sessionCookie : Bytes) : Handler Response :=
  if sessionCookie = [] then .finish .noContent
  else .call (.deleteSession sessionCookie) fun _ => .finish .noContent

def atDomain (host : Bytes) (serve : DomainEntry → Handler Response) : Handler Response :=
  match srv.domainForHost host with
  | none => .finish .unknownDomain
  | some de => serve de

def handler : Request → Handler Response
  | .authorize host responseType params csrfCookie sessionCookie =>
    srv.atDomain host fun de => srv.serveAuthorize de responseType params csrfCookie sessionCookie
  | .login host form => srv.atDomain host fun de => srv.serveLogin de form
  | .token scheme host form => srv.atDomain host fun de => srv.serveToken de (issuerBase scheme host) form
  | .register host body => srv.atDomain host fun de => srv.serveRegister de body
  | .logout host sessionCookie => srv.atDomain host fun _ => serveLogout sessionCookie
  | .sweep => .call .clock fun now => .call (.sweepExpired now) fun _ => .finish .noContent

def service : Service Op.reply Request Moment Response Store := ⟨srv.handler, srv.perform⟩

end Server

end Maildancer.Oidc

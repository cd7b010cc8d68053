import Maildancer.Oidc

namespace Maildancer.Oidc

open List Text Server

abbrev Event := Entry Op.reply Request Moment Response

abbrev History := Log Op.reply Request Moment Response

-- What a request has seen: a login of the user, a session of the user, a client with the redirect URI.
def SawLogin (past : List Event) (domain username : Bytes) : Prop :=
  ∃ password x session, .called (.authenticate domain username password) x (.ok session) ∈ past

-- A lookup of this request has found a session of the user.
def SawSession (past : List Event) (domain username : Bytes) : Prop :=
  ∃ id x sess, .called (.lookupSession id) x (some sess) ∈ past ∧ sess.domain = domain ∧ sess.username = username

-- The redirect URI belongs to a configured client or to one that a lookup has found.
def SawClient (srv : Server) (past : List Event) (domain clientID uri : Bytes) : Prop :=
  (∃ client ∈ srv.clients, client.domain = domain ∧ client.id = clientID ∧ uri ∈ client.redirectURIs) ∨
    ∃ x rc, .called (.lookupClient domain clientID) x (some rc) ∈ past ∧ uri ∈ rc.redirectURIs

-- The request has stored no code so far.
def Unstored (past : List Event) : Prop := ∀ c x, .called (.storeCode c) x () ∉ past

-- What a request must have seen before it stores a code.
structure MayStoreCode (srv : Server) (past : List Event) (c : AuthCode) : Prop where
  drawn : ∃ n x, .called (.generateToken n) x c.code ∈ past
  first : Unstored past
  user : SawLogin past c.domain c.username ∨ SawSession past c.domain c.username
  client : SawClient srv past c.domain c.clientID c.redirectURI

-- What a token request must have seen before it answers with tokens.
structure MayIssueTokens (srv : Server) (past : List Event) (scheme host : Bytes) (form : TokenForm) (claims : Claims)
    (de : DomainEntry) (c : AuthCode) : Prop where
  consumed : ∃ x, .called (.consumeCode form.code) x (.ok c) ∈ past
  served : srv.domainForHost host = some de
  matched : srv.codeMismatch de form c = none
  claimed : claims = srv.tokenClaims de (issuerBase scheme host) form c

-- The calls that must be earned by earlier answers of the same request.
def CallAllowed (srv : Server) (past : List Event) : Op → Prop
  | .storeCode c => MayStoreCode srv past c
  | .storeSession sess => SawLogin past sess.domain sess.username
  | _ => True

-- The answers that must be earned, and that a logout has deleted its session.
def AnswerAllowed (srv : Server) (past : List Event) (request : Request) : Response → Prop
  | .redirect uri code _ _ => ∃ c x, .called (.storeCode c) x () ∈ past ∧ c.code = code ∧ c.redirectURI = uri
  | .tokens claims => ∃ scheme host form de c,
      request = .token scheme host form ∧ MayIssueTokens srv past scheme host form claims de c
  | .noContent => ∀ host id, request = .logout host id → id ≠ [] → ∃ x, .called (.deleteSession id) x () ∈ past
  | _ => True

def Allowed (srv : Server) (past : List Event) : Event → Prop
  | .began _ => True
  | .called o _ _ => CallAllowed srv past o
  | .answered request result => AnswerAllowed srv past request result

section Evidence

variable {srv : Server} {past past' : List Event} {domain username clientID uri : Bytes}

lemma SawLogin.mono (h : SawLogin past domain username) (hs : past ⊆ past') : SawLogin past' domain username := by
  obtain ⟨password, x, session, hm⟩ := h
  exact ⟨password, x, session, hs hm⟩

lemma SawSession.mono (h : SawSession past domain username) (hsub : past ⊆ past') :
    SawSession past' domain username := by
  obtain ⟨id, x, sess, hm, hs⟩ := h
  exact ⟨id, x, sess, hsub hm, hs⟩

lemma SawClient.mono (h : SawClient srv past domain clientID uri) (hsub : past ⊆ past') :
    SawClient srv past' domain clientID uri := by
  obtain hs | ⟨x, rc, hm, hu⟩ := h
  · exact .inl hs
  · exact .inr ⟨x, rc, hsub hm, hu⟩

-- A longer past of one request in which no further code is stored.
structure Further (past past' : List Event) : Prop where
  keeps : past ⊆ past'
  codes : ∀ c x, .called (.storeCode c) x () ∈ past' → .called (.storeCode c) x () ∈ past

lemma Further.refl (past : List Event) : Further past past := ⟨List.Subset.refl _, fun _ _ h => h⟩

lemma Further.cons (past : List Event) {o : Op} (x : Moment) (a : o.reply) (ho : ∀ c, o ≠ .storeCode c) :
    Further past (.called o x a :: past) := by
  refine ⟨subset_cons_self _ _, fun c y hm => ?_⟩
  cases hm with
  | head => exact absurd rfl (ho c)
  | tail _ hm => exact hm

lemma Further.trans {past'' : List Event} (h : Further past past') (h' : Further past' past'') :
    Further past past'' :=
  ⟨List.Subset.trans h.keeps h'.keeps, fun c x hm => h.codes c x (h'.codes c x hm)⟩

lemma Further.unstored (h : Further past past') (hp : Unstored past) : Unstored past' :=
  fun c x hm => hp c x (h.codes c x hm)

end Evidence

variable {name host : Bytes}

lemma domainEntry_name {srv : Server} {de : DomainEntry} (h : srv.domainEntry name = some de) :
    de.name = name := by
  obtain ⟨agent, -, rfl⟩ := Option.map_eq_some_iff.mp h
  rfl

lemma domainEntry_clients {srv : Server} {de : DomainEntry} (h : srv.domainEntry name = some de) :
    de.clients = srv.clients.filter (·.domain = name) := by
  obtain ⟨agent, -, rfl⟩ := Option.map_eq_some_iff.mp h
  rfl

lemma domainForHost_served {srv : Server} {de : DomainEntry} (h : srv.domainForHost host = some de) :
    srv.domainEntry de.name = some de := by
  obtain ⟨name, -, hn⟩ := exists_of_findSome?_eq_some h
  rw [domainEntry_name hn, hn]

section Handlers

variable {srv : Server} {de : DomainEntry} {past : List Event} {request : Request}

lemma clientFor_follows (hde : srv.domainEntry de.name = some de) (clientID : Bytes) (past : List Event) :
    (clientFor de clientID).Follows (Allowed srv)
      (fun past' found => Further past past' ∧ ∀ client, found = some client →
        ∀ uri ∈ client.redirectURIs, SawClient srv past' de.name clientID uri) past := by
  rw [clientFor]
  cases hf : de.clients.find? (·.id = clientID) with
  | some client =>
    refine ⟨.refl past, fun client' hc uri hu => .inl ?_⟩
    cases hc
    have hm := mem_of_find?_eq_some hf
    rw [domainEntry_clients hde, mem_filter] at hm
    exact ⟨client, hm.1, by simpa using hm.2, by simpa using List.find?_some hf, hu⟩
  | none =>
    refine fun x found => ⟨trivial, .cons past x found (fun c h => by cases h), fun client hc uri hu => ?_⟩
    obtain ⟨rc, rfl, rfl⟩ := Option.map_eq_some_iff.mp hc
    exact .inr ⟨x, rc, mem_cons_self, hu⟩

lemma validateParams_follows (hde : srv.domainEntry de.name = some de) (params : AuthorizeParams)
    (past : List Event) : (validateParams de params).Follows (Allowed srv)
      (fun past' wrong => Further past past' ∧
        (wrong = none → SawClient srv past' de.name params.clientID params.redirectURI)) past := by
  have hr : ∀ text : String, Further past past ∧
      (some text = none → SawClient srv past de.name params.clientID params.redirectURI) :=
    fun text => ⟨.refl past, fun h => by cases h⟩
  rw [validateParams]
  split_ifs
  · exact hr _
  · exact hr _
  · exact hr _
  · exact hr _
  refine (clientFor_follows hde params.clientID past).bind fun past' found hf => ?_
  rcases found with _ | client
  · exact ⟨hf.1, fun h => by cases h⟩
  refine ⟨hf.1, fun hn => ?_⟩
  have hv : validRedirectURI client params.redirectURI = true := by
    by_contra hi
    rw [if_neg hi] at hn
    cases hn
  exact hf.2 client rfl _ (by simpa [validRedirectURI] using hv)

lemma issueCodeAndRedirect_follows (params : AuthorizeParams) (username : Bytes) (cookie : Option Bytes)
    (hu : Unstored past) (hus : SawLogin past de.name username ∨ SawSession past de.name username)
    (hc : SawClient srv past de.name params.clientID params.redirectURI) :
    (srv.issueCodeAndRedirect de username params cookie).Follows (Allowed srv)
      (fun past result => AnswerAllowed srv past request result) past := by
  refine fun x code => ⟨trivial, fun y now => ⟨trivial, fun z _ => ⟨?_, ?_⟩⟩⟩
  · have hf := (Further.cons past x code fun c h => by cases h).trans (.cons _ y now fun c h => by cases h)
    refine ⟨⟨24, x, by simp⟩, hf.unstored hu, ?_, hc.mono hf.keeps⟩
    exact hus.imp (·.mono hf.keeps) (·.mono hf.keeps)
  · simp only [Procedure.Follows]
    split_ifs
    · exact ⟨_, z, mem_cons_self, rfl, rfl⟩
    · trivial

lemma getOrSetCSRF_follows (cookie : Bytes) (past : List Event) :
    (getOrSetCSRF cookie).Follows (Allowed srv) (fun past' _ => Further past past') past := by
  rw [getOrSetCSRF]
  split_ifs
  · exact Further.refl past
  · exact fun x token => ⟨trivial, .cons past x token fun c h => by cases h⟩

lemma askForLogin_follows (params : AuthorizeParams) (csrfCookie : Bytes) (past : List Event) :
    (askForLogin de params csrfCookie).Follows (Allowed srv)
      (fun past result => AnswerAllowed srv past request result) past :=
  (getOrSetCSRF_follows csrfCookie past).bind fun _ _ _ => trivial

lemma serveAuthorize_follows (hde : srv.domainEntry de.name = some de) (hu : Unstored past)
    (responseType : Bytes) (params : AuthorizeParams) (csrfCookie sessionCookie : Bytes) :
    (srv.serveAuthorize de responseType params csrfCookie sessionCookie).Follows (Allowed srv)
      (fun past result => AnswerAllowed srv past request result) past := by
  rw [serveAuthorize]
  split_ifs with ht hc
  · trivial
  · refine (validateParams_follows hde params past).bind fun past' wrong hw => ?_
    rcases wrong with _ | wrong
    · exact askForLogin_follows params csrfCookie past'
    · trivial
  · refine (validateParams_follows hde params past).bind fun past' wrong hw => ?_
    rcases wrong with _ | wrong
    · refine fun x found => ⟨trivial, ?_⟩
      rcases found with _ | sess
      · exact askForLogin_follows params csrfCookie _
      have hf : Further past' (.called (.lookupSession sessionCookie) x (some sess) :: past') :=
        .cons past' x _ fun c h => by cases h
      show Procedure.Follows _ (if sess.domain = de.name then _ else _) _ _
      split_ifs with hd
      · refine issueCodeAndRedirect_follows params sess.username none
          ((hw.1.trans hf).unstored hu) (.inr ?_) ((hw.2 rfl).mono hf.keeps)
        exact ⟨sessionCookie, x, sess, mem_cons_self, hd, rfl⟩
      · exact askForLogin_follows params csrfCookie _
    · trivial

lemma startSession_follows (params : AuthorizeParams) (localpart : Bytes) (hu : Unstored past)
    (hl : SawLogin past de.name localpart)
    (hc : SawClient srv past de.name params.clientID params.redirectURI) :
    (srv.startSession de localpart params).Follows (Allowed srv)
      (fun past result => AnswerAllowed srv past request result) past := by
  refine fun x sessID => ⟨trivial, fun y now => ⟨trivial, fun z a => ?_⟩⟩
  have hd := (Further.cons past x sessID fun c h => by cases h).trans (.cons _ y now fun c h => by cases h)
  have hf := hd.trans (.cons _ z a fun c h => by cases h)
  refine ⟨hl.mono hd.keeps, issueCodeAndRedirect_follows params localpart _
    (hf.unstored hu) (.inl (hl.mono hf.keeps)) (hc.mono hf.keeps)⟩

lemma serveLogin_follows (hde : srv.domainEntry de.name = some de) (hu : Unstored past) (form : LoginForm) :
    (srv.serveLogin de form).Follows (Allowed srv) (fun past result => AnswerAllowed srv past request result) past := by
  rw [serveLogin]
  split_ifs
  · trivial
  · trivial
  refine (validateParams_follows hde form.params past).bind fun past' wrong hw => ?_
  rcases wrong with _ | wrong
  · refine (getOrSetCSRF_follows form.csrfCookie past').bind fun past'' csrfToken hc => ?_
    rcases hn : normalizeLocalpart form.username de.name with _ | localpart
    · trivial
    refine fun x result => ⟨trivial, ?_⟩
    cases result with
    | error e => trivial
    | ok session =>
      have hf : Further past''
          (.called (.authenticate de.name localpart form.password) x (.ok session) :: past'') :=
        .cons past'' x _ fun c h => by cases h
      have ha := (hw.1.trans hc).trans hf
      refine startSession_follows form.params localpart (ha.unstored hu) ?_
        ((hw.2 rfl).mono (hc.trans hf).keeps)
      exact ⟨form.password, x, session, mem_cons_self⟩
  · trivial

variable {scheme : Bytes} {form : TokenForm} {c : AuthCode}

lemma signTokens_follows {claims : Claims} (hi : MayIssueTokens srv past scheme host form claims de c) :
    (signTokens de claims).Follows (Allowed srv)
      (fun past result => AnswerAllowed srv past (.token scheme host form) result) past := by
  refine fun x available => ⟨trivial, ?_⟩
  rcases available with _ | _
  · trivial
  refine fun y signed => ⟨trivial, ?_⟩
  rcases signed with _ | _
  · trivial
  refine fun z signed => ⟨trivial, ?_⟩
  cases signed with
  | false => trivial
  | true =>
    obtain ⟨w, hm⟩ := hi.consumed
    exact ⟨scheme, host, form, de, c, rfl, ⟨w, by simp [hm]⟩, hi.served, hi.matched, hi.claimed⟩

lemma issueTokens_follows (hde : srv.domainEntry de.name = some de)
    (hi : MayIssueTokens srv past scheme host form (srv.tokenClaims de (issuerBase scheme host) form c) de c) :
    (srv.issueTokens de (issuerBase scheme host) form c).Follows (Allowed srv)
      (fun past result => AnswerAllowed srv past (.token scheme host form) result) past := by
  refine (clientFor_follows hde form.clientID past).bind fun past' found hf => ?_
  rcases found with _ | client
  · trivial
  show Procedure.Follows _ (if _ then _ else _) _ _
  split_ifs
  · trivial
  · obtain ⟨x, hm⟩ := hi.consumed
    exact signTokens_follows ⟨⟨x, hf.1.keeps hm⟩, hi.served, hi.matched, hi.claimed⟩

lemma serveToken_follows (hh : srv.domainForHost host = some de) (form : TokenForm) :
    (srv.serveToken de (issuerBase scheme host) form).Follows (Allowed srv)
      (fun past result => AnswerAllowed srv past (.token scheme host form) result) past := by
  rw [serveToken]
  split_ifs
  · trivial
  · trivial
  refine fun x result => ⟨trivial, ?_⟩
  rcases result with e | c
  · cases e <;> trivial
  dsimp only
  rcases hm : srv.codeMismatch de form c with _ | wrong
  · exact issueTokens_follows (domainForHost_served hh) ⟨⟨x, mem_cons_self⟩, hh, hm, rfl⟩
  · trivial

lemma registerAs_follows (req : RegistrationRequest) (clientID : Bytes) :
    (registerAs de req clientID (registrationResponse req)).Follows (Allowed srv)
      (fun past result => AnswerAllowed srv past request result) past :=
  fun _ _ => ⟨trivial, fun _ _ => ⟨trivial, trivial⟩⟩

lemma registrationError_allowed {req : RegistrationRequest} {wrong : Response}
    (h : srv.registrationError req = some wrong) : AnswerAllowed srv past request wrong := by
  rw [registrationError] at h
  split_ifs at h
  · cases h
    trivial
  · cases h
    trivial
  · cases h
    trivial
  · obtain ⟨text, -, rfl⟩ := Option.map_eq_some_iff.mp h
    trivial

lemma serveRegister_follows (body : Option RegistrationRequest) :
    (srv.serveRegister de body).Follows (Allowed srv) (fun past result => AnswerAllowed srv past request result)
      past := by
  rcases body with _ | req
  · trivial
  rw [serveRegister]
  rcases hw : srv.registrationError req with _ | wrong
  · refine fun x found => ⟨trivial, ?_⟩
    cases found with
    | none => exact registerAs_follows req _
    | some existing =>
      show Procedure.Follows _ (if _ then _ else _) _ _
      split_ifs
      · trivial
      · exact fun y random => ⟨trivial, registerAs_follows req random⟩
  · exact registrationError_allowed hw

lemma atDomain_follows {serve : DomainEntry → Handler Response}
    (h : ∀ de, srv.domainForHost host = some de → (serve de).Follows (Allowed srv)
      (fun past result => AnswerAllowed srv past request result) past) :
    (srv.atDomain host serve).Follows (Allowed srv)
      (fun past result => AnswerAllowed srv past request result) past := by
  rw [atDomain]
  rcases hh : srv.domainForHost host with _ | de
  · trivial
  · exact h de hh

lemma handler_follows (request : Request) :
    (srv.handler request).Follows (Allowed srv) (fun past result => Allowed srv past (.answered request result))
      [.began request] := by
  have hu : Unstored [.began request] := fun c x hm => by simp at hm
  cases request with
  | authorize host responseType params csrfCookie sessionCookie =>
    exact atDomain_follows fun de hde =>
      serveAuthorize_follows (domainForHost_served hde) hu responseType params csrfCookie sessionCookie
  | login host form =>
    exact atDomain_follows fun de hde => serveLogin_follows (domainForHost_served hde) hu form
  | token scheme host form => exact atDomain_follows fun de hde => serveToken_follows hde form
  | register host body => exact atDomain_follows fun de hde => serveRegister_follows body
  | logout host sessionCookie =>
    refine atDomain_follows fun de hde => ?_
    rw [serveLogout]
    split_ifs with hc
    · rintro host id hr hid
      cases hr
      exact absurd hc hid
    · refine fun x a => ⟨trivial, fun host id hr _ => ?_⟩
      cases hr
      exact ⟨x, List.mem_cons_self⟩
  | sweep => exact fun x now => ⟨trivial, fun y a => ⟨trivial, fun host id hr => by cases hr⟩⟩

end Handlers

end Maildancer.Oidc

import Maildancer.Auth.Changes
import Maildancer.Oidc.Consistency

namespace Maildancer.Oidc

open Text Server Service

def LoggedIn (srv : Server) (log : History) (i : Nat) (domain username : Bytes) : Prop :=
  ∃ password x session de, (i, .called (.authenticate domain username password) x (.ok session)) ∈ log ∧
    srv.domainEntry domain = some de ∧ de.agent.accepts srv.hasher username password = true

def SignedOn (srv : Server) (log : History) (i : Nat) (domain username : Bytes) : Prop :=
  ∃ x made earlier j y before,
    (i, .called (.lookupSession made.id) x (some (srv.keptSession made))) :: earlier <:+ log ∧
    x.now ≤ made.expiresAt ∧ made.domain = domain ∧ made.username = username ∧
    (j, .called (.storeSession made) y ()) :: before <:+ earlier ∧ LoggedIn srv before j domain username

def Registered (srv : Server) (log : History) (domain clientID uri : Bytes) : Prop :=
  (∃ client ∈ srv.clients, client.domain = domain ∧ client.id = clientID ∧ uri ∈ client.redirectURIs) ∨
    ∃ j x rc, (j, .called (.registerClient rc) x ()) ∈ log ∧ rc.domain = domain ∧ rc.clientID = clientID ∧
      uri ∈ rc.redirectURIs

def Created (srv : Server) (log : History) (i : Nat) (c : AuthCode) : Prop :=
  ∃ x before, (i, .called (.storeCode c) x ()) :: before <:+ log ∧
    (LoggedIn srv before i c.domain c.username ∨ SignedOn srv before i c.domain c.username) ∧
    Registered srv before c.domain c.clientID c.redirectURI

structure Exchanged (srv : Server) (log : History) (i : Nat) (host : Bytes) (form : TokenForm) (claims : Claims)
    (c : AuthCode) : Prop where
  subject : claims.subject = c.username
  email : claims.email = c.username ++ atSign :: c.domain
  audience : claims.audience = c.clientID
  host : ∃ de, srv.domainForHost host = some de ∧ de.name = c.domain
  clientID : form.clientID = c.clientID
  redirectURI : form.redirectURI = c.redirectURI
  verifier : ∀ verifier, srv.s256 verifier = c.pkceChallenge ↔ verifier = form.codeVerifier
  redeemed : ∃ x before j, (i, .called (.consumeCode c.code) x (.ok (srv.keptCode c))) :: before <:+ log ∧
    form.code = c.code ∧ x.now ≤ c.expiresAt ∧ Created srv before j c

-- The session was stored and not deleted since.
def Lasting (srv : Server) (id : Bytes) (sess : SsoSession) : History → Prop
  | [] => False
  | (_, .called (.storeSession made) _ _) :: earlier =>
    made.id = id ∧ srv.keptSession made = sess ∨ Lasting srv id sess earlier
  | (_, .called (.deleteSession gone) x _) :: earlier =>
    ¬ (x.written = true ∧ gone = id) ∧ Lasting srv id sess earlier
  | _ :: earlier => Lasting srv id sess earlier

def Recorded (srv : Server) (t : Store) (log : History) : Prop :=
  ∀ id sess, t.sessions id = some sess → Lasting srv id sess log

lemma stored_since {srv : Server} {id : Bytes} {sess : SsoSession} {i : Nat} {y : Moment} {before newer : History}
    (hw : y.written = true)
    (h : Lasting srv id sess (newer ++ (i, .called (.deleteSession id) y ()) :: before)) :
    ∃ k w made, (k, .called (.storeSession made) w ()) ∈ newer ∧ made.id = id ∧ srv.keptSession made = sess := by
  induction newer with
  | nil => exact absurd ⟨hw, rfl⟩ h.1
  | cons entry newer ih =>
    have hmore : Lasting srv id sess (newer ++ (i, .called (.deleteSession id) y ()) :: before) →
        ∃ k w made, (k, .called (.storeSession made) w ()) ∈ entry :: newer ∧ made.id = id ∧
          srv.keptSession made = sess := by
      intro hl
      obtain ⟨k, w, made, hm, hs⟩ := ih hl
      exact ⟨k, w, made, List.mem_cons_of_mem _ hm, hs⟩
    obtain ⟨k, entry⟩ := entry
    cases entry with
    | called o w a =>
      cases o with
      | storeSession made => exact h.elim (fun hs => ⟨k, w, made, List.mem_cons_self, hs⟩) hmore
      | deleteSession gone => exact hmore h.2
      | _ => exact hmore h
    | _ => exact hmore h

-- The request has deleted the session. Unless the database has lost the deletion, what is found under the id
-- afterwards has been stored anew and has not expired.
def Ended (srv : Server) (log past : History) (i : Nat) (id : Bytes) : Prop :=
  ∃ y before, (i, .called (.deleteSession id) y ()) :: before <:+ past ∧ (y.written = true →
    ∀ j z sess newer, (j, .called (.lookupSession id) z (some sess)) ::
        (newer ++ (i, .called (.deleteSession id) y ()) :: before) <:+ log →
      (∃ k w made, (k, .called (.storeSession made) w ()) ∈ newer ∧ made.id = id ∧ srv.keptSession made = sess) ∧
        z.now ≤ sess.expiresAt)

variable {c : AuthCode} {de : DomainEntry} {form : TokenForm}

section Evidence

variable {srv : Server} {p : Pool Op.reply Request Moment Response Store} {log : History} {i : Nat}
  {domain username clientID uri : Bytes}
  (hreach : Reaches srv.service.step (Admits Fresh) (start newStore) p)

include hreach

lemma lawful_log : Lawful (Allowed srv) p.log := by
  refine lawful ?_ handler_follows hreach
  exact fun request => trivial

variable {x : Moment}

lemma reply_of_call {earlier : History} {o : Op} {a : o.reply}
    (hl : (i, .called o x a) :: earlier <:+ p.log) :
    ∃ t, Consistent srv t earlier ∧ (srv.perform o x t).2 = a :=
  reply_performed (fun _ hq => consistent hq) hreach hl

lemma loggedIn (hl : log <:+ p.log) (hsaw : SawLogin (own i log) domain username) :
    LoggedIn srv log i domain username := by
  obtain ⟨password, x, session, hm⟩ := hsaw
  obtain ⟨earlier, hs⟩ := suffix_of_mem (mem_own.mp hm)
  obtain ⟨t, -, hr⟩ := reply_of_call hreach (hs.trans hl)
  obtain ⟨de, hde, ha⟩ := authenticate_ok hr
  exact ⟨password, x, session, de, mem_own.mp hm, hde, ha⟩

lemma signedOn (hlog : log <:+ p.log) (hsaw : SawSession (own i log) domain username) :
    SignedOn srv log i domain username := by
  obtain ⟨id, x, sess, hmem, rfl, rfl⟩ := hsaw
  obtain ⟨earlier, hs⟩ := suffix_of_mem (mem_own.mp hmem)
  obtain ⟨t, ht, hr⟩ := reply_of_call hreach (hs.trans hlog)
  obtain ⟨hse, hn⟩ := lookupSession_some hr
  obtain ⟨j, y, made, hm, rfl, rfl⟩ := ht.sessions id sess hse
  have he := ((List.suffix_cons _ _).trans hs).trans hlog
  obtain ⟨before, hb⟩ := suffix_of_mem hm
  have hl := lawful_log hreach j _ before (hb.trans he)
  refine ⟨x, made, earlier, j, y, before, hs, hn.trans (srv.keptTime_le _), rfl, rfl, hb, ?_⟩
  exact loggedIn hreach (((List.suffix_cons _ _).trans hb).trans he) hl

lemma registered (hl : log <:+ p.log) (hsaw : SawClient srv (own i log) domain clientID uri) :
    Registered srv log domain clientID uri := by
  obtain hs | ⟨x, rc, hmem, hu⟩ := hsaw
  · exact .inl hs
  obtain ⟨earlier, hsu⟩ := suffix_of_mem (mem_own.mp hmem)
  obtain ⟨t, ht, hr⟩ := reply_of_call hreach (hsu.trans hl)
  obtain ⟨j, y, made, hm, hk, rfl⟩ := ht.clients _ rc (lookupClient_some hr)
  cases hk
  exact .inr ⟨j, y, made, hsu.mem (List.mem_cons_of_mem _ hm), rfl, rfl, hu⟩

lemma created (hl : log <:+ p.log)
    (hm : (i, .called (.storeCode c) x ()) ∈ log) : Created srv log i c := by
  obtain ⟨before, hs⟩ := suffix_of_mem hm
  have hb := ((List.suffix_cons _ _).trans hs).trans hl
  have hmay := lawful_log hreach i _ before (hs.trans hl)
  refine ⟨x, before, hs, ?_, registered hreach hb hmay.client⟩
  exact hmay.user.imp (loggedIn hreach hb) (signedOn hreach hb)

lemma recorded : Recorded srv p.shared p.log := by
  refine invariant ?_ handler_follows ?_ ?_ ?_ ?_ hreach
  · exact fun request => trivial
  · exact fun id sess hs => nomatch hs
  · exact fun t log i request h => h
  · intro t log i o x h _ _ _ id sess hs
    obtain hold | ⟨made, rfl, hid, hk⟩ := perform_sessions hs
    · have hl := h id sess hold
      cases o with
      | storeSession made => exact .inr hl
      | deleteSession gone =>
        refine ⟨?_, hl⟩
        rintro ⟨hw, rfl⟩
        simp [service, Server.perform, hw, Store.deleteSession] at hs
      | _ => exact hl
    · exact .inl ⟨hid, hk⟩
  · exact fun t log i request result h _ _ _ => h

lemma lasting_of_found {id : Bytes} {sess : SsoSession} {earlier : History}
    (hfound : (i, .called (.lookupSession id) x (some sess)) :: earlier <:+ p.log) :
    Lasting srv id sess earlier ∧ x.now ≤ sess.expiresAt := by
  obtain ⟨t, ht, hr⟩ := reply_performed (fun _ hq => recorded hq) hreach hfound
  obtain ⟨hs, hn⟩ := @lookupSession_some srv _ _ _ _ hr
  exact ⟨ht id sess hs, hn⟩

end Evidence

lemma s256_inj (srv : Server) {a b : Bytes} (h : srv.s256 a = srv.s256 b) : a = b :=
  srv.digest.sha256_inj a b (srv.digest.rawURLEncoding_inj _ _ h)

lemma codeMismatch_none {srv : Server} (h : srv.codeMismatch de form c = none) :
    c.domain = de.name ∧ c.clientID = form.clientID ∧ c.redirectURI = form.redirectURI ∧
      srv.s256 form.codeVerifier = c.pkceChallenge := by
  rw [codeMismatch] at h
  split_ifs at h with hd hc hu hp
  refine ⟨not_not.mp hd, not_not.mp hc, not_not.mp hu, ?_⟩
  rw [Bool.not_eq_true', Bool.not_eq_false, verifyPKCE] at hp
  split_ifs at hp
  simpa using hp

lemma exchanged {srv : Server} {p : Pool Op.reply Request Moment Response Store}
    (hreach : Reaches srv.service.step (Admits Fresh) (start newStore) p) {log : History} (hl : log <:+ p.log)
    {i : Nat} {scheme host : Bytes} {claims : Claims}
    (hmay : MayIssueTokens srv (own i log) scheme host form claims de c) :
    ∃ made, Exchanged srv log i host form claims made := by
  obtain ⟨⟨x, hmem⟩, hde, hm, rfl⟩ := hmay
  obtain ⟨earlier, hs⟩ := suffix_of_mem (mem_own.mp hmem)
  obtain ⟨t, ht, hr⟩ := reply_of_call hreach (hs.trans hl)
  obtain ⟨hc, hn, -⟩ := consumeCode_ok hr
  obtain ⟨j, y, made, hma, hsa, rfl⟩ := ht.codes _ _ hc
  have he := ((List.suffix_cons _ _).trans hs).trans hl
  obtain ⟨hd, hcl, hu, hv⟩ := codeMismatch_none hm
  have hve : ∀ verifier, srv.s256 verifier = made.pkceChallenge ↔ verifier = form.codeVerifier := by
    intro verifier
    constructor
    · intro h
      exact s256_inj srv (h.trans hv.symm)
    · rintro rfl
      exact hv
  refine ⟨made, rfl, ?_, hcl.symm, ⟨de, hde, hd.symm⟩, hcl.symm, hu.symm, hve,
    x, earlier, j, ?_, hsa.symm, hn.trans (srv.keptTime_le _), created hreach he hma⟩
  · exact congrArg (fun name => made.username ++ atSign :: name) hd.symm
  · rw [hsa]
    exact hs

theorem tokens_only_for_authenticated_users (srv : Server) (p : Pool Op.reply Request Moment Response Store)
    (hreach : Reaches srv.service.step (Admits Fresh) (start newStore) p) :
    (∀ i request claims earlier, (i, .answered request (.tokens claims)) :: earlier <:+ p.log →
      ∃ scheme host form c, request = .token scheme host form ∧ Exchanged srv earlier i host form claims c) ∧
    (p.log.filterMap tokenCode).Nodup ∧ (p.log.filterMap storedCode).Nodup ∧
    ∀ i request uri code state cookie earlier,
      (i, .answered request (.redirect uri code state cookie)) :: earlier <:+ p.log →
      ∃ c, c.code = code ∧ c.redirectURI = uri ∧ Created srv earlier i c := by
  refine ⟨?_, (consistent hreach).exchangedOnce, (consistent hreach).storedOnce, ?_⟩
  · intro i request claims earlier hl
    obtain ⟨scheme, host, form, de, c, rfl, hm⟩ := lawful_log hreach i _ earlier hl
    obtain ⟨made, hma⟩ := exchanged hreach ((List.suffix_cons _ _).trans hl) hm
    exact ⟨scheme, host, form, made, rfl, hma⟩
  · intro i request uri code state cookie earlier hl
    obtain ⟨c, x, hme, hc, hu⟩ := lawful_log hreach i _ earlier hl
    exact ⟨c, hc, hu, created hreach ((List.suffix_cons _ _).trans hl) (mem_own.mp hme)⟩

def sampleServer : Server where
  hasher := Auth.speller
  digest := ⟨id, id, id, fun _ _ h => h, fun _ _ h => h⟩
  hostOf := id
  parseURL := fun uri => some ⟨ascii "https", uri, uri⟩
  keptTime := id
  keptTime_le := fun _ => le_rfl
  agents := fun name =>
    if name = ascii "d.o" then some ⟨[⟨ascii "alice", Auth.spell (ascii "pw"), ascii "alice"⟩]⟩ else none
  clients := [⟨ascii "d.o", ascii "web", [], [ascii "https://w/cb"]⟩]
  sessionTTLSec := 60
  jwtTTLSec := 60

def sampleLogin : Request :=
  .login (ascii "auth.d.o") ⟨true, ascii "t", ascii "t",
    ⟨ascii "web", ascii "https://w/cb", [], [], ascii "v", ascii "S256", []⟩, ascii "alice@d.o", ascii "pw"⟩

def sampleExchange (code : Bytes) : Request :=
  .token (ascii "https") (ascii "d.o")
    ⟨true, ascii "authorization_code", code, ascii "https://w/cb", ascii "web", ascii "v", []⟩

def sampleAdvance (i : Nat) (draw : UInt8) : Move Request Moment := .advances i ⟨0, [draw], .notFound, true, true⟩

-- A login, which draws its code at its fifth call, and two requests with that code.
def sampleMoves : List (Move Request Moment) :=
  .begins 0 sampleLogin :: [1, 2, 3, 4, 5, 6, 7, 8].map (sampleAdvance 0) ++
    .begins 1 (sampleExchange [5]) :: .begins 2 (sampleExchange [5]) :: sampleAdvance 1 9 :: sampleAdvance 2 9 ::
    List.replicate 4 (sampleAdvance 1 9) ++ [sampleAdvance 2 9]

lemma sampleMoves_run : (runSteps sampleServer.service.step (start newStore) sampleMoves).isSome = true := by
  decide +kernel

theorem alice_gets_one_token : ∃ p, Reaches sampleServer.service.step (Admits Fresh) (start newStore) p ∧
    p.log.filterMap tokenCode = [[5]] ∧ (p.log.filterMap storedCode).Nodup ∧
    ∀ i request claims earlier, (i, .answered request (.tokens claims)) :: earlier <:+ p.log →
      ∃ scheme host form c, request = .token scheme host form ∧
        Exchanged sampleServer earlier i host form claims c := by
  have hreach := Reaches.of_along (by decide +kernel : Along sampleServer.service.step (Admits Fresh) _
    sampleMoves) (Option.some_get sampleMoves_run).symm
  have ht := tokens_only_for_authenticated_users sampleServer _ hreach
  exact ⟨_, hreach, by decide +kernel, ht.2.2.1, ht.1⟩

def sampleAuthorize : Request :=
  .authorize (ascii "d.o") (ascii "code") ⟨ascii "web", ascii "https://w/cb", [], [], ascii "v", ascii "S256", []⟩
    (ascii "t") [2]

-- A login, an authorize with its session, a logout, and an authorize with the same cookie.
def sampleLogout : List (Move Request Moment) :=
  sampleMoves.take 9 ++ .begins 1 sampleAuthorize :: List.replicate 5 (sampleAdvance 1 9) ++
    .begins 2 (.logout (ascii "d.o") [2]) :: List.replicate 2 (sampleAdvance 2 9) ++
    .begins 3 sampleAuthorize :: List.replicate 2 (sampleAdvance 3 9)

def lookups (log : History) : List (Option SsoSession) :=
  log.filterMap fun entry =>
    match entry.2 with
    | .called (.lookupSession _) _ found => some found
    | _ => none

lemma sampleLogout_run : (runSteps sampleServer.service.step (start newStore) sampleLogout).isSome = true := by
  decide +kernel

end Maildancer.Oidc

import Maildancer.Domains
import Maildancer.Memo
import Maildancer.Queue.Findable
import Maildancer.Scheduler.Batches

namespace Maildancer.Scheduler

open List Text Toml Queue Domains

structure OutboundSection where
  strategy : Bytes
  smarthost : Bytes
  smarthostUser : Bytes
  smarthostUserFile : Bytes
  passwordFile : Bytes
deriving DecidableEq

def OutboundSection.empty : OutboundSection := ⟨[], [], [], [], []⟩

structure OutboundConfig extends OutboundSection where
  password : Bytes
deriving DecidableEq

-- The settings of the queue-manager and the files it reads. A configuration
-- file is missing if it does not exist.
structure OutboundSite where
  queueDir : Bytes
  domainConfigPath : Bytes
  outbound : OutboundSection
  config : Bytes → ConfigFile
  readFile : Bytes → Option Bytes

def bodyPath (queueDir : Bytes) (b : BodyFile) : Bytes := joinPath (queueDir :: ascii "msg" :: (b.dir ++ [b.name]))

def senderDomainFromBodyPath (queueDir bodyPath : Bytes) : Bytes :=
  let msgDir := joinPath [queueDir, ascii "msg"] ++ [slash]
  let rel := trimPrefix msgDir bodyPath
  if rel = bodyPath then []
  else match splitN slash 3 rel with
    | [tld, domain, _] => domain ++ ascii "." ++ tld
    | _ => []

def unmarshalOutbound (t : Table) : Option OutboundSection := do
  let outbound ← tableField t "outbound"
  return {
    strategy := ← textField outbound "strategy"
    smarthost := ← textField outbound "smarthost"
    smarthostUser := ← textField outbound "smarthost_user"
    smarthostUserFile := ← textField outbound "smarthost_user_file"
    passwordFile := ← textField outbound "password_file" }

def readOutboundFromFile : ConfigFile → Option OutboundSection
  | .missing => some .empty
  | .unusable => none
  | .table t => unmarshalOutbound t

def override (base own : Bytes) : Bytes := if own = [] then base else own

-- A key that the domain sets wins over the system's.
def OutboundSection.over (own base : OutboundSection) : OutboundSection where
  strategy := override base.strategy own.strategy
  smarthost := override base.smarthost own.smarthost
  smarthostUser := override base.smarthostUser own.smarthostUser
  smarthostUserFile := override base.smarthostUserFile own.smarthostUserFile
  passwordFile := override base.passwordFile own.passwordFile

namespace OutboundSite

variable (site : OutboundSite)

def domainConfigFile (domain : Bytes) : Bytes := joinPath [site.domainConfigPath, domain, ascii "config.toml"]

def systemOutbound : Option OutboundSection :=
  readOutboundFromFile (site.config (joinPath [site.domainConfigPath, ascii "config.toml"]))

def ownOutbound (domain : Bytes) : Option OutboundSection :=
  readOutboundFromFile (site.config (site.domainConfigFile domain))

def loadOutboundConfig (domain : Bytes) : Option OutboundSection := do
  let system ← site.systemOutbound
  let own ← site.ownOutbound domain
  return own.over system

-- The password, and a user name that replaces the one in the section. A file
-- that cannot be read leaves things as they are.
def readSecrets (locate : Bytes → Bytes) (sec : OutboundSection) : OutboundConfig :=
  let password :=
    if sec.passwordFile = [] then [] else ((site.readFile (locate sec.passwordFile)).map trimSpace).getD []
  let user :=
    if sec.smarthostUserFile = [] then sec.smarthostUser
    else ((site.readFile (locate sec.smarthostUserFile)).map trimSpace).getD sec.smarthostUser
  { sec with smarthostUser := user, password := password }

def domainSecret (domain path : Bytes) : Bytes :=
  if isAbs path then path else joinPath [site.domainConfigPath, domain, path]

def globalSecret (path : Bytes) : Bytes :=
  if isAbs path || site.domainConfigPath = [] then path else joinPath [site.domainConfigPath, path]

-- Without a smarthost of its own the manager sends directly.
def globalFallbackOutbound : OutboundConfig :=
  if site.outbound.smarthost = [] then { OutboundSection.empty with strategy := ascii "direct", password := [] }
  else site.readSecrets site.globalSecret
    { site.outbound with strategy := override (ascii "smarthost") site.outbound.strategy }

def domainOutbound (domain : Bytes) : OutboundConfig :=
  match site.loadOutboundConfig domain with
  | none => site.globalFallbackOutbound
  | some sec =>
    if sec = .empty then site.globalFallbackOutbound
    else site.readSecrets (site.domainSecret domain) { sec with strategy := override (ascii "direct") sec.strategy }

end OutboundSite

abbrev OutboundCache (site : OutboundSite) := Memo fun domain => some (site.domainOutbound domain)

def resolveOutbound (site : OutboundSite) (cache : OutboundCache site) (bodyPath : Bytes) :
    OutboundConfig × OutboundCache site :=
  if site.domainConfigPath = [] then (site.globalFallbackOutbound, cache)
  else
    let domain := senderDomainFromBodyPath site.queueDir bodyPath
    if domain = [] then (site.globalFallbackOutbound, cache)
    else ((cache.get domain).1.getD site.globalFallbackOutbound, (cache.get domain).2)

def dispatch (site : OutboundSite) : OutboundCache site → List Invocation → List (Invocation × OutboundConfig)
  | _, [] => []
  | cache, inv :: rest =>
    let (cfg, cache) := resolveOutbound site cache (bodyPath site.queueDir inv.body)
    (inv, cfg) :: dispatch site cache rest

namespace OutboundSite

variable (site : OutboundSite)

def transport (domain : Bytes) (sec : OutboundSection) : OutboundConfig :=
  site.readSecrets (site.domainSecret domain) { sec with strategy := override (ascii "direct") sec.strategy }

def defaultFor (domain : Bytes) : OutboundConfig :=
  let system := site.systemOutbound.getD .empty
  if system = .empty then site.globalFallbackOutbound else site.transport domain system

-- What the files say for a domain, without the cache.
def configuredFor (domain : Bytes) : OutboundConfig :=
  let own := (site.ownOutbound domain).getD .empty
  if site.domainConfigPath = [] then site.globalFallbackOutbound
  else if own = .empty then site.defaultFor domain
  else site.transport domain (own.over (site.systemOutbound.getD .empty))

structure Readable : Prop where
  system : site.systemOutbound ≠ none
  own : ∀ domain, site.ownOutbound domain ≠ none

end OutboundSite

lemma OutboundSection.over_ne_empty {own : OutboundSection} (base : OutboundSection) (h : own ≠ .empty) :
    own.over base ≠ .empty := by
  obtain ⟨strategy, smarthost, user, userFile, passwordFile⟩ := own
  intro ho
  refine h ?_
  simp only [OutboundSection.over, OutboundSection.empty, OutboundSection.mk.injEq, override] at ho ⊢
  grind

variable {p : Invocation × OutboundConfig} {inv : Invocation} {e : Entry} {other : Bytes}

section Resolve

variable {site : OutboundSite}

lemma domainOutbound_eq (h : site.Readable) (hp : site.domainConfigPath ≠ []) (domain : Bytes) :
    site.domainOutbound domain = site.configuredFor domain := by
  obtain ⟨system, hs⟩ := Option.ne_none_iff_exists'.mp h.system
  obtain ⟨own, ho⟩ := Option.ne_none_iff_exists'.mp (h.own domain)
  have hl : site.loadOutboundConfig domain = some (own.over system) := by
    simp [OutboundSite.loadOutboundConfig, hs, ho]
  simp only [OutboundSite.domainOutbound, hl, OutboundSite.configuredFor, OutboundSite.defaultFor, hs, ho,
    Option.getD_some, if_neg hp]
  by_cases he : own = .empty
  · rw [if_pos he, he]
    rfl
  · rw [if_neg he, if_neg (OutboundSection.over_ne_empty system he)]
    rfl

lemma resolveOutbound_fst (cache : OutboundCache site) (path : Bytes) : (resolveOutbound site cache path).1 =
      if site.domainConfigPath = [] ∨ senderDomainFromBodyPath site.queueDir path = [] then site.globalFallbackOutbound
      else site.domainOutbound (senderDomainFromBodyPath site.queueDir path) := by
  unfold resolveOutbound
  split_ifs <;> simp_all [Memo.get_fst]

lemma mem_dispatch (cache : OutboundCache site) {invs : List Invocation} :
    p ∈ dispatch site cache invs ↔
      p.1 ∈ invs ∧ p.2 = (resolveOutbound site .empty (bodyPath site.queueDir p.1.body)).1 := by
  induction invs generalizing cache with
  | nil => simp [dispatch]
  | cons inv rest ih =>
    simp only [dispatch, mem_cons, ih, resolveOutbound_fst, Prod.ext_iff]
    grind

end Resolve

lemma senderDomain_bodyPath (queueDir : Bytes) {b : BodyFile} {tld sld : Bytes} (hd : b.dir = [tld, sld])
    (ht : PlainName tld) (hsld : PlainName sld) (hn : PlainName b.name) :
    senderDomainFromBodyPath queueDir (bodyPath queueDir b) = sld ++ ascii "." ++ tld := by
  have hmsg : ∀ n ∈ [ascii "msg"], PlainName n := by decide
  have hm : ∀ n ∈ [ascii "msg", tld], PlainName n := by
    simpa [ht] using hmsg
  have hms : ∀ n ∈ [ascii "msg", tld, sld], PlainName n := by
    simpa [ht, hsld] using hmsg
  have hp : bodyPath queueDir b =
      (joinPath [queueDir, ascii "msg"] ++ [slash]) ++ (tld ++ slash :: (sld ++ slash :: b.name)) := by
    calc bodyPath queueDir b
        = joinPath (queueDir :: ([ascii "msg", tld, sld] ++ [b.name])) := by rw [bodyPath, hd]; rfl
      _ = joinPath (queueDir :: ([ascii "msg", tld] ++ [sld])) ++ slash :: b.name :=
          joinPath_concat (by simp) hms hn
      _ = joinPath (queueDir :: ([ascii "msg"] ++ [tld])) ++ slash :: sld ++ slash :: b.name := by
          rw [joinPath_concat (by simp) hm hsld]; rfl
      _ = joinPath [queueDir, ascii "msg"] ++ slash :: tld ++ slash :: sld ++ slash :: b.name := by
          rw [joinPath_concat (by simp) hmsg ht]
      _ = _ := by simp
  have hpa : splitN slash 3 (tld ++ slash :: (sld ++ slash :: b.name)) = [tld, sld, b.name] := by
    rw [splitN_cons ht.noSlash, splitN_cons hsld.noSlash, splitN]
  have hr := trimPrefix_append (joinPath [queueDir, ascii "msg"] ++ [slash]) (tld ++ slash :: (sld ++ slash :: b.name))
  have hs : tld ++ slash :: (sld ++ slash :: b.name) ≠ bodyPath queueDir b := by
    intro heq
    have hl := congrArg List.length (heq.trans hp)
    simp only [length_append, length_cons, length_nil] at hl
    omega
  unfold senderDomainFromBodyPath
  rw [hp] at hs ⊢
  simp only [hr, if_neg hs, hpa]

lemma splitDomainLabels_cases (domain : Bytes) :
    (∃ front sld tld, split dot domain = front ++ [sld, tld] ∧ splitDomainLabels domain = (tld, sld)) ∨
      split dot domain = [domain] ∧ splitDomainLabels domain = (ascii "unknown", domain) := by
  unfold splitDomainLabels
  rcases hl : (split dot domain).reverse with _ | ⟨tld, _ | ⟨sld, front⟩⟩
  · exact absurd (reverse_eq_nil_iff.mp hl) (split_ne_nil dot domain)
  · have hs : split dot domain = [tld] := by simpa using congrArg List.reverse hl
    have hd := intercalate_split dot domain
    rw [hs] at hd
    exact .inr ⟨by simpa [List.intercalate, hs] using hd, rfl⟩
  · have hs : split dot domain = front.reverse ++ [sld, tld] := by simpa using congrArg List.reverse hl
    exact .inl ⟨front.reverse, sld, tld, hs, rfl⟩

lemma dot_notMem_labels (domain : Bytes) :
    dot ∉ (splitDomainLabels domain).1 ∧ dot ∉ (splitDomainLabels domain).2 := by
  obtain ⟨front, sld, tld, hs, hl⟩ | ⟨hs, hl⟩ := splitDomainLabels_cases domain
  · rw [hl]
    exact ⟨notMem_of_mem_split (by rw [hs]; simp), notMem_of_mem_split (by rw [hs]; simp)⟩
  · rw [hl]
    exact ⟨show dot ∉ ascii "unknown" by decide, notMem_of_mem_split (by rw [hs]; simp)⟩

variable {domain : Bytes} {cfg : Queue.Config} {req : Request} {out : Written} {o : Outside}

lemma slash_notMem_labels (h : slash ∉ domain) :
    slash ∉ (splitDomainLabels domain).1 ∧ slash ∉ (splitDomainLabels domain).2 := by
  have hp : ∀ part ∈ split dot domain, slash ∉ part := fun part hp hm => h ((infix_of_mem_split hp).subset hm)
  obtain ⟨front, sld, tld, hs, hl⟩ | ⟨hs, hl⟩ := splitDomainLabels_cases domain
  · rw [hl]
    exact ⟨hp tld (by rw [hs]; simp), hp sld (by rw [hs]; simp)⟩
  · rw [hl]
    exact ⟨show slash ∉ ascii "unknown" by decide, h⟩

lemma plainName_of_label {label : Bytes} (hne : label ≠ []) (hs : slash ∉ label) (hd : dot ∉ label) :
    PlainName label := by
  refine ⟨hne, hs, ?_, ?_⟩
  · rintro rfl
    exact hd (by decide)
  · rintro rfl
    exact hd (by decide)

lemma domainFromPath_labels :
    domainFromPath (splitDomainLabels domain) = domain ↔ (split dot domain).length = 2 := by
  constructor
  · intro hs
    obtain ⟨ht, hsld⟩ := dot_notMem_labels domain
    have hsp := split_append dot (splitDomainLabels domain).2 (splitDomainLabels domain).1
    rw [split_of_notMem ht, split_of_notMem hsld] at hsp
    rw [← hs, domainFromPath, append_assoc]
    exact congrArg List.length hsp
  · intro htwo
    obtain ⟨front, sld, tld, hsp, hl⟩ | ⟨hsp, -⟩ := splitDomainLabels_cases domain
    · have hf : front = [] := by
        rw [hsp, length_append, length_cons, length_singleton] at htwo
        exact length_eq_zero_iff.mp (by omega)
      have hd := intercalate_split dot domain
      rw [hsp, hf] at hd
      rw [hl, ← hd]
      simp [domainFromPath, List.intercalate, show ascii "." = [dot] from rfl]
    · rw [hsp] at htwo
      exact absurd htwo (by simp)

lemma plainName_hex {name : Bytes} (h : validMsgIdHex name = true) : PlainName name := by
  refine plainName_of_label ?_ (not_mem_hex h (by decide)) (not_mem_hex h (by decide))
  rintro rfl
  exact absurd h (by decide)

lemma write_sender {c : CaseMap}
    (h : write c cfg req = .ok out) : validAddressComponent (extractDomain c req.origin) = true := by
  unfold write at h
  dsimp only at h
  split_ifs at h with hs
  · simpa using hs

lemma slash_notMem_sender {c : CaseMap}
    (h : write c cfg req = .ok out) : slash ∉ extractDomain c req.origin := by
  have hv := write_sender h
  simp only [validAddressComponent, Bool.and_eq_true, Bool.not_eq_true', any_eq_false] at hv
  intro hm
  exact hv.1.2 slash hm (by decide)

-- The spool holds what the Writes put there, claimed or not.
structure Filed (c : CaseMap) (cfg : Queue.Config) (reqs : List Request) (s : Spool) : Prop where
  envs : ∀ f ∈ s.envs, ∃ req ∈ reqs, f.unclaim ∈ envFiles c cfg req
  bodies : ∀ b ∈ s.bodies, ∃ req ∈ reqs, ∃ out, write c cfg req = .ok out ∧ b = out.body

-- A message has one sender: calls with the same id agree on the domain.
def OneSender (c : CaseMap) (reqs : List Request) : Prop :=
  ∀ req ∈ reqs, ∀ other ∈ reqs, req.msgIdHex = other.msgIdHex →
    extractDomain c req.origin = extractDomain c other.origin

lemma mem_runOnce {cfg : Config} {s : Spool} :
    inv ∈ (runOnce cfg o s).invocations ↔ ∃ d ∈ s.dirs, inv ∈ dirInvocations o s.recoverStaleDeliveries d := by
  rw [(runOnce_progress cfg o s).invocations, mem_flatMap]

namespace Filed

variable {c : CaseMap} {qcfg : Queue.Config} {reqs : List Request} {s : Spool}

lemma recover (h : Filed c qcfg reqs s) : Filed c qcfg reqs s.recoverStaleDeliveries where
  envs := by
    intro f hf
    obtain ⟨g, hg, rfl⟩ := mem_map.mp hf
    exact h.envs g hg
  bodies := h.bodies

lemma mono (h : Filed c qcfg reqs s) {more : List Request} (hs : reqs ⊆ more) : Filed c qcfg more s where
  envs := by
    intro f hf
    obtain ⟨req, hr, hfi⟩ := h.envs f hf
    exact ⟨req, hs hr, hfi⟩
  bodies := by
    intro b hb
    obtain ⟨req, hr, ho⟩ := h.bodies b hb
    exact ⟨req, hs hr, ho⟩

lemma origin (h : Filed c qcfg reqs s) (ha : ∀ req ∈ reqs, ∃ out, write c qcfg req = .ok out)
    {d : Bytes × Bytes} {g : Group} (hg : g ∈ groups o s d) (he : e ∈ g.entries) :
    ∃ req ∈ reqs, req.msgIdHex = g.msgid ∧ e.env.origin = req.origin ∧
      ∃ f ∈ envFiles c qcfg req, f.dir.length = 2 := by
  obtain ⟨f, hf, hd, hp⟩ := mem_entries hg he
  obtain ⟨req, hr, hfi⟩ := h.envs f hf
  obtain ⟨out, hw⟩ := ha req hr
  have hid := write_msgId hw ((write_envs hw).symm ▸ hfi)
  obtain ⟨r, n, -, henv⟩ := mem_envFiles hfi
  have hc : some e.env = some (envelope c qcfg req r) :=
    hp.content.symm.trans (congrArg EnvFile.content henv)
  refine ⟨req, hr, Option.some.inj (hid.symm.trans hp.msgId), ?_, f.unclaim, hfi, ?_⟩
  · rw [Option.some.inj hc]
    rfl
  · exact congrArg List.length hd

lemma senderDomain (h : Filed c qcfg reqs s) (ha : ∀ req ∈ reqs, ∃ out, write c qcfg req = .ok out)
    (hone : OneSender c reqs) {cfg : Config}
    (hi : inv ∈ (runOnce cfg o s).invocations) (he : e ∈ inv.batch) (queueDir : Bytes) :
    ∃ req ∈ reqs, e.env.origin = req.origin ∧ TwoLevels (extractDomain c req.origin) ∧
      (∃ f ∈ envFiles c qcfg req, f.dir.length = 2) ∧
      senderDomainFromBodyPath queueDir (bodyPath queueDir inv.body) =
        domainFromPath (splitDomainLabels (extractDomain c req.origin)) := by
  obtain ⟨d, -, hi⟩ := mem_runOnce.mp hi
  obtain ⟨g, hg, hb, hba⟩ := mem_dirInvocations hi
  obtain ⟨req, hreq, hid, ho, hr⟩ := h.recover.origin ha hg (hba e he)
  obtain ⟨other, hot, out, hw, hout⟩ := h.bodies inv.body (mem_of_find?_eq_some hb)
  obtain ⟨hn, hdir⟩ := write_body hw
  have hf := List.find?_some hb
  simp only [Bool.and_eq_true, decide_eq_true_eq] at hf
  have hs : extractDomain c req.origin = extractDomain c other.origin := by
    refine hone req hreq other hot ?_
    rw [hid, ← hf.2, hout, hn]
  rw [← hout, ← hs] at hdir
  have hl := labelDir_length.mp (hdir ▸ hf.1)
  obtain ⟨hsl, hsa⟩ := slash_notMem_labels (hs ▸ slash_notMem_sender hw)
  obtain ⟨hd, hdo⟩ := dot_notMem_labels _
  have hla : inv.body.dir = [(splitDomainLabels (extractDomain c req.origin)).1,
      (splitDomainLabels (extractDomain c req.origin)).2] := by
    rw [hdir, labelDir]
    simp [hl.1, hl.2]
  refine ⟨req, hreq, ho, hl, hr, ?_⟩
  refine senderDomain_bodyPath queueDir hla (plainName_of_label hl.1 hsl hd)
    (plainName_of_label hl.2 hsa hdo) ?_
  rw [hout, hn]
  exact plainName_hex (write_msgIdHex hw)

end Filed

-- Every run of mail-remote gets the transport configured for the sender of each of its envelopes.
def RightTransport (c : CaseMap) (site : OutboundSite) (run : Run) : Prop :=
  ∀ p ∈ dispatch site .empty run.invocations, ∀ e ∈ p.1.batch, p.2 = site.configuredFor (extractDomain c e.env.origin)

-- The file of a domain is never read for the sender of another.
def FilesApart (c : CaseMap) (site : OutboundSite) (run : Run) : Prop :=
  ∀ inv ∈ run.invocations, ∀ other ∈ run.invocations, ∀ e ∈ inv.batch, ∀ e' ∈ other.batch,
    extractDomain c e.env.origin ≠ extractDomain c e'.env.origin →
      site.domainConfigFile (senderDomainFromBodyPath site.queueDir (bodyPath site.queueDir inv.body)) ≠
        site.domainConfigFile (senderDomainFromBodyPath site.queueDir (bodyPath site.queueDir other.body))

lemma plainName_sender {c : CaseMap}
    (h : write c cfg req = .ok out) (hl : TwoLevels (extractDomain c req.origin)) :
    PlainName (extractDomain c req.origin) := by
  refine ⟨fun hn => ?_, slash_notMem_sender h, fun hdot => ?_, fun hd => ?_⟩
  · have hv := write_sender h
    rw [hn] at hv
    exact absurd hv (by decide)
  · rw [hdot] at hl
    exact hl.1 rfl
  · rw [hd] at hl
    exact hl.1 rfl

lemma plainName_domainFromPath (hs : slash ∉ domain) (hl : TwoLevels domain) :
    PlainName (domainFromPath (splitDomainLabels domain)) := by
  obtain ⟨hsl, hsa⟩ := slash_notMem_labels hs
  have hsld := plainName_of_label hl.2 hsa (dot_notMem_labels domain).2
  rw [domainFromPath, append_assoc]
  refine hsld.append ?_ ?_
  · rw [mem_append, not_or]
    exact ⟨by decide, hsl⟩
  · have ht := length_pos_iff.mpr hl.1
    rw [length_append]
    exact Nat.add_le_add (show 1 ≤ (ascii ".").length by decide) ht

lemma domainConfigFile_inj {site : OutboundSite} (h : PlainName domain) (h' : PlainName other)
    (hs : site.domainConfigFile domain = site.domainConfigFile other) : domain = other := by
  have hc : PlainName (ascii "config.toml") := by decide
  have hn := joinPath_names_inj (by simp) (by simp) (by simp [h, hc]) (by simp [h', hc]) hs
  exact (List.cons.inj hn).1

def relaySite (domain : Bytes) : OutboundSite where
  queueDir := ascii "/var/spool/queue"
  domainConfigPath := ascii "/etc/domains"
  outbound := .empty
  config path :=
    if path = joinPath [ascii "/etc/domains", domain, ascii "config.toml"] then
      .table [(ascii "outbound", .table [(ascii "strategy", .text (ascii "smarthost")),
        (ascii "smarthost", .text (ascii "relay:587"))])]
    else .missing
  readFile := fun _ => none

def relaySection : OutboundSection := ⟨ascii "smarthost", ascii "relay:587", [], [], []⟩

lemma readOutbound_relay (domain path : Bytes) : readOutboundFromFile ((relaySite domain).config path) =
      some (if path = joinPath [ascii "/etc/domains", domain, ascii "config.toml"] then relaySection else .empty) := by
  unfold relaySite
  dsimp only
  split_ifs <;> rfl

lemma relaySite_readable (domain : Bytes) : (relaySite domain).Readable where
  system := by simp [OutboundSite.systemOutbound, readOutbound_relay]
  own := by simp [OutboundSite.ownOutbound, readOutbound_relay]

lemma relaySite_smarthost (h : PlainName domain) (h' : PlainName other) :
    ((relaySite domain).configuredFor other).smarthost = if other = domain then ascii "relay:587" else [] := by
  have hc : PlainName (ascii "config.toml") := by decide
  have hs : (relaySite domain).systemOutbound = some .empty := by
    rw [OutboundSite.systemOutbound, readOutbound_relay, if_neg]
    intro hsa
    have hn := joinPath_names_inj (by simp) (by simp) (by simp [hc]) (by simp [h, hc]) hsa
    exact absurd (congrArg List.length hn) (by simp)
  have ho : (relaySite domain).ownOutbound other = some (if other = domain then relaySection else .empty) := by
    rw [OutboundSite.ownOutbound, readOutbound_relay]
    by_cases hsa : other = domain
    · rw [if_pos hsa, hsa]
      exact congrArg some (if_pos rfl)
    have hf : (relaySite domain).domainConfigFile other ≠ (relaySite domain).domainConfigFile domain :=
      fun hf => hsa (domainConfigFile_inj h' h hf)
    rw [if_neg hsa]
    exact congrArg some (if_neg hf)
  simp only [OutboundSite.configuredFor, OutboundSite.defaultFor, hs, ho, Option.getD_some]
  by_cases hsa : other = domain
  · have hset : relaySection ≠ .empty := by decide
    simp only [if_pos hsa, if_neg hset]
    rfl
  · simp only [if_neg hsa, if_true]
    rfl

section Main

variable {c : CaseMap} {qcfg : Queue.Config} {reqs : List Request}

lemma Filed.sent {site : OutboundSite} {s : Spool} (h : Filed c qcfg reqs s)
    (ha : ∀ req ∈ reqs, ∃ out, write c qcfg req = .ok out) (hone : OneSender c reqs) (hr : site.Readable)
    {cfg : Config} (hp : p ∈ dispatch site .empty (runOnce cfg o s).invocations) (he : e ∈ p.1.batch) :
    p.2 = site.configuredFor (domainFromPath (splitDomainLabels (extractDomain c e.env.origin))) := by
  obtain ⟨hi, hc⟩ := (mem_dispatch _).mp hp
  obtain ⟨req, hreq, ho, hl, -, hs⟩ := h.senderDomain ha hone hi he site.queueDir
  obtain ⟨out, hw⟩ := ha req hreq
  have hpl := plainName_domainFromPath (slash_notMem_sender hw) hl
  rw [hc, resolveOutbound_fst, hs, ho]
  by_cases hpa : site.domainConfigPath = []
  · rw [if_pos (.inl hpa), OutboundSite.configuredFor, if_pos hpa]
  · rw [if_neg (not_or.mpr ⟨hpa, hpl.ne_nil⟩), domainOutbound_eq hr hpa]

lemma exists_sent (site : OutboundSite) (hw : write c qcfg req = .ok out)
    (hl : TwoLevels (extractDomain c req.origin)) {f : EnvFile} (hf : f ∈ envFiles c qcfg req)
    (hle : f.dir.length = 2) (cfg : Config) :
    ∃ o s, Filed c qcfg [req] s ∧ ∃ p ∈ dispatch site .empty (runOnce cfg o s).invocations,
      ∃ e ∈ p.1.batch, e.env.origin = req.origin := by
  obtain ⟨tld, sld, hla⟩ := length_eq_two.mp hle
  obtain ⟨r, n, -, hfi⟩ := mem_envFiles hf
  obtain ⟨hn, hd⟩ := write_body hw
  have hid := write_msgId hw ((write_envs hw).symm ▸ hf)
  have hfl : f.delivering = false := by rw [hfi]; rfl
  have hc : f.content = some (envelope c qcfg req r) := by rw [hfi]; rfl
  let s := Spool.inDir (tld, sld) [out.body] [f] (nodup_singleton _)
  have hr : s.recoverStaleDeliveries.envs = [f] := by
    have hs : { f with delivering := f.delivering && f.dir.length ≠ 2 } = f := EnvFile.ext rfl rfl (by simp [hfl]) rfl
    exact congrArg (fun g => [g]) hs
  have hbo : resolveBody s.recoverStaleDeliveries.bodies req.msgIdHex = some out.body := by
    have hlen : out.body.dir.length = 2 := by rw [hd]; exact labelDir_length.mpr hl
    have hfo : resolveBody [out.body] req.msgIdHex = some out.body := by simp [resolveBody, hn, hlen]
    exact hfo
  have hm : f ∈ s.recoverStaleDeliveries.envs := by
    rw [hr]
    exact mem_singleton_self f
  obtain ⟨inv, hi, -, he⟩ := exists_invocation_dueOnly [f.path] (d := (tld, sld)) ⟨hm, hfl, hc, hid⟩ hla
    (mem_singleton_self _) hbo
  refine ⟨Outside.dueOnly [f.path], s, ⟨?_, ?_⟩,
    (inv, (resolveOutbound site .empty (bodyPath site.queueDir inv.body)).1),
    (mem_dispatch _).mpr ⟨?_, rfl⟩, _, he, rfl⟩
  · intro g hg
    obtain rfl := mem_singleton.mp hg
    have hs : g.unclaim = g := EnvFile.ext rfl rfl hfl.symm rfl
    exact ⟨req, mem_singleton_self _, hs ▸ hf⟩
  · intro b hb
    obtain rfl := mem_singleton.mp hb
    exact ⟨req, mem_singleton_self _, out, hw, rfl⟩
  · exact mem_runOnce.mpr ⟨(tld, sld), mem_singleton_self _, hi⟩

theorem right_transport_iff (haccepted : ∀ req ∈ reqs, ∃ out, write c qcfg req = .ok out) (hone : OneSender c reqs) :
    (∀ site : OutboundSite, site.Readable → ∀ (cfg : Config) (o : Outside) (s : Spool), Filed c qcfg reqs s →
        RightTransport c site (runOnce cfg o s) ∧ FilesApart c site (runOnce cfg o s)) ↔
      ∀ req ∈ reqs, TwoLevels (extractDomain c req.origin) → (∃ f ∈ envFiles c qcfg req, f.dir.length = 2) →
        (split dot (extractDomain c req.origin)).length = 2 := by
  constructor
  · intro hr req hre hl hra
    obtain ⟨f, hf, hle⟩ := hra
    obtain ⟨out, hw⟩ := haccepted req hre
    have hpl := plainName_domainFromPath (slash_notMem_sender hw) hl
    let site := relaySite (domainFromPath (splitDomainLabels (extractDomain c req.origin)))
    obtain ⟨o, s, hfi, p, hp, e, he, ho⟩ := exists_sent site hw hl hf hle ⟨true, []⟩
    have hfi := hfi.mono (by simpa using hre)
    have hs := hfi.sent haccepted hone (relaySite_readable _) hp he
    have hwa := (hr site (relaySite_readable _) ⟨true, []⟩ o s hfi).1 p hp e he
    have hrl := congrArg OutboundConfig.toOutboundSection (hwa.symm.trans hs)
    have hrl := congrArg OutboundSection.smarthost hrl
    rw [ho, relaySite_smarthost hpl hpl, relaySite_smarthost hpl (plainName_sender hw hl),
      if_pos rfl] at hrl
    refine domainFromPath_labels.mp (Eq.symm ?_)
    by_contra hot
    rw [if_neg hot] at hrl
    exact absurd hrl (by decide)
  · intro hla site hrd cfg o s hfi
    have hfu : ∀ inv ∈ (runOnce cfg o s).invocations, ∀ e ∈ inv.batch,
        domainFromPath (splitDomainLabels (extractDomain c e.env.origin)) = extractDomain c e.env.origin := by
      intro inv hi e he
      obtain ⟨req, hre, ho, hl, hra, -⟩ := hfi.senderDomain haccepted hone hi he site.queueDir
      rw [ho]
      exact domainFromPath_labels.mpr (hla req hre hl hra)
    constructor
    · intro p hp e he
      have hi := ((mem_dispatch _).mp hp).1
      rw [hfi.sent haccepted hone hrd hp he, hfu p.1 hi e he]
    intro inv hi other hot e he e' he' hd hfl
    obtain ⟨req, hre, ho, hl, -, hse⟩ := hfi.senderDomain haccepted hone hi he site.queueDir
    obtain ⟨req', hrq, hor, hlv, -, hsn⟩ := hfi.senderDomain haccepted hone hot he' site.queueDir
    obtain ⟨out, hw⟩ := haccepted req hre
    obtain ⟨out', hwr⟩ := haccepted req' hrq
    rw [hse, hsn] at hfl
    have hsa := domainConfigFile_inj (plainName_domainFromPath (slash_notMem_sender hw) hl)
      (plainName_domainFromPath (slash_notMem_sender hwr) hlv) hfl
    rw [← ho, ← hor, hfu inv hi e he, hfu other hot e' he'] at hsa
    exact hd hsa

end Main

def subdomainRequest : Request := { sampleRequest with
  origin := ascii "alice@mail.example.com"
  recipients := [ascii "bob@example.net"] }

def subdomainFile : EnvFile := envFile CaseMap.asciiOnly sampleConfig subdomainRequest (ascii "bob@example.net") 0

def subdomainBody : BodyFile where
  dir := [ascii "com", ascii "example"]
  name := subdomainRequest.msgIdHex
  data := messageIdHeader (subdomainRequest.msgId CaseMap.asciiOnly) ++ subdomainRequest.body

def subdomainSpool : Spool :=
  .inDir (ascii "net", ascii "example") [subdomainBody] [subdomainFile] (List.nodup_singleton _)

lemma write_subdomain :
    write CaseMap.asciiOnly sampleConfig subdomainRequest = .ok ⟨subdomainBody, [subdomainFile], none⟩ := rfl

theorem subdomain_uses_parent_relay :
    write CaseMap.asciiOnly sampleConfig subdomainRequest = .ok ⟨subdomainBody, [subdomainFile], none⟩ ∧
      extractDomain CaseMap.asciiOnly subdomainRequest.origin = ascii "mail.example.com" ∧
      ((relaySite (ascii "example.com")).configuredFor (ascii "mail.example.com")).smarthost = [] ∧
      ∃ p ∈ dispatch (relaySite (ascii "example.com")) .empty
          (runOnce ⟨true, []⟩ (Outside.dueOnly [subdomainFile.path]) subdomainSpool).invocations,
        p.1.batch.map (fun e => e.env.origin) = [subdomainRequest.origin] ∧
          p.2 = ⟨relaySection, []⟩ :=
  ⟨write_subdomain, rfl, by decide +kernel, by decide +kernel⟩

theorem right_transport_iff_subdomain :
    (∀ req ∈ [subdomainRequest], ∃ out, write CaseMap.asciiOnly sampleConfig req = .ok out) ∧
      ((∀ site : OutboundSite, site.Readable → ∀ (cfg : Config) (o : Outside) (s : Spool),
          Filed CaseMap.asciiOnly sampleConfig [subdomainRequest] s →
            RightTransport CaseMap.asciiOnly site (runOnce cfg o s) ∧
              FilesApart CaseMap.asciiOnly site (runOnce cfg o s)) ↔
        ∀ req ∈ [subdomainRequest], TwoLevels (extractDomain CaseMap.asciiOnly req.origin) →
          (∃ f ∈ envFiles CaseMap.asciiOnly sampleConfig req, f.dir.length = 2) →
            (split dot (extractDomain CaseMap.asciiOnly req.origin)).length = 2) := by
  have ha : ∀ req ∈ [subdomainRequest], ∃ out, write CaseMap.asciiOnly sampleConfig req = .ok out := by
    intro req hr
    obtain rfl := mem_singleton.mp hr
    exact ⟨_, write_subdomain⟩
  refine ⟨ha, right_transport_iff ha ?_⟩
  intro req hr other ho _
  obtain rfl := mem_singleton.mp hr
  obtain rfl := mem_singleton.mp ho
  rfl

end Maildancer.Scheduler

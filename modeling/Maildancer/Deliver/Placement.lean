import Maildancer.Deliver.Spawn
import Maildancer.Maildir.MailboxPath

namespace Maildancer.Deliver

open Text Queue Domains Admin Msgstore Maildir

-- A copy in the INBOX. An extension may lead to a folder that is called INBOX.
def ToInbox (req : DeliverRequest) (copy : Copy) : Prop :=
  equalFold copy.folder (ascii "INBOX") = true ∧
    equalFold (parseRecipient req.recipient).extension (ascii "INBOX") = false

-- The directory that the login session of a user opens. mail-session is given no options.
def loginDirectory (site : Site) (type name user : Bytes) : Option Bytes :=
  (openStore type (site.loginRoot name) []).bind fun store => mailboxPath store (user ++ atSign :: name)

def DeliveredWhereRead (site : Site) (access : Access) (f : Folding) (order : MapOrder) (name : Bytes) : Prop :=
  ∀ dom, site.domain access f.toCaseMap order name = some dom →
    ∀ user, MailboxUser user → ∀ d, d.folding = f → Spawned site access order name d →
      ∀ attempt req msg copy dir, (parseRecipient req.recipient).address = user ++ atSign :: name →
        copy ∈ (deliver d attempt req msg).1 → ToInbox req copy → mailboxPath dom.store copy.mailbox = some dir →
        loginDirectory site dom.store.type name user = some dir

-- The layers that the delivering process can read come to a configuration whose store can be opened.
structure Serves (site : Site) (access : Access) (name : Bytes) (cfg : DomainConfig) : Prop where
  present : (site.files.seenBy access).tree.absent (site.domainPath name) = false
  merged : ∃ own, (site.provider access).ownTable (site.files.seenBy access).tree (site.configPath name) = some own ∧
    mergeConfigLayers ((site.provider access).lowerLayers name ++ own.toList) = some cfg
  type : cfg.msgStore.type = ascii "maildir"
  rooted : cfg.msgStore.basePath ≠ []

-- Two settings of base_path, each taken from its own data directory, lead to one place.
def SamePlace (dir path other setting : Bytes) : Prop :=
  if isAbs path then
    if isAbs setting then cleanPath path = cleanPath setting else cleanPath path = joinPath [other, setting]
  else if isAbs setting then joinPath [dir, path] = cleanPath setting
  else joinPath [dir, path] = joinPath [other, setting]

instance (dir path other setting : Bytes) : Decidable (SamePlace dir path other setting) :=
  inferInstanceAs (Decidable (if isAbs path then if isAbs setting then _ else _ else if isAbs setting then _ else _))

section

variable {site : Site} {access : Access} {f : Folding} {order : MapOrder} {name user dir : Bytes} {cfg : DomainConfig}

lemma samePlace_iff {dir path other setting : Bytes} (hp : path ≠ []) (hs : setting ≠ []) :
    SamePlace dir path other setting ↔
      cleanPath (resolvePath dir path) = cleanPath (resolvePath other setting) := by
  have hcl : ∀ base elem : Bytes, elem ≠ [] → cleanPath (joinPath [base, elem]) = joinPath [base, elem] :=
    fun base elem he => cleanPath_joinPath _ (joinPath_ne_nil (by simp) he)
  unfold SamePlace resolvePath
  by_cases ha : isAbs path = true
  · by_cases hb : isAbs setting = true
    · simp [ha, hb]
    · simp [ha, hb, hs, hcl]
  · by_cases hb : isAbs setting = true
    · simp [ha, hb, hp, hcl]
    · simp [ha, hb, hp, hs, hcl]

lemma Serves.basePath (h : Serves site access name cfg) : cfg.msgStore.basePath = site.foundBasePath access name := by
  obtain ⟨own, ho, hc⟩ := h.merged
  rw [(site.provider access).mergeConfigLayers_basePath hc, Site.foundBasePath, FilesystemDomainProvider.ownConfig, ho]
  rfl

lemma Serves.store_type (h : Serves site access name cfg) (root : Bytes) :
    (cfg.msgStore.store root).type = ascii "maildir" := h.type

lemma domain_eq (c : CaseMap) (hn : validDomainName name = true) : site.domain access c order name =
      if (site.files.seenBy access).tree.absent (site.domainPath name) then none
      else (site.provider access).loadDomain c order (site.files.seenBy access).tree name (site.domainPath name)
        (site.configPath name) := by
  rw [Site.domain, FilesystemDomainProvider.getDomain, lower_domainName c hn]
  rfl

lemma serves_of_domain {c : CaseMap} {dom : Domains.Domain} (hn : validDomainName name = true)
    (h : site.domain access c order name = some dom) :
    ∃ cfg, Serves site access name cfg ∧ dom.store = cfg.msgStore.store (site.deliveryRoot access name) := by
  rw [domain_eq c hn] at h
  by_cases ha : (site.files.seenBy access).tree.absent (site.domainPath name) = true
  · rw [if_pos ha] at h
    cases h
  rw [if_neg ha] at h
  simp only [FilesystemDomainProvider.loadDomain, Option.bind_eq_bind, Option.bind_eq_some_iff] at h
  obtain ⟨own, ho, cfg, hc, store, hs, h⟩ := h
  cases h
  obtain ⟨ht, hr, rfl⟩ := openStore_eq_some.mp hs
  have hse : Serves site access name cfg :=
    ⟨by simpa using ha, ⟨own, ho, hc⟩, ht, fun he => hr (resolvePath_eq_nil.mpr he)⟩
  exact ⟨cfg, hse, by rw [hse.basePath]; rfl⟩

lemma domain_of_serves (c : CaseMap) (order : MapOrder) (hn : validDomainName name = true)
    (h : Serves site access name cfg) : ∃ dom, site.domain access c order name = some dom ∧
      dom.store = cfg.msgStore.store (site.deliveryRoot access name) := by
  obtain ⟨own, ho, hc⟩ := h.merged
  have hs : openStore cfg.msgStore.type (resolvePath (site.foundDir access name) cfg.msgStore.basePath)
      cfg.msgStore.options = some (cfg.msgStore.store (site.deliveryRoot access name)) :=
    openStore_eq_some.mpr ⟨h.type, fun he => h.rooted (resolvePath_eq_nil.mp he), by rw [h.basePath]; rfl⟩
  rw [domain_eq c hn, if_neg (by simp [h.present])]
  exact FilesystemDomainProvider.exists_loadDomain ho hc hs

lemma loginDirectory_eq (hn : validDomainName name = true) (hu : MailboxUser user) :
    loginDirectory site (ascii "maildir") name user =
      if components (site.loginRoot name) = [] then none else some (joinPath [site.loginRoot name, user]) := by
  have ho : openStore (ascii "maildir") (site.loginRoot name) [] =
      some ⟨ascii "maildir", site.loginRoot name, [], []⟩ := by
    rw [openStore, if_neg (not_or.mpr ⟨not_not.mpr rfl, site.loginRoot_ne_nil name⟩)]
    rfl
  rw [loginDirectory, ho, Option.bind_some]
  exact mailboxPath_usual ⟨rfl, .inl rfl⟩ hu.plainName (atSign_notMem_domainName hn)

lemma inbox_delivered {dom : Domains.Domain} (hn : validDomainName name = true)
    (hd : site.domain access f.toCaseMap order name = some dom) (hu : MailboxUser user)
    (h : DeliveredWhereRead site access f order name)
    (hp : mailboxPath dom.store (user ++ atSign :: name) = some dir) :
    loginDirectory site dom.store.type name user = some dir := by
  let d := plainDeliverer site access order f name (fun _ => .notExist) fun _ _ => none
  let req : DeliverRequest := ⟨user ++ atSign :: name, false⟩
  have hat := atSign_notMem_domainName hn
  have hpa := parseRecipient_mailboxUser hu hat
  have hs : maybeEncrypt d req [] = some [] := if_neg (site.loginRoot_ne_nil name)
  have hc := deliver_unscripted d false hu (validAddressComponent_domainName hn) hat rfl
    (congrArg (Option.map ofLoaded) hd) rfl hs
  refine h dom hd user hu d rfl (plainDeliverer_spawned _ _ _ _ _ _ _) (fun _ => .done) req []
    ⟨user ++ atSign :: name, ascii "INBOX", [], []⟩ dir ?_ ?_ ⟨rfl, ?_⟩ hp
  · rw [hpa]
  · rw [hc]
    exact List.mem_singleton_self _
  · rw [hpa]
    rfl

lemma mailboxUser_samples : MailboxUser (ascii "a") ∧ MailboxUser (ascii "b") :=
  ⟨⟨by decide, by decide, by decide⟩, by decide, by decide, by decide⟩

lemma joinPath_of_read (hn : validDomainName name = true) (hu : MailboxUser user)
    (h : loginDirectory site (ascii "maildir") name user = some dir) : dir = joinPath [site.loginRoot name, user] := by
  rw [loginDirectory_eq hn hu] at h
  split_ifs at h
  exact (Option.some.inj h).symm

-- With a directory below the user's own only one user's path could be the one that is read.
lemma subdir_eq_nil {st : StoreConfig} {root login : Bytes} (hl : UsualLayout st)
    (h : ∀ user, MailboxUser user → joinPath (root :: belowBase st user) = joinPath [login, user]) :
    st.maildirSubdir = [] := by
  by_contra hs
  have hlast : ∀ user, MailboxUser user → st.maildirSubdir = user := by
    intro user hu
    have hc := congrArg components (h user hu)
    have hne : belowBase st user ≠ [] := List.cons_ne_nil _ _
    rw [components_joinPath hne (hl.plain hu.plainName),
      components_joinPath (List.cons_ne_nil _ _) (by simpa using hu.plainName), belowBase, if_neg hs] at hc
    have hla := congrArg List.getLast? hc
    simpa using hla
  obtain ⟨ha, hb⟩ := mailboxUser_samples
  exact absurd ((hlast _ ha).symm.trans (hlast _ hb)) (by decide)

end

-- The settings of the two sides go together: no template, nothing below the user's own directory, and one
-- place; or the store takes no mailbox, which is so where the root is / or the working directory.
structure Agreeing (site : Site) (access : Access) (name : Bytes) (cfg : DomainConfig) : Prop where
  layout : UsualLayout (cfg.msgStore.store (site.deliveryRoot access name))
  place : components (site.deliveryRoot access name) = [] ∨
    (cfg.msgStore.store (site.deliveryRoot access name)).maildirSubdir = [] ∧
      SamePlace (site.foundDir access name) (site.foundBasePath access name) (site.dataDir name) (site.ownBasePath name)

section Sample

def sampleDirectories (site : Site) (access : Access) : Option Bytes × Option Bytes :=
  ((site.domain access CaseMap.asciiOnly .same (ascii "a.org")).bind fun dom =>
      mailboxPath dom.store (ascii "alice" ++ atSign :: ascii "a.org"),
    loginDirectory site (ascii "maildir") (ascii "a.org") (ascii "alice"))

lemma not_deliveredWhereRead {site : Site} {access : Access} {delivered : Bytes} {login : Option Bytes}
    (h : sampleDirectories site access = (some delivered, login)) (hne : login ≠ some delivered) :
    ¬DeliveredWhereRead site access .asciiOnly .same (ascii "a.org") := by
  intro ha
  have hn : validDomainName (ascii "a.org") = true := by decide +kernel
  have hu : MailboxUser (ascii "alice") := ⟨by decide, by decide, by decide⟩
  rw [sampleDirectories, Prod.mk.injEq] at h
  obtain ⟨dom, hd, hp⟩ := Option.bind_eq_some_iff.mp h.1
  have hl := inbox_delivered hn hd hu ha hp
  obtain ⟨cfg, hs, hst⟩ := serves_of_domain hn hd
  rw [hst, hs.store_type] at hl
  exact hne (h.2.symm.trans hl)

end Sample

end Maildancer.Deliver

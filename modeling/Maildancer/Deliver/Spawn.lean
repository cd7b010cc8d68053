import Maildancer.Admin
import Maildancer.Credentials
import Maildancer.Deliver.Copies
import Maildancer.Domains.BasePath

namespace Maildancer.Deliver

open Text Queue Domains Admin

-- The configuration tree: what its top files hold, where they can be loaded, and the files of the domains.
structure ConfigTree where
  system : Option DomainConfig
  overrides : Bytes → Option DomainConfig
  postmaster : Option (Bytes → Option Bytes)
  tree : Tree

structure Access where
  system : Bool
  overrides : Bool
  postmaster : Bool
  stats : Bytes → Bool
  reads : Bytes → Bool

def Access.full : Access := ⟨true, true, true, fun _ => true, fun _ => true⟩

def Access.hidden : Access := ⟨false, false, false, fun _ => false, fun _ => false⟩

-- A path that may not be looked at does not count as absent.
def Tree.seenBy (tree : Tree) (access : Access) : Tree where
  absent path := access.stats path && tree.absent path
  config path :=
    if !access.stats path then .missing
    else if access.reads path then tree.config path
    else match tree.config path with
      | .missing => .missing
      | _ => .unusable
  readFile path := if access.stats path && access.reads path then tree.readFile path else .failed

def ConfigTree.seenBy (files : ConfigTree) (access : Access) : ConfigTree where
  system := if access.system then files.system else none
  overrides name := if access.overrides then files.overrides name else none
  postmaster := if access.postmaster then files.postmaster else none
  tree := Tree.seenBy files.tree access

-- The settings of the session-manager, which it hands on, and the defaults of the provider.
structure Site where
  domainsPath : Bytes
  domainsDataPath : Bytes
  defaults : DomainConfig
  files : ConfigTree

def newDefaults : DomainConfig := { DomainConfig.empty with
  auth := ⟨ascii "passwd", ascii "passwd", ascii "keys"⟩
  msgStore := ⟨ascii "maildir", ascii "users", []⟩ }

namespace Site

variable (site : Site) (access : Access) (c : CaseMap) (order : MapOrder) (name : Bytes)

def provider : FilesystemDomainProvider where
  basePath := site.domainsPath
  dataPath := site.domainsDataPath
  defaults := some site.defaults
  baseDefaults := (site.files.seenBy access).system
  domainOverrides := (site.files.seenBy access).overrides
  postmaster := (site.files.seenBy access).postmaster

def domain : Option Domains.Domain := (site.provider access).getDomain c order (site.files.seenBy access).tree name

def domainPath : Bytes := joinPath [site.domainsPath, name]

def configPath : Bytes := joinPath [site.domainPath name, ascii "config.toml"]

-- base_path as the layers have it that the process can read.
def foundBasePath : Bytes :=
  (site.provider access).configuredBasePath name
    ((site.provider access).ownConfig (site.files.seenBy access).tree (site.configPath name))

def foundDir : Bytes := (site.provider access).storageBase name (site.domainPath name)

def deliveryRoot : Bytes := resolvePath (site.foundDir access name) (site.foundBasePath access name)

-- base_path as the domain's own file has it, which credentials.Lookup reads as root.
def ownBasePath : Bytes :=
  let configured := (Credentials.domainConfig site.files.tree site.domainsPath name).msgStore.basePath
  if configured = [] then ascii "users" else configured

def dataDir : Bytes :=
  if site.domainsDataPath ≠ [] then joinPath [site.domainsDataPath, name] else site.domainPath name

-- The root that credentials.Lookup gives.
def loginRoot : Bytes := Credentials.basePath site.files.tree site.domainsPath site.domainsDataPath name

-- The settings of the admin tools, whose data tree is the configuration tree where no other is set.
def adminPaths : Paths :=
  ⟨site.domainsPath, if site.domainsDataPath = [] then site.domainsPath else site.domainsDataPath⟩

lemma ownBasePath_ne_nil : site.ownBasePath name ≠ [] := by
  unfold ownBasePath
  dsimp only
  by_cases hn : (Credentials.domainConfig site.files.tree site.domainsPath name).msgStore.basePath = []
  · rw [if_pos hn]
    decide
  · rwa [if_neg hn]

lemma loginRoot_eq : site.loginRoot name = resolvePath (site.dataDir name) (site.ownBasePath name) := by
  rw [resolvePath]
  simp only [site.ownBasePath_ne_nil name, false_or]
  rfl

lemma loginRoot_ne_nil : site.loginRoot name ≠ [] := by
  rw [loginRoot_eq, Ne, resolvePath_eq_nil]
  exact site.ownBasePath_ne_nil name

end Site

def ofLoaded (dom : Domains.Domain) : Domain := ⟨dom.maxMessageSize, true, true⟩

structure Spawned (site : Site) (access : Access) (order : MapOrder) (name : Bytes) (d : Deliverer) : Prop where
  storeBasePath : d.storeBasePath = site.loginRoot name
  getDomain : ∀ other, d.getDomain other = (site.domain access d.folding.toCaseMap order other).map ofLoaded

section

variable {site : Site} {access : Access} {c : CaseMap} {order : MapOrder} {name : Bytes} {dom : Domains.Domain}

lemma atSign_notMem_domainName (hn : validDomainName name = true) : atSign ∉ name := by
  intro hm
  have hb := domainByte hn hm
  revert hb
  decide

lemma validAddressComponent_domainName (hn : validDomainName name = true) :
    validAddressComponent name = true := by
  have hby : ∀ b ∈ name, b ≠ 47 ∧ b ≠ 92 := by
    intro b hb
    have hbt := domainByte hn hb
    constructor <;> rintro rfl <;> revert hbt <;> decide
  simp only [validDomainName, pathSafe, Bool.and_eq_true, Bool.not_eq_true', Bool.or_eq_false_iff] at hn
  simp only [validAddressComponent, Bool.and_eq_true, Bool.not_eq_true', hn.1.1.1.1, hn.1.1.2.1.1, List.any_eq_false,
    Bool.or_eq_true, decide_eq_true_eq, not_or, true_and, and_true]
  exact hby

end

def plainDeliverer (site : Site) (access : Access) (order : MapOrder) (f : Folding) (name : Bytes)
    (readFile : Bytes → ReadResult) (encryptMessage : Bytes → Bytes → Option Bytes) : Deliverer where
  folding := f
  storeBasePath := site.loginRoot name
  getDomain other := (site.domain access f.toCaseMap order other).map ofLoaded
  parses _ := true
  script := none
  folderIfExists _ _ := false
  readFile := readFile
  encryptMessage := encryptMessage

lemma plainDeliverer_spawned (site : Site) (access : Access) (order : MapOrder) (f : Folding) (name : Bytes)
    (readFile : Bytes → ReadResult) (encryptMessage : Bytes → Bytes → Option Bytes) :
    Spawned site access order name (plainDeliverer site access order f name readFile encryptMessage) :=
  ⟨rfl, fun _ => rfl⟩

def sampleSite (own layer : Option Bytes) : Site where
  domainsPath := ascii "/c"
  domainsDataPath := ascii "/v"
  defaults := newDefaults
  files := {
    system := none
    overrides _ := layer.map fun path => { DomainConfig.empty with msgStore := ⟨[], path, []⟩ }
    postmaster := none
    tree := {
      absent _ := false
      config _ :=
        match own with
        | none => .missing
        | some path => .table [(ascii "msgstore", .table [(ascii "base_path", .text path)])]
      readFile _ := .notExist } }

end Maildancer.Deliver

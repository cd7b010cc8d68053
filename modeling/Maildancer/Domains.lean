import Maildancer.Forwards
import Maildancer.Toml

namespace Maildancer.Domains

open Option Text Toml Forwards

structure DomainAuthConfig where
  type : Bytes
  credentialBackend : Bytes
  keyBackend : Bytes

structure DomainMsgStoreConfig where
  type : Bytes
  basePath : Bytes
  options : List (Bytes × Bytes)

-- A map is its entries.
structure DomainConfig where
  auth : DomainAuthConfig
  msgStore : DomainMsgStoreConfig
  maxMessageSize : Int
  recipientRejection : Bytes
  forwards : List (Bytes × Bytes)

def DomainConfig.empty : DomainConfig := ⟨⟨[], [], []⟩, ⟨[], [], []⟩, 0, [], []⟩

-- Empty fields are omitted.
def textEntry (key : String) (s : Bytes) : Table := if s = [] then [] else [(ascii key, .text s)]

def integerEntry (key : String) (n : Int) : Table := if n = 0 then [] else [(ascii key, .integer n)]

def tableEntry (key : String) (entries : Table) : Table :=
  if entries.isEmpty then [] else [(ascii key, .table entries)]

def textTable (texts : List (Bytes × Bytes)) : Table := texts.map fun (key, s) => (key, .text s)

def toTomlMap (cfg : DomainConfig) : Table :=
  tableEntry "auth" (textEntry "type" cfg.auth.type ++ textEntry "credential_backend" cfg.auth.credentialBackend ++
      textEntry "key_backend" cfg.auth.keyBackend) ++
    tableEntry "msgstore" (textEntry "type" cfg.msgStore.type ++ textEntry "base_path" cfg.msgStore.basePath ++
      tableEntry "options" (textTable cfg.msgStore.options)) ++
    integerEntry "max_message_size" cfg.maxMessageSize ++ textEntry "recipient_rejection" cfg.recipientRejection ++
    tableEntry "forwards" (textTable cfg.forwards)

-- A field of another kind is an error.
def textField (t : Table) (key : String) : Option Bytes :=
  match t.lookup (ascii key) with
  | none => some []
  | some (.text s) => some s
  | some _ => none

def integerField (t : Table) (key : String) : Option Int :=
  match t.lookup (ascii key) with
  | none => some 0
  | some (.integer n) => some n
  | some _ => none

def tableField (t : Table) (key : String) : Option Table :=
  match t.lookup (ascii key) with
  | none => some []
  | some (.table entries) => some entries
  | some _ => none

def textOf : Toml → Option Bytes
  | .text s => some s
  | _ => none

lemma textOf_overlay (base : Option Toml) (value : Toml) : textOf (overlay base value) = textOf value := by
  cases value with
  | table entries =>
    obtain h | ⟨lower, h⟩ := overlay_table base entries
    · rw [h]
    · rw [h]
      rfl
  | text s | integer n | other => rfl

def textEntries (t : Table) : Option (List (Bytes × Bytes)) :=
  t.mapM fun (key, value) => (textOf value).map fun s => (key, s)

-- toml.Unmarshal into a DomainConfig; keys are matched as they are written.
def unmarshal (t : Table) : Option DomainConfig := do
  let auth ← tableField t "auth"
  let msgStore ← tableField t "msgstore"
  return {
    auth := ⟨← textField auth "type", ← textField auth "credential_backend", ← textField auth "key_backend"⟩
    msgStore := ⟨← textField msgStore "type", ← textField msgStore "base_path",
      ← (tableField msgStore "options").bind textEntries⟩
    maxMessageSize := ← integerField t "max_message_size"
    recipientRejection := ← textField t "recipient_rejection"
    forwards := ← (tableField t "forwards").bind textEntries }

lemma unmarshal_some {t : Table} {cfg : DomainConfig} (h : unmarshal t = some cfg) :
    ∃ msgStore, tableField t "msgstore" = some msgStore ∧
      textField msgStore "base_path" = some cfg.msgStore.basePath ∧
      (tableField t "forwards").bind textEntries = some cfg.forwards := by
  unfold unmarshal at h
  obtain ⟨_, -, h⟩ := bind_eq_some_iff.mp h
  obtain ⟨msgStore, hm, h⟩ := bind_eq_some_iff.mp h
  obtain ⟨_, -, h⟩ := bind_eq_some_iff.mp h
  obtain ⟨_, -, h⟩ := bind_eq_some_iff.mp h
  obtain ⟨_, -, h⟩ := bind_eq_some_iff.mp h
  obtain ⟨_, -, h⟩ := bind_eq_some_iff.mp h
  obtain ⟨basePath, hb, h⟩ := bind_eq_some_iff.mp h
  obtain ⟨_, -, h⟩ := bind_eq_some_iff.mp h
  obtain ⟨_, -, h⟩ := bind_eq_some_iff.mp h
  obtain ⟨_, -, h⟩ := bind_eq_some_iff.mp h
  obtain ⟨forwards, hf, h⟩ := bind_eq_some_iff.mp h
  cases h
  exact ⟨msgStore, hm, hb, hf⟩

def mergeConfigLayers (layers : List Table) : Option DomainConfig :=
  unmarshal (layers.foldl deepMergeMaps [])

-- A config.toml: os.Stat fails on it, it cannot be read or parsed, or it is read.
inductive ConfigFile
  | missing
  | unusable
  | table (t : Table)

-- What a process finds on the disk. A path is absent if os.Stat says that it does not exist.
structure Tree where
  absent : Bytes → Bool
  config : Bytes → ConfigFile
  readFile : Bytes → ReadResult

-- The postmaster file gives data paths by domain.
structure FilesystemDomainProvider where
  basePath : Bytes
  dataPath : Bytes
  defaults : Option DomainConfig
  baseDefaults : Option DomainConfig
  domainOverrides : Bytes → Option DomainConfig
  postmaster : Option (Bytes → Option Bytes)

def resolvePath (base path : Bytes) : Bytes :=
  if path = [] ∨ isAbs path then path else joinPath [base, path]

structure ForwardChain where
  adminForwards : ForwardMap
  domainForwards : ForwardMap
  userForwardsDir : Bytes
  defaultForwards : ForwardMap

def ForwardChain.resolve (c : CaseMap) (tree : Tree) (chain : ForwardChain) (localpart : Bytes) :
    Option (List Bytes) :=
  match chain.adminForwards.resolve c localpart with
  | some targets => some targets
  | none =>
    match chain.domainForwards.resolve c localpart with
    | some targets => some targets
    | none =>
      let user :=
        if chain.userForwardsDir = [] then none
        else (loadTargets c (tree.readFile (joinPath [chain.userForwardsDir, localpart]))).filter (· ≠ [])
      match user with
      | some targets => some targets
      | none => chain.defaultForwards.resolve c localpart

structure StoreConfig where
  type : Bytes
  basePath : Bytes
  maildirSubdir : Bytes
  pathTemplate : Bytes

-- msgstore.Open knows one type.
def openStore (type basePath : Bytes) (options : List (Bytes × Bytes)) : Option StoreConfig :=
  if type ≠ ascii "maildir" ∨ basePath = [] then none
  else some ⟨type, basePath, (options.lookup (ascii "maildir_subdir")).getD [],
    (options.lookup (ascii "path_template")).getD []⟩

lemma openStore_eq_some {type basePath : Bytes} {options : List (Bytes × Bytes)} {store : StoreConfig} :
    openStore type basePath options = some store ↔ type = ascii "maildir" ∧ basePath ≠ [] ∧
      store = ⟨type, basePath, (options.lookup (ascii "maildir_subdir")).getD [],
        (options.lookup (ascii "path_template")).getD []⟩ := by
  unfold openStore
  by_cases hb : type ≠ ascii "maildir" ∨ basePath = []
  · rw [if_pos hb]
    exact iff_of_false nofun fun h => hb.elim (fun ht => ht h.1) fun he => h.2.1 he
  · rw [if_neg hb, Option.some_inj]
    rw [not_or, not_not] at hb
    exact ⟨fun h => ⟨hb.1, hb.2, h.symm⟩, fun h => h.2.2.symm⟩

structure Domain where
  name : Bytes
  authType : Bytes
  credentialBackend : Bytes
  keyBackend : Bytes
  store : StoreConfig
  maxMessageSize : Int
  recipientRejection : Bytes
  chain : ForwardChain

-- The order in which a map is walked is not fixed.
structure MapOrder where
  walk : List (Bytes × Bytes) → List (Bytes × Bytes)
  perm : ∀ m, (walk m).Perm m

def MapOrder.same : MapOrder := ⟨id, fun _ => .refl _⟩

namespace FilesystemDomainProvider

variable (p : FilesystemDomainProvider) (c : CaseMap) (order : MapOrder) (tree : Tree)

def lowerLayers (name : Bytes) : List Table :=
  (p.defaults.map toTomlMap).toList ++ (p.baseDefaults.map toTomlMap).toList ++
    ((p.domainOverrides name).map toTomlMap).toList

def storageBase (name domainPath : Bytes) : Bytes :=
  let fromDataPath := if p.dataPath ≠ [] then joinPath [p.dataPath, name] else domainPath
  match p.postmaster with
  | none => fromDataPath
  | some entries =>
    match entries name with
    | some dataPath => if dataPath ≠ [] then dataPath else fromDataPath
    | none => fromDataPath

-- The admin tier and the system default, by whether the domain's own file declares forwards.
def forwardTiers (own : Option Table) (cfg : DomainConfig) : ForwardMap × ForwardMap :=
  if (own.bind (·.lookup (ascii "forwards"))).isSome then (fromMap c (order.walk cfg.forwards), .empty)
  else (.empty, fromMap c (order.walk ((p.baseDefaults.map (·.forwards)).getD [])))

def forwardChain (domainPath : Bytes) (own : Option Table) (cfg : DomainConfig) : ForwardChain where
  adminForwards := (p.forwardTiers c order own cfg).1
  domainForwards := (load c (tree.readFile (joinPath [domainPath, ascii "forwards"]))).getD .empty
  userForwardsDir := joinPath [domainPath, ascii "user_forwards"]
  defaultForwards := (p.forwardTiers c order own cfg).2

def ownTable (configPath : Bytes) : Option (Option Table) :=
  match tree.config configPath with
  | .table t => some (some t)
  | .unusable => none
  | .missing => if p.defaults.isNone then none else some none

def ownConfig (configPath : Bytes) : Option Table := (p.ownTable tree configPath).getD none

def loadDomain (name domainPath configPath : Bytes) : Option Domain := do
  let own ← p.ownTable tree configPath
  let cfg ← mergeConfigLayers (p.lowerLayers name ++ own.toList)
  let userStoreBase := resolvePath (p.storageBase name domainPath) cfg.msgStore.basePath
  let store ← openStore cfg.msgStore.type userStoreBase cfg.msgStore.options
  return {
    name := name
    authType := cfg.auth.type
    credentialBackend := resolvePath domainPath cfg.auth.credentialBackend
    keyBackend := resolvePath domainPath cfg.auth.keyBackend
    store := store
    maxMessageSize := cfg.maxMessageSize
    recipientRejection := cfg.recipientRejection
    chain := p.forwardChain c order tree domainPath own cfg }

-- A domain by its name in lower case, where it is not cached.
def domainNamed (name : Bytes) : Option Domain :=
  let domainPath := joinPath [p.basePath, name]
  let configPath := joinPath [domainPath, ascii "config.toml"]
  if tree.absent (if p.defaults.isSome then domainPath else configPath) then none
  else p.loadDomain c order tree name domainPath configPath

def getDomain (name : Bytes) : Option Domain := p.domainNamed c order tree (c.lower name)

variable {p c order tree} {name domainPath configPath : Bytes} {dom : Domain}

lemma loadDomain_some (h : p.loadDomain c order tree name domainPath configPath = some dom) :
    ∃ cfg, mergeConfigLayers (p.lowerLayers name ++ (p.ownConfig tree configPath).toList) = some cfg ∧
      openStore cfg.msgStore.type (resolvePath (p.storageBase name domainPath) cfg.msgStore.basePath)
        cfg.msgStore.options = some dom.store ∧
      dom.chain = p.forwardChain c order tree domainPath (p.ownConfig tree configPath) cfg := by
  simp only [loadDomain, bind_eq_bind, bind_eq_some_iff, pure_def] at h
  obtain ⟨own, ho, cfg, hc, store, hs, h⟩ := h
  cases h
  have heq : p.ownConfig tree configPath = own := by simp [ownConfig, ho]
  exact ⟨cfg, heq ▸ hc, hs, by rw [heq]⟩

lemma exists_loadDomain {own : Option Table} {cfg : DomainConfig} {store : StoreConfig}
    (ho : p.ownTable tree configPath = some own) (hc : mergeConfigLayers (p.lowerLayers name ++ own.toList) = some cfg)
    (hs : openStore cfg.msgStore.type (resolvePath (p.storageBase name domainPath) cfg.msgStore.basePath)
      cfg.msgStore.options = some store) :
    ∃ dom, p.loadDomain c order tree name domainPath configPath = some dom ∧ dom.store = store := by
  rw [loadDomain, ho]
  simp [hc, hs]

lemma domainNamed_some (h : p.domainNamed c order tree name = some dom) :
    p.loadDomain c order tree name (joinPath [p.basePath, name])
      (joinPath [joinPath [p.basePath, name], ascii "config.toml"]) = some dom := by
  unfold domainNamed at h
  by_cases ha : tree.absent (if p.defaults.isSome then joinPath [p.basePath, name]
      else joinPath [joinPath [p.basePath, name], ascii "config.toml"]) = true
  · rw [if_pos ha] at h
    cases h
  · rwa [if_neg ha] at h

end FilesystemDomainProvider

end Maildancer.Domains

import Maildancer.Domains

namespace Maildancer.Domains

open Option List Text Toml

def valueAt (t : Table) (name key : Bytes) : Option Toml :=
  match t.lookup name with
  | some (.table entries) => entries.lookup key
  | _ => none

-- A layer in which the section, if it is there, is a table.
def SectionTable (t : Table) (name : Bytes) : Prop :=
  ∀ value, t.lookup name = some value → ∃ entries, value = .table entries

variable {lower upper : Table} {name : Bytes} {cfg : DomainConfig}

lemma textOf_valueAt_merge (hu : SectionTable upper name) (key : Bytes) :
    (valueAt (deepMergeMaps lower upper) name key).bind textOf =
      ((valueAt upper name key).or (valueAt lower name key)).bind textOf := by
  unfold valueAt
  rw [lookup_deepMergeMaps]
  rcases hl : upper.lookup name with _ | value
  · rfl
  obtain ⟨entries, rfl⟩ := hu value hl
  have hp : (entries.lookup key).bind textOf = ((entries.lookup key).or none).bind textOf := by
    rw [or_none]
  rcases lower.lookup name with _ | base
  · exact hp
  cases base with
  | text s | integer n | other => exact hp
  | table below =>
    show ((deepMergeMaps below entries).lookup key).bind textOf =
      ((entries.lookup key).or (below.lookup key)).bind textOf
    rw [lookup_deepMergeMaps]
    cases entries.lookup key with
    | none => rfl
    | some value => exact textOf_overlay _ value

-- The highest layer that has the key decides.
def topValue (name key : Bytes) (layers : List Table) : Option Toml :=
  layers.reverse.findSome? fun layer => valueAt layer name key

lemma textOf_valueAt_layers {layers : List Table} (h : ∀ layer ∈ layers, SectionTable layer name)
    (key : Bytes) :
    (valueAt (layers.foldl deepMergeMaps []) name key).bind textOf = (topValue name key layers).bind textOf := by
  induction layers using List.reverseRecOn with
  | nil => rfl
  | append_singleton below layer ih =>
    have hb := ih fun other ho => h other (mem_append_left _ ho)
    rw [foldl_append, foldl_cons, foldl_nil, textOf_valueAt_merge (h layer (by simp)), topValue,
      reverse_append, reverse_singleton, singleton_append, List.findSome?_cons]
    rcases valueAt layer name key with _ | value
    · exact hb
    · rfl

lemma lookup_textEntry (key : String) (s k : Bytes) :
    (textEntry key s).lookup k = if k = ascii key ∧ s ≠ [] then some (.text s) else none := by
  unfold textEntry
  by_cases hs : s = []
  · simp [hs]
  · by_cases hk : k = ascii key
    · simp [hs, hk]
    · simp [hs, hk, lookup_cons, beq_false_of_ne hk]

lemma lookup_integerEntry (key : String) (n : Int) (k : Bytes) :
    (integerEntry key n).lookup k = if k = ascii key ∧ n ≠ 0 then some (.integer n) else none := by
  unfold integerEntry
  by_cases hn : n = 0
  · simp [hn]
  · by_cases hk : k = ascii key
    · simp [hn, hk]
    · simp [hn, hk, lookup_cons, beq_false_of_ne hk]

lemma lookup_tableEntry (key : String) (entries : Table) (k : Bytes) :
    (tableEntry key entries).lookup k = if k = ascii key ∧ entries ≠ [] then some (.table entries) else none := by
  unfold tableEntry
  cases entries with
  | nil => simp
  | cons e rest =>
    by_cases hk : k = ascii key
    · simp [hk]
    · simp [hk, lookup_cons, beq_false_of_ne hk]

def msgStoreEntries (cfg : DomainMsgStoreConfig) : Table :=
  textEntry "type" cfg.type ++ textEntry "base_path" cfg.basePath ++ tableEntry "options" (textTable cfg.options)

lemma lookup_toTomlMap_msgstore (cfg : DomainConfig) : (toTomlMap cfg).lookup (ascii "msgstore") =
      if msgStoreEntries cfg.msgStore ≠ [] then some (.table (msgStoreEntries cfg.msgStore)) else none := by
  have ha : ascii "msgstore" ≠ ascii "auth" := by decide
  have hs : ascii "msgstore" ≠ ascii "max_message_size" := by decide
  have hr : ascii "msgstore" ≠ ascii "recipient_rejection" := by decide
  have hf : ascii "msgstore" ≠ ascii "forwards" := by decide
  rw [toTomlMap, ← msgStoreEntries]
  simp only [lookup_append, lookup_tableEntry, lookup_integerEntry, lookup_textEntry, ha, hs, hr,
    hf, false_and, if_false, true_and, none_or, or_none]

lemma sectionTable_toTomlMap (cfg : DomainConfig) : SectionTable (toTomlMap cfg) (ascii "msgstore") := by
  intro value hv
  rw [lookup_toTomlMap_msgstore] at hv
  by_cases hne : msgStoreEntries cfg.msgStore ≠ []
  · rw [if_pos hne] at hv
    exact ⟨_, (Option.some.inj hv).symm⟩
  · rw [if_neg hne] at hv
    cases hv

lemma valueAt_toTomlMap (cfg : DomainConfig) :
    valueAt (toTomlMap cfg) (ascii "msgstore") (ascii "base_path") =
      if cfg.msgStore.basePath ≠ [] then some (.text cfg.msgStore.basePath) else none := by
  have ht : ascii "base_path" ≠ ascii "type" := by decide
  have ho : ascii "base_path" ≠ ascii "options" := by decide
  have he : (msgStoreEntries cfg.msgStore).lookup (ascii "base_path") =
      if cfg.msgStore.basePath ≠ [] then some (.text cfg.msgStore.basePath) else none := by
    simp only [msgStoreEntries, lookup_append, lookup_tableEntry, lookup_textEntry, ht, ho, false_and,
      if_false, true_and, none_or, or_none]
  rw [valueAt, lookup_toTomlMap_msgstore]
  by_cases hne : msgStoreEntries cfg.msgStore ≠ []
  · rw [if_pos hne]
    exact he
  · rw [if_neg hne, ← he, not_not.mp hne]
    rfl

lemma textField_valueAt {t entries : Table} {key : String} {s : Bytes}
    (ht : t.lookup name = some (.table entries)) (h : textField entries key = some s) :
    s = ((valueAt t name (ascii key)).bind textOf).getD [] := by
  unfold textField at h
  rw [valueAt, ht]
  dsimp only
  rcases hv : entries.lookup (ascii key) with _ | value
  · rw [hv] at h
    exact (Option.some.inj h).symm
  rw [hv] at h
  cases value with
  | text text => exact (Option.some.inj h).symm
  | integer n | other | table inner => cases h

lemma unmarshal_basePath {t : Table} (h : unmarshal t = some cfg) :
    SectionTable t (ascii "msgstore") ∧
      cfg.msgStore.basePath = ((valueAt t (ascii "msgstore") (ascii "base_path")).bind textOf).getD [] := by
  obtain ⟨msgStore, hm, hp, -⟩ := unmarshal_some h
  unfold tableField at hm
  rcases hv : t.lookup (ascii "msgstore") with _ | value
  · rw [hv] at hm
    cases hm
    refine ⟨fun value hva => (some_ne_none value (hva.symm.trans hv)).elim, ?_⟩
    rw [valueAt, hv]
    exact (Option.some.inj hp).symm
  · rw [hv] at hm
    cases value with
    | table entries =>
      obtain rfl := Option.some.inj hm
      exact ⟨fun found hf => ⟨entries, (Option.some.inj (hv.symm.trans hf)).symm⟩, textField_valueAt hv hp⟩
    | text s | integer n | other => cases hm

lemma sectionTable_of_merge (h : SectionTable (deepMergeMaps lower upper) name) :
    SectionTable upper name := by
  intro value hv
  obtain ⟨entries, he⟩ := h _ (by rw [lookup_deepMergeMaps, hv])
  cases value with
  | table inner => exact ⟨inner, rfl⟩
  | text s | integer n | other => cases he

namespace FilesystemDomainProvider

variable (p : FilesystemDomainProvider)

-- What the layers below the domain's own file come to.
def inheritedBasePath (name : Bytes) : Bytes :=
  ([p.domainOverrides name, p.baseDefaults, p.defaults].findSome? fun layer =>
    (layer.map (·.msgStore.basePath)).filter (· ≠ [])).getD []

-- The domain's own file counts as soon as it has the key.
def configuredBasePath (name : Bytes) (own : Option Table) : Bytes :=
  match own.bind (valueAt · (ascii "msgstore") (ascii "base_path")) with
  | some value => (textOf value).getD []
  | none => p.inheritedBasePath name

lemma topValue_lowerLayers (name : Bytes) :
    ((topValue (ascii "msgstore") (ascii "base_path") (p.lowerLayers name)).bind textOf).getD [] =
      p.inheritedBasePath name := by
  have hl : ∀ layer : Option DomainConfig,
      (layer.map toTomlMap).toList.findSome? (fun t => valueAt t (ascii "msgstore") (ascii "base_path")) =
        ((layer.map (·.msgStore.basePath)).filter (· ≠ [])).map .text := by
    intro layer
    rcases layer with _ | cfg
    · rfl
    · by_cases hp : cfg.msgStore.basePath = [] <;> simp [valueAt_toTomlMap, hp]
  have hr : (p.lowerLayers name).reverse = ((p.domainOverrides name).map toTomlMap).toList ++
      ((p.baseDefaults.map toTomlMap).toList ++ (p.defaults.map toTomlMap).toList) := by
    have hs : ∀ layer : Option Table, layer.toList.reverse = layer.toList := by
      intro layer
      cases layer <;> rfl
    rw [lowerLayers, reverse_append, reverse_append, hs, hs, hs]
  rw [topValue, hr, List.findSome?_append, List.findSome?_append, hl, hl, hl, inheritedBasePath]
  simp only [List.findSome?_cons, List.findSome?_nil]
  generalize ((p.domainOverrides name).map (·.msgStore.basePath)).filter (· ≠ []) = first
  generalize (p.baseDefaults.map (·.msgStore.basePath)).filter (· ≠ []) = second
  generalize (p.defaults.map (·.msgStore.basePath)).filter (· ≠ []) = third
  rcases first with _ | s
  · rcases second with _ | s
    · cases third <;> rfl
    · rfl
  · rfl

lemma sectionTable_lowerLayers {layer : Table} (h : layer ∈ p.lowerLayers name) :
    SectionTable layer (ascii "msgstore") := by
  have ht : ∀ layer' : Option DomainConfig, layer ∈ (layer'.map toTomlMap).toList →
      SectionTable layer (ascii "msgstore") := by
    intro layer' hm
    obtain ⟨cfg, -, rfl⟩ := map_eq_some_iff.mp (mem_toList.mp hm)
    exact sectionTable_toTomlMap cfg
  rcases mem_append.mp h with h | h
  · exact (mem_append.mp h).elim (ht _) (ht _)
  · exact ht _ h

lemma mergeConfigLayers_basePath {own : Option Table}
    (h : mergeConfigLayers (p.lowerLayers name ++ own.toList) = some cfg) :
    cfg.msgStore.basePath = p.configuredBasePath name own := by
  obtain ⟨hs, hp⟩ := unmarshal_basePath h
  rw [hp]
  rcases own with _ | own
  · rw [toList_none, append_nil, textOf_valueAt_layers (fun layer hl => p.sectionTable_lowerLayers hl)]
    exact p.topValue_lowerLayers name
  have ho : SectionTable own (ascii "msgstore") := by
    rw [toList_some, foldl_append, foldl_cons, foldl_nil] at hs
    exact sectionTable_of_merge hs
  rw [toList_some, foldl_append, foldl_cons, foldl_nil, textOf_valueAt_merge ho,
    configuredBasePath, bind_some]
  rcases valueAt own (ascii "msgstore") (ascii "base_path") with _ | value
  · rw [none_or, textOf_valueAt_layers fun layer hl => p.sectionTable_lowerLayers hl]
    exact p.topValue_lowerLayers name
  · rfl

end FilesystemDomainProvider

lemma resolvePath_eq_nil {base path : Bytes} : resolvePath base path = [] ↔ path = [] := by
  unfold resolvePath
  by_cases hp : path = []
  · simp [hp]
  by_cases ha : isAbs path = true
  · rw [if_pos (.inr ha)]
  · rw [if_neg (by simp [hp, ha])]
    exact iff_of_false (joinPath_ne_nil (by simp) hp) hp

def DomainMsgStoreConfig.store (cfg : DomainMsgStoreConfig) (basePath : Bytes) : StoreConfig :=
  ⟨cfg.type, basePath, (cfg.options.lookup (ascii "maildir_subdir")).getD [],
    (cfg.options.lookup (ascii "path_template")).getD []⟩

end Maildancer.Domains

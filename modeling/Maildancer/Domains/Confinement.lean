import Maildancer.Auth.Server
import Maildancer.Domains.Tiers
import Maildancer.Memo
import Maildancer.Text.Relative

namespace Maildancer.Domains

open Option List Text Forwards Auth

def ConfigFile.present : ConfigFile → Bool
  | .missing => false
  | _ => true

structure Reading (α : Type) where
  result : α
  opened : List Bytes

namespace FilesystemDomainProvider

variable (p : FilesystemDomainProvider) (c : CaseMap) (order : MapOrder) (tree : Tree)

def domainPath (name : Bytes) : Bytes := joinPath [p.basePath, name]

-- Domains, from what os.ReadDir gives for the base path: names, each with whether it is a directory itself.
def domains (entries : List (Bytes × Bool)) : List Bytes :=
  (entries.filter fun (name, isDir) => isDir &&
    (p.defaults.isSome || (tree.config (joinPath [p.basePath, name, ascii "config.toml"])).present)).map Prod.fst

-- The entries of a directory are file names, and below what is not there nothing is.
structure Listed (entries : List (Bytes × Bool)) : Prop where
  plain : ∀ e ∈ entries, PlainName e.1
  below : ∀ name, tree.absent (p.domainPath name) = true →
    tree.config (joinPath [p.domainPath name, ascii "config.toml"]) = .missing

abbrev Cache := Memo (p.domainNamed c order tree)

def getCached (cache : p.Cache c order tree) (name : Bytes) : Option Domain × p.Cache c order tree :=
  cache.get (c.lower name)

lemma getCached_fst (cache : p.Cache c order tree) (name : Bytes) :
    (p.getCached c order tree cache name).1 = p.getDomain c order tree name := cache.get_fst _

end FilesystemDomainProvider

variable (c : CaseMap) (tree : Tree)

def ForwardChain.resolveReading (chain : ForwardChain) (localpart : Bytes) : Reading (Option (List Bytes)) :=
  match chain.adminForwards.resolve c localpart with
  | some targets => ⟨some targets, []⟩
  | none =>
    match chain.domainForwards.resolve c localpart with
    | some targets => ⟨some targets, []⟩
    | none =>
      if chain.userForwardsDir = [] then ⟨chain.defaultForwards.resolve c localpart, []⟩
      else
        let path := joinPath [chain.userForwardsDir, localpart]
        match (loadTargets c (tree.readFile path)).filter (· ≠ []) with
        | some targets => ⟨some targets, [path]⟩
        | none => ⟨chain.defaultForwards.resolve c localpart, [path]⟩

-- mailAuthAgent.UserExists over an agent that is opened for the call.
def Domain.userExistsReading (dom : Domain) (username : Bytes) : Reading (Option Bool) :=
  let credentials :=
    if dom.authType ≠ ascii "passwd" ∨ dom.credentialBackend = [] ∨ dom.keyBackend = [] then []
    else [dom.credentialBackend]
  match openAuthAgent dom (tree.readFile dom.credentialBackend) with
  | none => ⟨none, credentials⟩
  | some agent =>
    if agent.userExists username then ⟨some true, credentials⟩
    else
      let forward := dom.chain.resolveReading c tree username
      ⟨some forward.result.isSome, credentials ++ forward.opened⟩

namespace FilesystemDomainProvider

variable (p : FilesystemDomainProvider)

-- The files opened for the chain when the domain is loaded, to look for a user and to resolve a forward.
def opened (name : Bytes) (dom : Domain) (localpart : Bytes) : List Bytes :=
  joinPath [p.domainPath name, ascii "forwards"] :: ((dom.userExistsReading c tree localpart).opened ++
    (dom.chain.resolveReading c tree localpart).opened)

def OwnFile (name : Bytes) (dom : Domain) (path : Bytes) : Prop :=
  path = dom.credentialBackend ∨ path = joinPath [p.domainPath name, ascii "forwards"] ∨
    ∃ file, PlainName file ∧ path = joinPath [joinPath [p.domainPath name, ascii "user_forwards"], file]

end FilesystemDomainProvider

-- From user_forwards the path leads to a file there or to the forwards beside it.
def Confined (localpart : Bytes) : Prop :=
  components (joinPath [ascii "user_forwards", localpart]) = [ascii "forwards"] ∨
    ∃ file, components (joinPath [ascii "user_forwards", localpart]) = [ascii "user_forwards", file]

variable {name : Bytes} {dom : Domain}

section Names

variable {c : CaseMap} {tree : Tree} {p : FilesystemDomainProvider} {order : MapOrder}

lemma loadDomain_present {domainPath configPath : Bytes}
    (h : p.loadDomain c order tree name domainPath configPath = some dom)
    (hd : p.defaults = none) : (tree.config configPath).present = true := by
  simp only [FilesystemDomainProvider.loadDomain, bind_eq_bind, bind_eq_some_iff] at h
  obtain ⟨own, ho, -⟩ := h
  unfold FilesystemDomainProvider.ownTable at ho
  cases hc : tree.config configPath with
  | missing => simp [hc, hd] at ho
  | unusable | table t => rfl

lemma domainNamed_listed {entries : List (Bytes × Bool)} (hl : p.Listed tree entries)
    (hn : tree.absent (p.domainPath name) = true ∨ (name, true) ∈ entries)
    (h : p.domainNamed c order tree name = some dom) : name ∈ p.domains tree entries := by
  have hlo := FilesystemDomainProvider.domainNamed_some h
  rcases hn with ha | he
  · -- With defaults the directory is asked for, without them its configuration is.
    rcases hd : p.defaults with _ | defaults
    · have hp := loadDomain_present hlo hd
      rw [← FilesystemDomainProvider.domainPath, hl.below name ha] at hp
      cases hp
    · simp [FilesystemDomainProvider.domainNamed, hd, show tree.absent (joinPath [p.basePath, name]) = true
        from ha] at h
  · have hc : joinPath [joinPath [p.basePath, name], ascii "config.toml"] =
        joinPath [p.basePath, name, ascii "config.toml"] :=
      joinPath_joinPath (by simp) (by simp) (by simpa using hl.plain _ he) (by decide)
    rw [hc] at hlo
    refine mem_map.mpr ⟨(name, true), mem_filter.mpr ⟨he, ?_⟩, rfl⟩
    rcases hd : p.defaults with _ | defaults
    · simp [loadDomain_present hlo hd]
    · rfl

def bareTree (absent : Bytes → Bool) : Tree := ⟨absent, fun _ => .missing, fun _ => .notExist⟩

lemma bare_loads (c : CaseMap) (order : MapOrder) (absent : Bytes → Bool) (name domainPath configPath : Bytes) :
    ∃ dom, (sampleProvider []).loadDomain c order (bareTree absent) name domainPath configPath = some dom ∧
      dom.credentialBackend = [] ∧
      dom.chain = ⟨.empty, .empty, joinPath [domainPath, ascii "user_forwards"], .empty⟩ := by
  have hw : order.walk [] = [] := (order.perm []).eq_nil
  refine ⟨⟨name, [], [], [], ⟨ascii "maildir", resolvePath domainPath (ascii "users"), [], []⟩, 0, [],
    ⟨.empty, .empty, joinPath [domainPath, ascii "user_forwards"], .empty⟩⟩, ?_, rfl, rfl⟩
  have hm : mergeConfigLayers ((sampleProvider []).lowerLayers name ++ []) =
      some { DomainConfig.empty with msgStore := ⟨ascii "maildir", ascii "users", []⟩ } := rfl
  have hs : openStore (ascii "maildir") (resolvePath domainPath (ascii "users")) [] =
      some ⟨ascii "maildir", resolvePath domainPath (ascii "users"), [], []⟩ := by
    have hne : resolvePath domainPath (ascii "users") ≠ [] := by
      rw [resolvePath, if_neg (by decide)]
      exact joinPath_ne_nil (mem_cons_of_mem _ mem_cons_self) (by decide)
    simp [openStore, hne]
  have ho : (sampleProvider []).ownTable (bareTree absent) configPath = some none := rfl
  have ht : (sampleProvider []).forwardTiers c order none
      { DomainConfig.empty with msgStore := ⟨ascii "maildir", ascii "users", []⟩ } = (.empty, .empty) := by
    have he : fromMap c (order.walk []) = .empty := by rw [hw]; rfl
    exact congrArg (Prod.mk ForwardMap.empty) he
  have hc : (sampleProvider []).forwardChain c order (bareTree absent) domainPath none
      { DomainConfig.empty with msgStore := ⟨ascii "maildir", ascii "users", []⟩ } =
        ⟨.empty, .empty, joinPath [domainPath, ascii "user_forwards"], .empty⟩ := by
    rw [FilesystemDomainProvider.forwardChain, ht]
    rfl
  simp only [FilesystemDomainProvider.loadDomain, ho, bind_eq_bind, bind_some, toList_none, hm]
  have hb : (sampleProvider []).storageBase name domainPath = domainPath := rfl
  rw [hb, hs, hc]
  rfl

-- Whatever is not missing and not a directory of the base path loads with defaults.
lemma exists_unlisted (c : CaseMap) (order : MapOrder) (name : Bytes) :
    ∃ tree, (sampleProvider []).Listed tree [] ∧ tree.absent ((sampleProvider []).domainPath name) = false ∧
      ((sampleProvider []).domainNamed c order tree name).isSome = true := by
  let path := (sampleProvider []).domainPath name
  have ht : (bareTree fun other => other ≠ path).absent path = false := by simp [bareTree]
  obtain ⟨dom, hd, -⟩ := bare_loads c order (fun other => other ≠ path) name path
    (joinPath [path, ascii "config.toml"])
  refine ⟨bareTree fun other => other ≠ path, ⟨nofun, fun _ _ => rfl⟩, ht, ?_⟩
  have hna : (sampleProvider []).domainNamed c order (bareTree fun other => other ≠ path) name =
      if (bareTree fun other => other ≠ path).absent path then none
      else (sampleProvider []).loadDomain c order (bareTree fun other => other ≠ path) name path
        (joinPath [path, ascii "config.toml"]) := rfl
  rw [hna, ht, if_neg Bool.false_ne_true, hd]
  rfl

end Names

section Reads

variable {c : CaseMap} {tree : Tree} {p : FilesystemDomainProvider} {order : MapOrder} {localpart path : Bytes}

lemma mem_resolveReading {chain : ForwardChain} (h : path ∈ (chain.resolveReading c tree localpart).opened) :
    path = joinPath [chain.userForwardsDir, localpart] := by
  unfold ForwardChain.resolveReading at h
  rcases ha : chain.adminForwards.resolve c localpart with _ | targets
  · rcases hd : chain.domainForwards.resolve c localpart with _ | targets
    · by_cases hdir : chain.userForwardsDir = []
      · simp [ha, hd, hdir] at h
      · simp only [ha, hd, hdir, if_false] at h
        split at h <;> exact mem_singleton.mp h
    · simp [ha, hd] at h
  · simp [ha] at h

lemma mem_userExistsReading (h : path ∈ (dom.userExistsReading c tree localpart).opened) :
    path = dom.credentialBackend ∨ path ∈ (dom.chain.resolveReading c tree localpart).opened := by
  have hc : ∀ {bad : Prop} [Decidable bad],
      path ∈ (if bad then [] else [dom.credentialBackend]) → path = dom.credentialBackend := by
    intro bad _ hm
    split_ifs at hm
    · exact absurd hm not_mem_nil
    · exact mem_singleton.mp hm
  unfold Domain.userExistsReading at h
  rcases ha : openAuthAgent dom (tree.readFile dom.credentialBackend) with _ | agent
  · rw [ha] at h
    exact .inl (hc h)
  rw [ha] at h
  dsimp only at h
  by_cases he : agent.userExists localpart = true
  · rw [if_pos he] at h
    exact .inl (hc h)
  · rw [if_neg he] at h
    exact (mem_append.mp h).imp_left hc

lemma walk_userForwards (localpart : Bytes) : components (joinPath [ascii "user_forwards", localpart]) =
      (walk false [ascii "user_forwards"] localpart).reverse :=
  components_joinPath_walk (by decide) localpart

lemma confined_iff : Confined localpart ↔
    walk false [ascii "user_forwards"] localpart = [ascii "forwards"] ∨
      ∃ file, walk false [ascii "user_forwards"] localpart = [file, ascii "user_forwards"] := by
  simp only [Confined, walk_userForwards, reverse_eq_iff, reverse_cons, reverse_nil, nil_append,
    singleton_append]

lemma plainName_file {path file : Bytes} (h : components path = [ascii "user_forwards", file]) : PlainName file := by
  obtain ⟨ups, names, hp, -, hn⟩ := (components_normal path).shape
  rw [h] at hp
  rcases ups with _ | ups
  · rw [replicate_zero, nil_append] at hp
    exact hn file (by simp [← hp])
  · rw [replicate_succ, cons_append] at hp
    exact absurd (List.cons.inj hp).1 (by decide)

lemma components_userForwards (domainPath : Bytes) :
    isAbs (joinPath [domainPath, ascii "user_forwards"]) = isAbs domainPath ∧
      (components (joinPath [domainPath, ascii "user_forwards"])).reverse =
        ascii "user_forwards" :: (components domainPath).reverse := by
  have hn : ∀ n ∈ [ascii "user_forwards"], PlainName n := by decide
  refine ⟨isAbs_joinPath (by simp) hn, ?_⟩
  rw [components_joinPath (by simp) hn, reverse_append]
  rfl

lemma userForwards_ne_nil (domainPath : Bytes) : joinPath [domainPath, ascii "user_forwards"] ≠ [] :=
  joinPath_ne_nil (mem_cons_of_mem _ mem_cons_self) (by decide)

lemma Confined.joinPath_eq (h : Confined localpart) (domainPath : Bytes) :
    joinPath [joinPath [domainPath, ascii "user_forwards"], localpart] = joinPath [domainPath, ascii "forwards"] ∨
      ∃ file, PlainName file ∧ joinPath [joinPath [domainPath, ascii "user_forwards"], localpart] =
        joinPath [joinPath [domainPath, ascii "user_forwards"], file] := by
  obtain ⟨ha, hc⟩ := components_userForwards domainPath
  have hr : dotDot ∉ walk false [ascii "user_forwards"] localpart →
      joinPath [joinPath [domainPath, ascii "user_forwards"], localpart] =
        renderPath (isAbs domainPath)
          (components domainPath ++ (walk false [ascii "user_forwards"] localpart).reverse) := by
    intro hs
    have hw := foldl_below (isAbs domainPath) (components domainPath).reverse hs
    have hu := userForwards_ne_nil domainPath
    rw [joinPath_pair hu, cleanPath, isAbs_pair hu, components_pair hu, ha, hc]
    refine congrArg (renderPath (isAbs domainPath)) ?_
    exact (congrArg List.reverse hw).trans (by rw [reverse_append, reverse_reverse]; rfl)
  rcases h with hf | ⟨file, hfi⟩
  · refine .inl ?_
    rw [walk_userForwards] at hf
    rw [hr (by rw [← mem_reverse, hf]; decide), hf]
    exact (joinPath_names (by simp) (by decide)).symm
  · have hp := plainName_file hfi
    refine .inr ⟨file, hp, ?_⟩
    rw [walk_userForwards] at hfi
    have hs : dotDot ∉ walk false [ascii "user_forwards"] localpart := by
      rw [← mem_reverse, hfi, mem_cons, mem_singleton, not_or]
      exact ⟨by decide, fun hd => hp.ne_dotDot hd.symm⟩
    rw [hr hs, hfi, joinPath_joinPath (by simp) (by simp) (by decide) (by simpa using hp)]
    exact (joinPath_names (by simp) (by simp [hp]; decide)).symm

lemma Confined.ownFile (h : Confined localpart)
    (hl : p.domainNamed c order tree name = some dom) (hp : path ∈ p.opened c tree name dom localpart) :
    p.OwnFile name dom path := by
  obtain ⟨cfg, -, -, hc⟩ := FilesystemDomainProvider.loadDomain_some (FilesystemDomainProvider.domainNamed_some hl)
  have hd : dom.chain.userForwardsDir = joinPath [p.domainPath name, ascii "user_forwards"] := by
    rw [hc]
    rfl
  have hr : path ∈ (dom.chain.resolveReading c tree localpart).opened → p.OwnFile name dom path := by
    intro hm
    have heq := mem_resolveReading hm
    rw [hd] at heq
    rcases h.joinPath_eq (p.domainPath name) with hf | ⟨file, hpl, hfi⟩
    · exact .inr (.inl (heq.trans hf))
    · exact .inr (.inr ⟨file, hpl, heq.trans hfi⟩)
  rcases mem_cons.mp hp with rfl | hp
  · exact .inr (.inl rfl)
  rcases mem_append.mp hp with hp | hp
  · rcases mem_userExistsReading hp with hb | hp
    · exact .inl hb
    · exact hr hp
  · exact hr hp

end Reads

lemma lower_replicate (c : CaseMap) (n : Nat) : c.lower (List.replicate n 97) = List.replicate n 97 := by
  have ha : ∀ b ∈ List.replicate n (97 : UInt8), b < 128 := by
    intro b hb
    rw [eq_of_mem_replicate hb]
    decide
  rw [c.lower_ascii _ ha, map_replicate]
  rfl

def strangeName (localpart : Bytes) : Bytes := List.replicate (localpart.length + 1) 97

lemma strangeName_plain (localpart : Bytes) : PlainName (strangeName localpart) := by
  have hm : ∀ b ∈ strangeName localpart, b = 97 := fun b hb => eq_of_mem_replicate hb
  refine ⟨cons_ne_nil _ _, fun hs => ?_, fun hdot => ?_, fun hd => ?_⟩
  · exact absurd (hm slash hs) (by decide)
  · exact absurd (hm 46 (by rw [hdot]; decide)) (by decide)
  · exact absurd (hm 46 (by rw [hd]; decide)) (by decide)

lemma strangeName_notMem (localpart : Bytes) : strangeName localpart ∉ split slash localpart := by
  intro hm
  have hl := (infix_of_mem_split hm).length_le
  rw [strangeName, length_replicate] at hl
  omega

lemma exists_opened (c : CaseMap) (order : MapOrder) (localpart : Bytes) :
    ∃ dom, (sampleProvider []).domainNamed c order (bareTree fun _ => false) (strangeName localpart) = some dom ∧
      dom.credentialBackend = [] ∧
      joinPath [joinPath [(sampleProvider []).domainPath (strangeName localpart), ascii "user_forwards"], localpart] ∈
        (sampleProvider []).opened c (bareTree fun _ => false) (strangeName localpart) dom localpart := by
  let domainPath := (sampleProvider []).domainPath (strangeName localpart)
  obtain ⟨dom, hd, hb, hc⟩ := bare_loads c order (fun _ => false) _ domainPath
    (joinPath [domainPath, ascii "config.toml"])
  refine ⟨dom, hd, hb, mem_cons_of_mem _ (mem_append_right _ ?_)⟩
  have hdir := userForwards_ne_nil domainPath
  have ho : (dom.chain.resolveReading c (bareTree fun _ => false) localpart).opened =
      [joinPath [joinPath [domainPath, ascii "user_forwards"], localpart]] := by
    rw [hc, ForwardChain.resolveReading]
    exact congrArg Reading.opened (if_neg hdir)
  rw [ho]
  exact mem_singleton_self _

lemma confined_of_ownFile (c : CaseMap) (order : MapOrder) {localpart : Bytes}
    (h : ∀ dom, (sampleProvider []).domainNamed c order (bareTree fun _ => false) (strangeName localpart) = some dom →
      ∀ path ∈ (sampleProvider []).opened c (bareTree fun _ => false) (strangeName localpart) dom localpart,
        (sampleProvider []).OwnFile (strangeName localpart) dom path) : Confined localpart := by
  obtain ⟨dom, hdom, hb, hp⟩ := exists_opened c order localpart
  let domainPath := (sampleProvider []).domainPath (strangeName localpart)
  have hd : components domainPath = [ascii "d", strangeName localpart] :=
    components_joinPath (by simp) (by simpa using strangeName_plain localpart)
  obtain ⟨-, hc⟩ := components_userForwards domainPath
  rw [hd] at hc
  have hw : ∀ {found : List Bytes},
      components (joinPath [joinPath [domainPath, ascii "user_forwards"], localpart]) =
        [ascii "d", strangeName localpart] ++ found.reverse → walk false [ascii "user_forwards"] localpart = found := by
    intro found hf
    rw [components_joinPath_walk (userForwards_ne_nil domainPath), hc] at hf
    have hs := congrArg List.reverse hf
    rw [reverse_reverse, reverse_append, reverse_reverse] at hs
    refine foldl_above (by decide) (strangeName_plain localpart).ne_dotDot ?_ (strangeName_notMem localpart) hs
    intro hm
    have hby : (97 : UInt8) ∈ ascii "d" := by
      rw [← mem_singleton.mp hm]
      exact mem_cons_self
    exact absurd hby (by decide)
  rw [confined_iff]
  rcases h dom hdom _ hp with hcr | hfo | ⟨file, hpl, hfi⟩
  · rw [hb] at hcr
    exact absurd hcr (joinPath_ne_nil mem_cons_self (userForwards_ne_nil _))
  · refine .inl (hw ?_)
    have hpa : components (joinPath [domainPath, ascii "forwards"]) = components domainPath ++ [ascii "forwards"] :=
      components_joinPath (by simp) (by decide)
    rw [show joinPath [joinPath [domainPath, ascii "user_forwards"], localpart] =
        joinPath [domainPath, ascii "forwards"]
      from hfo, hpa, hd]
    rfl
  · refine .inr ⟨file, hw ?_⟩
    have hpa : components (joinPath [joinPath [domainPath, ascii "user_forwards"], file]) =
        components (joinPath [domainPath, ascii "user_forwards"]) ++ [file] :=
      components_joinPath (by simp) (by simpa using hpl)
    have hdi : components (joinPath [domainPath, ascii "user_forwards"]) =
        components domainPath ++ [ascii "user_forwards"] := components_joinPath (by simp) (by decide)
    rw [show joinPath [joinPath [domainPath, ascii "user_forwards"], localpart] =
      joinPath [joinPath [domainPath, ascii "user_forwards"], file] from hfi, hpa, hdi, hd]
    rfl

def twoDomains : Tree where
  absent path := path ∉ [ascii "/d", ascii "/d/a.org", ascii "/d/b.org", ascii "/d/config.toml"]
  config path := if path = ascii "/d/config.toml" then .table [] else .missing
  readFile path := if path = ascii "/d/b.org/passwd" then .content (ascii "bob:secret") else .notExist

end Maildancer.Domains

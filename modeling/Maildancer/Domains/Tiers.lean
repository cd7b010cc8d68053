import Maildancer.Domains

namespace Maildancer.Domains

open Option List Text Toml Forwards

lemma textEntries_cons (key : Bytes) (value : Toml) (rest : Table) : textEntries ((key, value) :: rest) =
      (textOf value).bind fun s => (textEntries rest).map fun more => (key, s) :: more := by
  cases hv : textOf value <;> cases hr : textEntries rest <;> simp_all [textEntries]

lemma textEntries_overlayEach (lower entries : Table) :
    textEntries (overlayEach lower entries) = textEntries entries := by
  induction entries with
  | nil => rfl
  | cons e rest ih =>
    obtain ⟨key, value⟩ := e
    rw [overlayEach, textEntries_cons, textEntries_cons, textOf_overlay, ih]

variable {rules : List (Bytes × Bytes)} {cfg : DomainConfig}

lemma textEntries_append {first second : Table} (h : textEntries (first ++ second) = some rules) :
    ∃ before after, textEntries first = some before ∧ textEntries second = some after ∧ rules = before ++ after := by
  induction first generalizing rules with
  | nil => exact ⟨[], rules, rfl, h, rfl⟩
  | cons e rest ih =>
    obtain ⟨key, value⟩ := e
    rw [cons_append, textEntries_cons] at h
    obtain ⟨s, hs, h⟩ := Option.bind_eq_some_iff.mp h
    obtain ⟨more, hm, rfl⟩ := map_eq_some_iff.mp h
    obtain ⟨before, after, hb, ha, rfl⟩ := ih hm
    exact ⟨(key, s) :: before, after, by rw [textEntries_cons, hs, hb]; rfl, ha, rfl⟩

lemma keys_textEntries {t : Table} (h : textEntries t = some rules) :
    rules.map Prod.fst = t.map Prod.fst := by
  induction t generalizing rules with
  | nil =>
    cases h
    rfl
  | cons e rest ih =>
    obtain ⟨key, value⟩ := e
    rw [textEntries_cons] at h
    obtain ⟨s, -, h⟩ := Option.bind_eq_some_iff.mp h
    obtain ⟨more, hm, rfl⟩ := map_eq_some_iff.mp h
    simp [ih hm]

def declaredRules (t : Table) : List (Bytes × Bytes) := ((tableField t "forwards").bind textEntries).getD []

lemma merged_forwards {lower : List Table} {own : Table}
    (h : mergeConfigLayers (lower ++ [own]) = some cfg) (hd : (own.lookup (ascii "forwards")).isSome) :
    ∃ leaked, cfg.forwards = leaked ++ declaredRules own ∧
      ∀ rule ∈ leaked, rule.1 ∉ (declaredRules own).map Prod.fst := by
  rw [mergeConfigLayers, foldl_append, foldl_cons, foldl_nil] at h
  obtain ⟨-, -, -, hf⟩ := unmarshal_some h
  obtain ⟨value, hv⟩ := isSome_iff_exists.mp hd
  rw [tableField, lookup_deepMergeMaps, hv] at hf
  cases value with
  | text s | integer n | other => cases hf
  | table entries =>
    have hown : ∀ rules, textEntries entries = some rules → declaredRules own = rules := by
      intro rules hr
      simp only [declaredRules, tableField, hv]
      simp [hr]
    dsimp only at hf
    obtain ho | ⟨below, ho⟩ := overlay_table _ entries
    · rw [ho] at hf
      exact ⟨[], by rw [hown _ hf, nil_append], nofun⟩
    rw [ho] at hf
    obtain ⟨leaked, rules, hl, hr, heq⟩ := textEntries_append hf
    rw [textEntries_overlayEach] at hr
    rw [hown rules hr]
    refine ⟨leaked, heq, fun rule hru hm => ?_⟩
    have hk : rule.1 ∈ leaked.map Prod.fst := mem_map_of_mem hru
    rw [keys_textEntries hl] at hk
    rw [keys_textEntries hr] at hm
    obtain ⟨e, he, hfst⟩ := mem_map.mp hk
    obtain ⟨e', he', hfst'⟩ := mem_map.mp hm
    have hn := (mem_filter.mp he).2
    rw [hfst, isNone_iff_eq_none, lookup_eq_none_iff] at hn
    simpa [hfst'] using hn e' he'

def walkLast (rule : Bytes × Bytes) (m : List (Bytes × Bytes)) : List (Bytes × Bytes) :=
  if m.contains rule then m.erase rule ++ [rule] else m

lemma walkLast_perm (rule : Bytes × Bytes) (m : List (Bytes × Bytes)) : (walkLast rule m).Perm m := by
  unfold walkLast
  by_cases h : m.contains rule = true
  · rw [if_pos h]
    exact perm_append_singleton rule _ |>.trans (perm_cons_erase (contains_iff_mem.mp h)).symm
  · rw [if_neg h]

def MapOrder.last (rule : Bytes × Bytes) : MapOrder := ⟨walkLast rule, walkLast_perm rule⟩

variable {localpart : Bytes} {rule : Bytes × Bytes}

lemma resolve_of_applies {c : CaseMap} (h : Applies c rules localpart rule) :
    (fromMap c ((MapOrder.last rule).walk rules)).resolve c localpart = some (parseTargets c rule.2) := by
  have hw : (MapOrder.last rule).walk rules = rules.erase rule ++ [rule] := if_pos (contains_iff_mem.mpr h.1)
  have hp := (MapOrder.last rule).perm rules
  rw [hw] at hp ⊢
  exact resolve_last c ((applies_perm c hp localpart rule).mpr h)

lemma ForwardChain.resolve_eq {c : CaseMap} {tree : Tree} {chain : ForwardChain}
    (h : chain.userForwardsDir ≠ []) : chain.resolve c tree localpart =
      [chain.adminForwards.resolve c localpart, chain.domainForwards.resolve c localpart,
        (loadTargets c (tree.readFile (joinPath [chain.userForwardsDir, localpart]))).filter (· ≠ []),
        chain.defaultForwards.resolve c localpart].findSome? id := by
  simp only [ForwardChain.resolve, if_neg h, List.findSome?_cons, List.findSome?_nil, id]
  rcases chain.adminForwards.resolve c localpart with _ | targets
  · rcases chain.domainForwards.resolve c localpart with _ | targets
    · cases (loadTargets c (tree.readFile (joinPath [chain.userForwardsDir, localpart]))).filter (· ≠ []) with
      | some targets => rfl
      | none => cases chain.defaultForwards.resolve c localpart <;> rfl
    · rfl
  · rfl

namespace FilesystemDomainProvider

variable (p : FilesystemDomainProvider) (c : CaseMap) (order : MapOrder) (tree : Tree)
variable (name domainPath configPath : Bytes)

def Declares : Prop := ((p.ownConfig tree configPath).bind (·.lookup (ascii "forwards"))).isSome

instance : Decidable (p.Declares tree configPath) := inferInstanceAs (Decidable (_ = true))

def ownRules : List (Bytes × Bytes) := ((p.ownConfig tree configPath).map declaredRules).getD []

def mergedRules : List (Bytes × Bytes) :=
  ((mergeConfigLayers (p.lowerLayers name ++ (p.ownConfig tree configPath).toList)).map (·.forwards)).getD []

-- The four tiers as they are written, for a local part. A domain that declares
-- forwards has no system default.
def writtenTiers (localpart : Bytes) : List (Option (List Bytes)) :=
  [(fromMap c (order.walk (p.ownRules tree configPath))).resolve c localpart,
    ((load c (tree.readFile (joinPath [domainPath, ascii "forwards"]))).getD .empty).resolve c localpart,
    (loadTargets c (tree.readFile
      (joinPath [joinPath [domainPath, ascii "user_forwards"], localpart]))).filter (· ≠ []),
    if p.Declares tree configPath then none
    else (fromMap c (order.walk ((p.baseDefaults.map (·.forwards)).getD []))).resolve c localpart]

def Honours (localpart : Bytes) (answer : Option (List Bytes)) : Prop :=
  ∃ order, answer = (p.writtenTiers c order tree domainPath configPath localpart).findSome? id

-- A rule of a lower layer that is not hidden by the domain's own table gives, to
-- every local part it counts for, what the tiers give.
def LeaksNothing : Prop :=
  ∀ rule ∈ p.mergedRules tree name configPath, rule.1 ∉ (p.ownRules tree configPath).map Prod.fst →
    ∀ localpart, Applies c (p.mergedRules tree name configPath) localpart rule →
      p.Honours c tree domainPath configPath localpart (some (parseTargets c rule.2))

variable {p c order tree name domainPath configPath}

lemma loadDomain_any_order {d : Domain} (h : p.loadDomain c order tree name domainPath configPath = some d)
    (other : MapOrder) : ∃ d', p.loadDomain c other tree name domainPath configPath = some d' := by
  simp only [loadDomain, Option.bind_eq_bind, Option.bind_eq_some_iff, Option.pure_def] at h ⊢
  obtain ⟨own, ho, cfg, hc, store, hs, -⟩ := h
  exact ⟨_, own, ho, cfg, hc, store, hs, rfl⟩

lemma resolve_chain (own : Option Table) (cfg : DomainConfig) (localpart : Bytes) :
    (p.forwardChain c order tree domainPath own cfg).resolve c tree localpart =
      [((p.forwardTiers c order own cfg).1).resolve c localpart,
        ((load c (tree.readFile (joinPath [domainPath, ascii "forwards"]))).getD .empty).resolve c localpart,
        (loadTargets c (tree.readFile (joinPath [joinPath [domainPath, ascii "user_forwards"], localpart]))).filter
          (· ≠ []),
        ((p.forwardTiers c order own cfg).2).resolve c localpart].findSome? id :=
  ForwardChain.resolve_eq (joinPath_ne_nil (mem_cons_of_mem _ mem_cons_self) (by simp [ascii]))

lemma ownRules_of_not_declares (h : ¬ p.Declares tree configPath) : p.ownRules tree configPath = [] := by
  unfold Declares at h
  unfold ownRules
  rcases ho : p.ownConfig tree configPath with _ | own
  · rfl
  · rcases hl : own.lookup (ascii "forwards") with _ | value
    · simp [declaredRules, tableField, hl, textEntries]
    · exact absurd (by simp [ho, hl]) h

lemma fromMap_walk_nil : fromMap c (order.walk []) = .empty := by
  rw [perm_nil.mp (order.perm [])]
  rfl

lemma honours_of_not_declares (hn : ¬ p.Declares tree configPath) (localpart : Bytes) :
    p.Honours c tree domainPath configPath localpart
      ((p.forwardChain c order tree domainPath (p.ownConfig tree configPath) cfg).resolve c tree localpart) := by
  have ht : p.forwardTiers c order (p.ownConfig tree configPath) cfg =
      (.empty, fromMap c (order.walk ((p.baseDefaults.map (·.forwards)).getD []))) := if_neg hn
  refine ⟨order, ?_⟩
  rw [resolve_chain, ht, writtenTiers, if_neg hn, ownRules_of_not_declares hn, fromMap_walk_nil]

lemma Declares.merged (hd : p.Declares tree configPath)
    (h : mergeConfigLayers (p.lowerLayers name ++ (p.ownConfig tree configPath).toList) = some cfg) :
    ∃ leaked, cfg.forwards = leaked ++ p.ownRules tree configPath ∧
      ∀ rule ∈ leaked, rule.1 ∉ (p.ownRules tree configPath).map Prod.fst := by
  unfold Declares at hd
  unfold ownRules
  rcases ho : p.ownConfig tree configPath with _ | own
  · simp [ho] at hd
  · rw [ho] at hd h
    exact merged_forwards h hd

lemma forwardTiers_of_declares (hd : p.Declares tree configPath) (cfg : DomainConfig) :
    p.forwardTiers c order (p.ownConfig tree configPath) cfg = (fromMap c (order.walk cfg.forwards), .empty) :=
  if_pos hd

lemma honours_of_applies (localpart : Bytes) (h : Applies c (p.ownRules tree configPath) localpart rule) :
    p.Honours c tree domainPath configPath localpart (some (parseTargets c rule.2)) := by
  refine ⟨MapOrder.last rule, ?_⟩
  rw [writtenTiers, resolve_of_applies h]
  rfl

end FilesystemDomainProvider

open FilesystemDomainProvider

-- The chain of a domain gives the first match of the tiers exactly if, where the domain declares forwards, no
-- rule of a lower layer shows through with another answer.
theorem tiers_honoured_iff {p : FilesystemDomainProvider} {c : CaseMap} {order : MapOrder} {tree : Tree}
    {name domainPath configPath : Bytes} {d : Domain}
    (hload : p.loadDomain c order tree name domainPath configPath = some d) :
    (∀ order d, p.loadDomain c order tree name domainPath configPath = some d →
        ∀ localpart, p.Honours c tree domainPath configPath localpart (d.chain.resolve c tree localpart)) ↔
      (p.Declares tree configPath → p.LeaksNothing c tree name domainPath configPath) := by
  by_cases hde : p.Declares tree configPath
  · obtain ⟨cfg, hc, -⟩ := loadDomain_some hload
    obtain ⟨leaked, hf, hfr⟩ := hde.merged hc
    have hm : p.mergedRules tree name configPath = cfg.forwards := by simp [mergedRules, hc]
    constructor
    · intro h _ rule hr hk localpart ha
      obtain ⟨d', hd'⟩ := loadDomain_any_order hload (MapOrder.last rule)
      obtain ⟨cfg', hcf, -, hch⟩ := loadDomain_some hd'
      obtain rfl := Option.some.inj (hc.symm.trans hcf)
      have han := h _ d' hd' localpart
      rw [hch, resolve_chain, forwardTiers_of_declares hde, ← hm, resolve_of_applies ha] at han
      exact han
    · intro h order d hd localpart
      obtain ⟨cfg', hcf, -, hch⟩ := loadDomain_some hd
      obtain rfl := Option.some.inj (hc.symm.trans hcf)
      rw [hch, resolve_chain, forwardTiers_of_declares hde]
      obtain ⟨rule, ha, han⟩ | ⟨hn, han⟩ := resolve_fromMap c (order.walk cfg.forwards) localpart
      · have ha := (applies_perm c (order.perm cfg.forwards) localpart rule).mp ha
        rw [han]
        by_cases hk : rule.1 ∈ (p.ownRules tree configPath).map Prod.fst
        · -- The rule stands in the domain's own table.
          have ho : rule ∈ p.ownRules tree configPath := by
            have hme := ha.1
            rw [hf] at hme
            exact (mem_append.mp hme).resolve_left fun hl => hfr rule hl hk
          refine honours_of_applies localpart ⟨ho, ha.2.imp id fun ⟨hs, ht, hna⟩ => ?_⟩
          exact ⟨hs, ht, fun other hot => hna other (by rw [hf]; exact mem_append_right _ hot)⟩
        · exact h hde rule (hm ▸ ha.1) hk localpart (hm.symm ▸ ha)
      · have hn : ∀ rule, ¬ Applies c cfg.forwards localpart rule := fun rule ha =>
          hn rule ((applies_perm c (order.perm cfg.forwards) localpart rule).mpr ha)
        have hna : ∀ other ∈ cfg.forwards, ¬ Names c localpart other := fun other hot hna =>
          hn other ⟨hot, .inl hna⟩
        obtain ⟨rule, ha, -⟩ | ⟨-, ho⟩ :=
          resolve_fromMap c (order.walk (p.ownRules tree configPath)) localpart
        · obtain ⟨hme, hco⟩ := (applies_perm c (order.perm _) localpart rule).mp ha
          have hme : rule ∈ cfg.forwards := by
            rw [hf]
            exact mem_append_right _ hme
          exact absurd ⟨hme, hco.imp id fun ⟨hs, ht, _⟩ => ⟨hs, ht, hna⟩⟩ (hn rule)
        · refine ⟨order, ?_⟩
          rw [han, writtenTiers, ho, if_pos hde]
          rfl
  · refine ⟨fun _ h => absurd h hde, fun _ order d hd localpart => ?_⟩
    obtain ⟨cfg, -, -, hch⟩ := loadDomain_some hd
    rw [hch]
    exact honours_of_not_declares hde localpart

def sampleProvider (systemRules : List (Bytes × Bytes)) : FilesystemDomainProvider where
  basePath := ascii "/d"
  dataPath := []
  defaults := some { DomainConfig.empty with msgStore := ⟨ascii "maildir", ascii "users", []⟩ }
  baseDefaults := some { DomainConfig.empty with forwards := systemRules }
  domainOverrides _ := none
  postmaster := none

def emptyForwardsTree : Tree where
  absent _ := false
  config _ := .table [(ascii "forwards", .table [])]
  readFile _ := .notExist

def loadSample (systemRules : List (Bytes × Bytes)) (tree : Tree) : Option Domain :=
  (sampleProvider systemRules).loadDomain CaseMap.asciiOnly MapOrder.same tree (ascii "a.org")
    (ascii "/d/a.org") (ascii "/d/a.org/config.toml")

-- A rule in the domain's table, one in its file and one of a user.
def tieredTree : Tree where
  absent _ := false
  config _ := .table [(ascii "forwards", .table [(ascii "sales", .text (ascii "tom@a.org"))])]
  readFile path :=
    if path = ascii "/d/a.org/forwards" then .content (ascii "sales: ann@c.org\nbob: bob@c.org\n")
    else if path = ascii "/d/a.org/user_forwards/carol" then .content (ascii "carol@d.org\n")
    else .notExist

def salesRules : List (Bytes × Bytes) := [(ascii "sales", ascii "sales@b.org")]

theorem tiers_honoured_iff_tiered :
    (loadSample salesRules tieredTree).map (fun d =>
        [ascii "sales", ascii "bob", ascii "carol", ascii "dave"].map (d.chain.resolve CaseMap.asciiOnly tieredTree)) =
      some [some [ascii "tom@a.org"], some [ascii "bob@c.org"], some [ascii "carol@d.org"], none] ∧
    ∀ order d, (sampleProvider salesRules).loadDomain CaseMap.asciiOnly order tieredTree (ascii "a.org")
        (ascii "/d/a.org") (ascii "/d/a.org/config.toml") = some d →
      ∀ localpart, (sampleProvider salesRules).Honours CaseMap.asciiOnly tieredTree (ascii "/d/a.org")
        (ascii "/d/a.org/config.toml") localpart (d.chain.resolve CaseMap.asciiOnly tieredTree localpart) := by
  refine ⟨by decide +kernel, ?_⟩
  have hl : (loadSample salesRules tieredTree).isSome = true := by decide +kernel
  obtain ⟨d, hd⟩ := isSome_iff_exists.mp hl
  refine (tiers_honoured_iff hd).mpr fun _ rule hr hk => absurd ?_ hk
  have hown : ∀ rule ∈
      (sampleProvider salesRules).mergedRules tieredTree (ascii "a.org") (ascii "/d/a.org/config.toml"),
      rule.1 ∈ ((sampleProvider salesRules).ownRules tieredTree (ascii "/d/a.org/config.toml")).map Prod.fst := by
    decide +kernel
  exact hown rule hr

def catchallRules : List (Bytes × Bytes) := [(star, ascii "root@b.org")]

-- An empty table of forwards does not keep the system's catchall away.
theorem system_catchall_leaks :
    (sampleProvider catchallRules).Declares emptyForwardsTree (ascii "/d/a.org/config.toml") ∧
    (loadSample catchallRules emptyForwardsTree).map (fun d =>
        d.chain.resolve CaseMap.asciiOnly emptyForwardsTree (ascii "bob")) = some (some [ascii "root@b.org"]) ∧
    ¬ (sampleProvider catchallRules).Honours CaseMap.asciiOnly emptyForwardsTree (ascii "/d/a.org")
      (ascii "/d/a.org/config.toml") (ascii "bob") (some [ascii "root@b.org"]) := by
  refine ⟨by decide +kernel, by decide +kernel, ?_⟩
  rintro ⟨order, ha⟩
  have ho : (sampleProvider catchallRules).ownRules emptyForwardsTree (ascii "/d/a.org/config.toml") = [] := by
    decide +kernel
  have hd : (sampleProvider catchallRules).Declares emptyForwardsTree (ascii "/d/a.org/config.toml") := by
    decide +kernel
  rw [writtenTiers, ho, fromMap_walk_nil, if_pos hd] at ha
  cases ha

end Maildancer.Domains

import Maildancer.Text.Parts
import Mathlib.Data.List.TakeWhile

namespace Maildancer.Text

open List

def slash : UInt8 := 47

-- filepath.IsAbs
def isAbs (path : Bytes) : Bool := path.head? = some slash

-- The components so far with the last one on top, and the next one. A leading
-- dot-dot stays unless the path is rooted.
def pushComponent (rooted : Bool) (stack : List Bytes) (part : Bytes) : List Bytes :=
  if part = [] ∨ part = ascii "." then stack
  else if part = ascii ".." then
    match stack with
    | [] => if rooted then [] else [part]
    | top :: rest => if top = ascii ".." then part :: stack else rest
  else part :: stack

def components (path : Bytes) : List Bytes :=
  ((split slash path).foldl (pushComponent (isAbs path)) []).reverse

def renderPath (rooted : Bool) (parts : List Bytes) : Bytes :=
  if rooted then slash :: List.intercalate [slash] parts
  else if parts = [] then ascii "."
  else List.intercalate [slash] parts

-- filepath.Clean
def cleanPath (path : Bytes) : Bytes := renderPath (isAbs path) (components path)

-- filepath.Join
def joinPath (elems : List Bytes) : Bytes :=
  match elems.dropWhile (· = []) with
  | [] => []
  | rest => cleanPath (List.intercalate [slash] rest)

lemma split_ne_nil (sep : UInt8) (s : Bytes) : split sep s ≠ [] := by
  rcases s with _ | ⟨b, rest⟩
  · simp [split]
  rw [split]
  by_cases hb : b = sep
  · simp [hb]
  · rw [if_neg hb]
    cases split sep rest <;> simp

lemma split_append (sep : UInt8) (s t : Bytes) : split sep (s ++ sep :: t) = split sep s ++ split sep t := by
  induction s with
  | nil => simp [split]
  | cons b rest ih =>
    by_cases hb : b = sep
    · simp [split, hb, ih]
    simp only [cons_append, split, hb, ↓reduceIte, ih]
    cases hs : split sep rest with
    | nil => exact absurd hs (split_ne_nil sep rest)
    | cons part parts => rfl

variable {sep : UInt8} {part base : Bytes} {parts names : List Bytes} {rooted : Bool}

variable {s name other : Bytes}

lemma notMem_of_mem_split (h : part ∈ split sep s) : sep ∉ part := by
  induction s generalizing part with
  | nil =>
    rw [split, mem_singleton] at h
    simp [h]
  | cons b rest ih =>
    rw [split] at h
    by_cases hb : b = sep
    · rw [if_pos hb] at h
      rcases mem_cons.mp h with rfl | h
      · exact not_mem_nil
      · exact ih h
    · rw [if_neg hb] at h
      rcases hs : split sep rest with _ | ⟨first, parts⟩
      · rw [hs, mem_singleton] at h
        simpa [h] using Ne.symm hb
      rw [hs] at h ih
      rcases mem_cons.mp h with rfl | h
      · have hf := ih mem_cons_self
        simp [hf, Ne.symm hb]
      · exact ih (mem_cons_of_mem _ h)

lemma mem_split_of_mem {b : UInt8} (h : b ∈ s) : b = sep ∨ ∃ part ∈ split sep s, b ∈ part := by
  induction s with
  | nil => cases h
  | cons first rest ih =>
    rw [split]
    by_cases hf : first = sep
    · rw [if_pos hf]
      rcases mem_cons.mp h with rfl | h
      · exact .inl hf
      · exact (ih h).imp_right fun ⟨part, hp, hb⟩ => ⟨part, mem_cons_of_mem _ hp, hb⟩
    · rw [if_neg hf]
      rcases hs : split sep rest with _ | ⟨part, parts⟩
      · exact absurd hs (split_ne_nil sep rest)
      rcases mem_cons.mp h with rfl | h
      · exact .inr ⟨b :: part, mem_cons_self, mem_cons_self⟩
      refine (ih h).imp_right fun ⟨found, hfo, hb⟩ => ?_
      rw [hs] at hfo
      rcases mem_cons.mp hfo with rfl | hfo
      · exact ⟨first :: found, mem_cons_self, mem_cons_of_mem _ hb⟩
      · exact ⟨found, mem_cons_of_mem _ hfo, hb⟩

lemma split_of_notMem (h : sep ∉ s) : split sep s = [s] := by
  induction s with
  | nil => rfl
  | cons b rest ih =>
    have hb : b ≠ sep := fun hb => h (hb ▸ mem_cons_self)
    rw [split, if_neg hb, ih fun hm => h (mem_cons_of_mem _ hm)]

lemma intercalate_cons (sep : UInt8) (part : Bytes) {rest : List Bytes} (hne : rest ≠ []) :
    List.intercalate [sep] (part :: rest) = part ++ sep :: List.intercalate [sep] rest := by
  rw [intercalate_cons_of_ne_nil hne, append_assoc, singleton_append]

lemma intercalate_concat (sep : UInt8) (hne : parts ≠ []) (last : Bytes) :
    List.intercalate [sep] (parts ++ [last]) = List.intercalate [sep] parts ++ sep :: last := by
  induction parts with
  | nil => exact absurd rfl hne
  | cons part rest ih =>
    by_cases hr : rest = []
    · simp [hr, List.intercalate]
    · rw [cons_append, intercalate_cons sep part (by simp), ih hr, intercalate_cons sep part hr,
        append_assoc, cons_append]

lemma mem_intercalate {b : UInt8} (h : b ∈ List.intercalate [sep] parts) :
    b = sep ∨ ∃ part ∈ parts, b ∈ part := by
  induction parts with
  | nil => exact absurd h (by simp [List.intercalate])
  | cons part rest ih =>
    by_cases hne : rest = []
    · exact .inr ⟨part, mem_cons_self, by simpa [hne, List.intercalate] using h⟩
    rw [intercalate_cons sep part hne] at h
    rcases mem_append.mp h with h | h
    · exact .inr ⟨part, mem_cons_self, h⟩
    · rcases mem_cons.mp h with h | h
      · exact .inl h
      · exact (ih h).imp_right fun ⟨p, hp, hb⟩ => ⟨p, mem_cons_of_mem _ hp, hb⟩

lemma split_intercalate (hne : parts ≠ []) (h : ∀ p ∈ parts, sep ∉ p) :
    split sep (List.intercalate [sep] parts) = parts := by
  induction parts with
  | nil => exact absurd rfl hne
  | cons part rest ih =>
    have hpa := split_of_notMem (h part mem_cons_self)
    cases rest with
    | nil => simpa [List.intercalate] using hpa
    | cons next more =>
      have hr := ih (by simp) fun p hp => h p (mem_cons_of_mem _ hp)
      rw [intercalate_cons sep part (by simp), split_append, hpa, hr]
      rfl

lemma intercalate_split (sep : UInt8) (s : Bytes) : List.intercalate [sep] (split sep s) = s := by
  induction s with
  | nil => rfl
  | cons b rest ih =>
    rw [split]
    by_cases hb : b = sep
    · rw [if_pos hb, intercalate_cons sep [] (split_ne_nil sep rest), ih, hb, nil_append]
    rw [if_neg hb]
    rcases hs : split sep rest with _ | ⟨part, parts⟩
    · exact absurd hs (split_ne_nil sep rest)
    rw [hs] at ih
    rw [← ih]
    cases parts with
    | nil => simp [List.intercalate]
    | cons next more =>
      rw [intercalate_cons sep _ (cons_ne_nil _ _), intercalate_cons sep _ (cons_ne_nil _ _), cons_append]

lemma infix_intercalate (h : part ∈ parts) : part <:+: List.intercalate [sep] parts := by
  induction parts with
  | nil => exact absurd h not_mem_nil
  | cons first rest ih =>
    by_cases hr : rest = []
    · rw [hr, mem_singleton] at h
      simp [hr, h, List.intercalate]
    rw [intercalate_cons sep first hr]
    rcases mem_cons.mp h with rfl | h
    · exact ⟨[], sep :: List.intercalate [sep] rest, rfl⟩
    · obtain ⟨before, after, hi⟩ := ih h
      exact ⟨first ++ sep :: before, after, by simp [← hi]⟩

lemma infix_of_mem_split (h : part ∈ split sep s) : part <:+: s := by
  have hi : part <:+: List.intercalate [sep] (split sep s) := infix_intercalate h
  rwa [intercalate_split] at hi

structure PlainName (name : Bytes) : Prop where
  ne_nil : name ≠ []
  noSlash : slash ∉ name
  ne_dot : name ≠ ascii "."
  ne_dotDot : name ≠ ascii ".."

instance (name : Bytes) : Decidable (PlainName name) :=
  decidable_of_iff (name ≠ [] ∧ slash ∉ name ∧ name ≠ ascii "." ∧ name ≠ ascii "..")
    ⟨fun ⟨hne, hslash, hdot, hdots⟩ => ⟨hne, hslash, hdot, hdots⟩,
      fun ⟨hne, hslash, hdot, hdots⟩ => ⟨hne, hslash, hdot, hdots⟩⟩

lemma PlainName.append {tail : Bytes} (h : PlainName name) (hs : slash ∉ tail) (hl : 2 ≤ tail.length) :
    PlainName (name ++ tail) := by
  have hlo : 3 ≤ (name ++ tail).length := by
    have hn := length_pos_iff.mpr h.ne_nil
    rw [length_append]
    omega
  refine ⟨?_, fun hm => (mem_append.mp hm).elim h.noSlash hs, ?_, ?_⟩
  all_goals
    intro heq
    rw [heq] at hlo
    revert hlo
    decide

structure Normal (rooted : Bool) (parts : List Bytes) : Prop where
  shape : ∃ ups names, parts = List.replicate ups (ascii "..") ++ names ∧ (rooted = true → ups = 0) ∧
    ∀ n ∈ names, PlainName n

lemma Normal.nil (rooted : Bool) : Normal rooted [] := ⟨0, [], rfl, fun _ => rfl, nofun⟩

lemma Normal.append (h : Normal rooted parts)
    (hna : ∀ n ∈ names, PlainName n) : Normal rooted (parts ++ names) := by
  obtain ⟨ups, before, rfl, hu, hb⟩ := h.shape
  refine ⟨ups, before ++ names, append_assoc _ _ _, hu, fun n hn => ?_⟩
  exact (mem_append.mp hn).elim (hb n) (hna n)

lemma Normal.mem (h : Normal rooted parts) : ∀ p ∈ parts, p ≠ [] ∧ slash ∉ p := by
  obtain ⟨ups, names, rfl, -, hn⟩ := h.shape
  intro p hp
  rcases mem_append.mp hp with hp | hp
  · obtain rfl := eq_of_mem_replicate hp
    decide
  · exact ⟨(hn p hp).ne_nil, (hn p hp).noSlash⟩

lemma pushComponent_normal {stack : List Bytes} (h : Normal rooted stack.reverse)
    (hs : slash ∉ part) : Normal rooted (pushComponent rooted stack part).reverse := by
  unfold pushComponent
  by_cases hsk : part = [] ∨ part = ascii "."
  · rwa [if_pos hsk]
  rw [if_neg hsk]
  by_cases hup : part = ascii ".."
  · rw [if_pos hup]
    obtain ⟨ups, names, hst, hu, hna⟩ := h.shape
    rcases stack with _ | ⟨top, rest⟩
    · cases rooted with
      | true => exact .nil true
      | false => exact ⟨1, [], by simp [hup], nofun, nofun⟩
    dsimp only
    rw [reverse_cons] at hst
    rcases names.eq_nil_or_concat with rfl | ⟨init, last, rfl⟩
    · -- only dot-dots below, so the path is relative and one more is kept
      rw [append_nil] at hst
      have ht := eq_of_mem_replicate (hst ▸ mem_append_right _ mem_cons_self)
      have hrel : rooted ≠ true := by
        intro hr
        rw [hu hr] at hst
        simp at hst
      rw [if_pos ht]
      refine ⟨ups + 1, [], ?_, fun hr => absurd hr hrel, nofun⟩
      rw [reverse_cons, reverse_cons, hst, append_nil, hup, replicate_succ']
    · rw [concat_eq_append, ← append_assoc] at hst
      obtain ⟨hre, ht⟩ := append_inj' hst rfl
      obtain rfl := singleton_inj.mp ht
      rw [if_neg (hna top (by simp)).ne_dotDot, hre]
      exact ⟨ups, init, rfl, hu, fun n hn => hna n (by simp [hn])⟩
  · rw [if_neg hup, reverse_cons]
    refine h.append fun n hn => ?_
    obtain rfl := mem_singleton.mp hn
    exact ⟨fun hnil => hsk (.inl hnil), hs, fun hd => hsk (.inr hd), hup⟩

lemma components_normal (path : Bytes) : Normal (isAbs path) (components path) := by
  have hf : ∀ (parts stack : List Bytes), (∀ p ∈ parts, slash ∉ p) → Normal (isAbs path) stack.reverse →
      Normal (isAbs path) (parts.foldl (pushComponent (isAbs path)) stack).reverse := by
    intro parts
    induction parts with
    | nil => exact fun _ _ h => h
    | cons part rest ih =>
      intro stack hs h
      exact ih _ (fun p hp => hs p (mem_cons_of_mem _ hp))
        (pushComponent_normal h (hs part mem_cons_self))
  exact hf _ [] (fun p hp => notMem_of_mem_split hp) (.nil _)

lemma foldl_pushComponent_plain (h : ∀ n ∈ names, PlainName n)
    (stack : List Bytes) : names.foldl (pushComponent rooted) stack = names.reverse ++ stack := by
  induction names generalizing stack with
  | nil => rfl
  | cons name rest ih =>
    have hna := h name mem_cons_self
    have hp : pushComponent rooted stack name = name :: stack := by
      simp [pushComponent, hna.ne_nil, hna.ne_dot, hna.ne_dotDot]
    rw [foldl_cons, hp, ih fun n hn => h n (mem_cons_of_mem _ hn), reverse_cons,
      append_assoc, singleton_append]

lemma foldl_pushComponent_ups (ups : Nat) :
    (List.replicate ups (ascii "..")).foldl (pushComponent false) [] = List.replicate ups (ascii "..") := by
  induction ups with
  | zero => rfl
  | succ ups ih =>
    rw [replicate_succ', foldl_append, ih, ← replicate_succ', foldl_cons, foldl_nil]
    cases ups <;> simp [pushComponent, ascii, replicate_succ]

lemma Normal.foldl (h : Normal rooted parts) : parts.foldl (pushComponent rooted) [] = parts.reverse := by
  obtain ⟨ups, names, rfl, hu, hn⟩ := h.shape
  rw [foldl_append, foldl_pushComponent_plain hn, reverse_append, reverse_replicate]
  congr 1
  cases rooted with
  | true => rw [hu rfl]; rfl
  | false => exact foldl_pushComponent_ups ups

lemma Normal.isAbs_renderPath (h : Normal rooted parts) : isAbs (renderPath rooted parts) = rooted := by
  rcases rooted with _ | _
  · rcases parts with _ | ⟨part, rest⟩
    · rfl
    obtain ⟨hne, hs⟩ := h.mem part mem_cons_self
    obtain ⟨b, tail, rfl⟩ := exists_cons_of_ne_nil hne
    have hb : b ≠ slash := fun hb => hs (hb ▸ mem_cons_self)
    cases rest <;> simp [renderPath, isAbs, List.intercalate, hb]
  · rfl

lemma Normal.components_renderPath (h : Normal rooted parts) :
    components (renderPath rooted parts) = parts := by
  rw [components, h.isAbs_renderPath]
  rcases parts with _ | ⟨part, rest⟩
  · cases rooted <;> rfl
  have hs := split_intercalate (cons_ne_nil _ _) fun p hp => (h.mem p hp).2
  rcases rooted with _ | _
  · rw [renderPath, if_neg Bool.false_ne_true, if_neg (cons_ne_nil _ _), hs, h.foldl, reverse_reverse]
  · rw [renderPath, if_pos rfl, split, if_pos rfl, hs, foldl_cons]
    exact congrArg List.reverse h.foldl |>.trans (reverse_reverse _)

lemma Normal.cleanPath_renderPath (h : Normal rooted parts) :
    cleanPath (renderPath rooted parts) = renderPath rooted parts := by
  rw [cleanPath, h.isAbs_renderPath, h.components_renderPath]

lemma cleanPath_inj {path : Bytes} :
    cleanPath path = cleanPath other ↔ isAbs path = isAbs other ∧ components path = components other := by
  refine ⟨fun h => ?_, fun ⟨ha, hp⟩ => by rw [cleanPath, cleanPath, ha, hp]⟩
  have ha := congrArg isAbs h
  have hp := congrArg components h
  rw [cleanPath, cleanPath, (components_normal path).isAbs_renderPath, (components_normal other).isAbs_renderPath] at ha
  rw [cleanPath, cleanPath, (components_normal path).components_renderPath,
    (components_normal other).components_renderPath] at hp
  exact ⟨ha, hp⟩

lemma renderPath_concat (rooted : Bool) (hne : parts ≠ []) (name : Bytes) :
    renderPath rooted (parts ++ [name]) = renderPath rooted parts ++ slash :: name := by
  have hj := intercalate_concat slash hne name
  cases rooted <;> simp [renderPath, hj, hne]

lemma cleanPath_ne_nil (path : Bytes) : cleanPath path ≠ [] := by
  unfold cleanPath renderPath
  rcases isAbs path with _ | _
  · cases hp : components path with
    | nil => simp [ascii]
    | cons part rest =>
      have hpa := ((components_normal path).mem part (hp ▸ mem_cons_self)).1
      cases rest <;> simp [List.intercalate, hpa]
  · simp

lemma hasPrefix_child (hn : PlainName name) :
    hasPrefix (renderPath rooted parts ++ [slash]) (renderPath rooted (parts ++ [name]) ++ [slash]) =
      decide (parts ≠ []) := by
  obtain ⟨b, rest, rfl⟩ := exists_cons_of_ne_nil hn.ne_nil
  have hb : b ≠ slash := fun hb => hn.noSlash (hb ▸ mem_cons_self)
  rcases parts with _ | ⟨part, more⟩
  · rw [nil_append, decide_eq_false (by simp)]
    rcases rooted with _ | _
    · rcases rest with _ | ⟨c, more⟩
      · have hd : (46 : UInt8) ≠ b := fun hd => hn.ne_dot (by rw [← hd]; rfl)
        show List.isPrefixOf [46, slash] [b, slash] = false
        simp [isPrefixOf_cons_cons, beq_false_of_ne hd]
      · have hc : slash ≠ c := fun hc => hn.noSlash (by simp [hc])
        show List.isPrefixOf [46, slash] (b :: c :: (more ++ [slash])) = false
        simp [isPrefixOf_cons_cons, beq_false_of_ne hc]
    · show List.isPrefixOf [slash, slash] (slash :: b :: (rest ++ [slash])) = false
      simp [isPrefixOf_cons_cons, beq_false_of_ne hb.symm]
  · rw [renderPath_concat rooted (cons_ne_nil part more), decide_eq_true (by simp), hasPrefix,
      isPrefixOf_iff_prefix]
    exact ⟨b :: rest ++ [slash], by simp⟩

lemma hasPrefix_below (hne : names ≠ []) (h : ∀ n ∈ names, PlainName n) :
    hasPrefix (renderPath rooted parts ++ [slash]) (renderPath rooted (parts ++ names) ++ [slash]) =
      decide (parts ≠ []) := by
  induction names using reverseRecOn with
  | nil => exact absurd rfl hne
  | append_singleton names last ih =>
    have hl := h last (by simp)
    rcases names.eq_nil_or_concat with rfl | ⟨init, name, hna⟩
    · exact hasPrefix_child hl
    have hn : names ≠ [] := by simp [hna]
    have hi := ih hn fun n hm => h n (by simp [hm])
    have hc : (renderPath rooted (parts ++ names) ++ [slash]) <+:
        renderPath rooted (parts ++ (names ++ [last])) ++ [slash] := by
      rw [← append_assoc, renderPath_concat rooted (by simp [hn])]
      exact ⟨last ++ [slash], by simp⟩
    by_cases hp : parts = []
    · -- both bytes that are compared are already those of the shorter path
      rw [decide_eq_false (by simp [hp])] at hi ⊢
      refine Bool.eq_false_iff.mpr fun hpre => Bool.eq_false_iff.mp hi ?_
      have hpl : ∀ n ∈ names, PlainName n := fun n hm => h n (by simp [hm])
      have hr : renderPath rooted names ≠ [] := by
        rw [← nil_append names, ← ((Normal.nil rooted).append hpl).cleanPath_renderPath]
        exact cleanPath_ne_nil _
      have hlen : (renderPath rooted parts ++ [slash]).length ≤
          (renderPath rooted (parts ++ names) ++ [slash]).length := by
        have hone : (renderPath rooted []).length = 1 := by cases rooted <;> rfl
        rw [hp, length_append, length_append, hone, nil_append]
        exact Nat.add_le_add_right (length_pos_iff.mpr hr) _
      have hpr := isPrefixOf_iff_prefix.mp hpre
      exact isPrefixOf_iff_prefix.mpr (prefix_of_prefix_length_le hpr hc hlen)
    · rw [decide_eq_true hp] at hi ⊢
      have hpr := isPrefixOf_iff_prefix.mp hi
      exact isPrefixOf_iff_prefix.mpr (hpr.trans hc)

lemma joinPath_ne_nil {elems : List Bytes} {elem : Bytes} (hm : elem ∈ elems) (hne : elem ≠ []) :
    joinPath elems ≠ [] := by
  unfold joinPath
  cases hr : elems.dropWhile (· = []) with
  | nil => exact absurd (by simpa using dropWhile_eq_nil_iff.mp hr elem hm) hne
  | cons first rest => exact cleanPath_ne_nil _

lemma cleanPath_joinPath (elems : List Bytes) (hne : joinPath elems ≠ []) :
    cleanPath (joinPath elems) = joinPath elems := by
  unfold joinPath at hne ⊢
  cases hr : elems.dropWhile (· = []) with
  | nil => exact absurd (by rw [hr]) hne
  | cons first rest => exact (components_normal _).cleanPath_renderPath

lemma joinPath_names (hne : names ≠ []) (h : ∀ n ∈ names, PlainName n) :
    joinPath (base :: names) = renderPath (isAbs base) (components base ++ names) := by
  have hs := split_intercalate hne fun n hn => (h n hn).noSlash
  rcases base with _ | ⟨b, tail⟩
  · obtain ⟨name, rest, rfl⟩ := exists_cons_of_ne_nil hne
    obtain ⟨b, tail, hna⟩ := exists_cons_of_ne_nil (h name mem_cons_self).ne_nil
    have hb : b ≠ slash := fun hb => (h name mem_cons_self).noSlash (by simp [hna, hb])
    have ha : isAbs (List.intercalate [slash] (name :: rest)) = false := by
      cases rest <;> simp [List.intercalate, isAbs, hna, hb]
    have hd : ([] :: name :: rest).dropWhile (· = []) = name :: rest := by simp [hna]
    rw [joinPath, hd]
    simp only [cleanPath, components, ha, hs, foldl_pushComponent_plain h]
    simp [isAbs, split, pushComponent]
  · have hd : ((b :: tail) :: names).dropWhile (· = []) = (b :: tail) :: names := by simp
    have ha : isAbs ((b :: tail) ++ slash :: List.intercalate [slash] names) = isAbs (b :: tail) := rfl
    rw [joinPath, hd]
    simp only [cleanPath, components, intercalate_cons slash _ hne, ha, split_append, hs, foldl_append,
      foldl_pushComponent_plain h, reverse_append, reverse_reverse]

lemma joinPath_concat (hne : names ≠ []) (h : ∀ n ∈ names, PlainName n)
    (hna : PlainName name) : joinPath (base :: (names ++ [name])) = joinPath (base :: names) ++ slash :: name := by
  have ha : ∀ n ∈ names ++ [name], PlainName n := by
    intro n hn
    rcases mem_append.mp hn with hn | hn
    · exact h n hn
    · obtain rfl := mem_singleton.mp hn
      exact hna
  rw [joinPath_names (by simp) ha, joinPath_names hne h, ← append_assoc,
    renderPath_concat _ (by simp [hne])]

lemma isAbs_joinPath (hne : names ≠ []) (h : ∀ n ∈ names, PlainName n) :
    isAbs (joinPath (base :: names)) = isAbs base := by
  rw [joinPath_names hne h]
  exact ((components_normal base).append h).isAbs_renderPath

lemma components_joinPath (hne : names ≠ []) (h : ∀ n ∈ names, PlainName n) :
    components (joinPath (base :: names)) = components base ++ names := by
  rw [joinPath_names hne h]
  exact ((components_normal base).append h).components_renderPath

lemma joinPath_base_iff (hne : names ≠ []) (h : ∀ n ∈ names, PlainName n) :
    joinPath (base :: names) = joinPath (other :: names) ↔ cleanPath base = cleanPath other := by
  rw [cleanPath_inj]
  constructor
  · intro heq
    have ha := congrArg isAbs heq
    have hp := congrArg components heq
    rw [isAbs_joinPath hne h, isAbs_joinPath hne h] at ha
    rw [components_joinPath hne h, components_joinPath hne h] at hp
    exact ⟨ha, append_cancel_right hp⟩
  · rintro ⟨ha, hp⟩
    rw [joinPath_names hne h, joinPath_names hne h, ha, hp]

lemma joinPath_joinPath {more : List Bytes} (hne : names ≠ []) (hm : more ≠ [])
    (h : ∀ n ∈ names, PlainName n) (h' : ∀ n ∈ more, PlainName n) :
    joinPath (joinPath (base :: names) :: more) = joinPath (base :: (names ++ more)) := by
  have ha : ∀ n ∈ names ++ more, PlainName n := fun n hn => (mem_append.mp hn).elim (h n) (h' n)
  rw [joinPath_names hm h', joinPath_names (by simp [hne]) ha, isAbs_joinPath hne h, components_joinPath hne h,
    append_assoc]

lemma joinPath_names_inj {others : List Bytes} (hne : names ≠ []) (hne' : others ≠ [])
    (h : ∀ n ∈ names, PlainName n) (h' : ∀ n ∈ others, PlainName n)
    (heq : joinPath (base :: names) = joinPath (base :: others)) : names = others := by
  have hp := congrArg components heq
  rw [components_joinPath hne h, components_joinPath hne' h'] at hp
  exact append_cancel_left hp

end Maildancer.Text

namespace Maildancer

-- os.ReadFile and os.Open, as far as callers tell errors apart.
inductive ReadResult
  | content (data : Text.Bytes)
  | notExist
  | failed

end Maildancer

import Mathlib.Data.List.Nodup

namespace Maildancer

open List

-- Items of work, each of which covers what it may still hand out. Nothing is
-- covered twice, and nothing that has been handed out is covered.
structure WorkList {ι α : Type*} (covers : ι → α → Prop) (todo : List ι) (handed : List α) : Prop where
  once : handed.Nodup
  apart : todo.Pairwise fun i j => ∀ a, covers i a → ¬covers j a
  fresh : ∀ i ∈ todo, ∀ a ∈ handed, ¬covers i a

-- An item is replaced by others that share out what it covers, apart from what it hands out itself.
structure Splits {ι α : Type*} (covers : ι → α → Prop) (i : ι) (more : List ι) (out : List α) : Prop where
  within : ∀ j ∈ more, ∀ a, covers j a → covers i a
  apart : more.Pairwise fun i j => ∀ a, covers i a → ¬covers j a
  covered : ∀ a ∈ out, covers i a
  once : out.Nodup
  fresh : ∀ j ∈ more, ∀ a ∈ out, ¬covers j a

variable {ι α : Type*} {covers : ι → α → Prop} {i j : ι} {todo rest more : List ι} {handed out : List α}

namespace Splits

lemma handOut (hc : ∀ a ∈ out, covers i a) (ho : out.Nodup) (h : ∀ j ∈ more, ∀ a, ¬covers j a) :
    Splits covers i more out where
  within j hj a ha := absurd ha (h j hj a)
  apart := pairwise_of_forall_mem_list fun _ _ j hj a _ => h j hj a
  covered := hc
  once := ho
  fresh j hj a _ := h j hj a

lemma idle (h : ∀ j ∈ more, ∀ a, ¬covers j a) : Splits covers i more [] :=
  handOut (fun _ ha => absurd ha not_mem_nil) nodup_nil h

lemma single (h : ∀ a, covers j a → covers i a) : Splits covers i [j] [] where
  within _ hk a ha := h a (mem_singleton.mp hk ▸ ha)
  apart := pairwise_singleton _ _
  covered _ ha := absurd ha not_mem_nil
  once := nodup_nil
  fresh _ _ _ ha := absurd ha not_mem_nil

lemma map {κ : Type*} {keys : List κ} {item : κ → ι} (hw : ∀ k ∈ keys, ∀ a, covers (item k) a → covers i a)
    (hap : keys.Pairwise fun k l => ∀ a, covers (item k) a → ¬covers (item l) a) :
    Splits covers i (keys.map item) [] where
  within j hj a ha := by
    obtain ⟨k, hk, rfl⟩ := mem_map.mp hj
    exact hw k hk a ha
  apart := pairwise_map.mpr hap
  covered _ ha := absurd ha not_mem_nil
  once := nodup_nil
  fresh _ _ _ ha := absurd ha not_mem_nil

lemma mapKeys {κ : Type*} {keys : List κ} {item : κ → ι} (key : α → κ) (hke : keys.Nodup)
    (hw : ∀ k ∈ keys, ∀ a, covers (item k) a → covers i a)
    (hkey : ∀ k ∈ keys, ∀ a, covers (item k) a → key a = k) : Splits covers i (keys.map item) [] := by
  refine .map hw (hke.imp_of_mem fun {k l} hk hl hne a hka hla => hne ?_)
  exact (hkey k hk a hka).symm.trans (hkey l hl a hla)

lemma union {others : List ι} (h : Splits covers i more []) (h' : Splits covers i others [])
    (hap : ∀ j ∈ more, ∀ k ∈ others, ∀ a, covers j a → ¬covers k a) : Splits covers i (more ++ others) [] where
  within j hj := (mem_append.mp hj).elim (h.within j) (h'.within j)
  apart := pairwise_append.mpr ⟨h.apart, h'.apart, hap⟩
  covered _ ha := absurd ha not_mem_nil
  once := nodup_nil
  fresh _ _ _ ha := absurd ha not_mem_nil

end Splits

namespace WorkList

lemma step (h : WorkList covers (i :: rest) handed) (hs : Splits covers i more out) :
    WorkList covers (more ++ rest) (handed ++ out) := by
  obtain ⟨hf, hr⟩ := pairwise_cons.mp h.apart
  refine ⟨?_, ?_, ?_⟩
  · exact List.Nodup.append h.once hs.once fun a ha ho => h.fresh i mem_cons_self a ha (hs.covered a ho)
  · exact pairwise_append.mpr ⟨hs.apart, hr, fun j hj k hk a ha => hf k hk a (hs.within j hj a ha)⟩
  intro j hj a ha
  rcases mem_append.mp hj with hj | hj <;> rcases mem_append.mp ha with ha | ha
  · exact fun hc => h.fresh i mem_cons_self a ha (hs.within j hj a hc)
  · exact hs.fresh j hj a ha
  · exact h.fresh j (mem_cons_of_mem _ hj) a ha
  · exact hf j hj a (hs.covered a ha)

lemma stop (h : WorkList covers todo handed) : WorkList covers ([] : List ι) handed :=
  ⟨h.once, List.Pairwise.nil, fun _ hi => absurd hi not_mem_nil⟩

lemma start (i : ι) : WorkList covers [i] ([] : List α) :=
  ⟨nodup_nil, pairwise_singleton _ _, fun _ _ _ ha => absurd ha not_mem_nil⟩

end WorkList

end Maildancer

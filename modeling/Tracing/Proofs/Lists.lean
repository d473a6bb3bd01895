import Mathlib.Data.List.Forall2
import Mathlib.Data.List.Induction

/-! # Lists and rows

Facts about lists and arrays that the proofs on processors, agents and headers share. A list of pairs whose keys are
distinct is a table: looking up a key finds just the value that stands beside it, wherever in the list that is. -/

namespace Tracing

/-! ### Tables -/

section Tables
variable {α β : Type} [BEq α] [LawfulBEq α] {l l' : List (α × β)}

theorem lookup_eq_some_iff_mem (h : (l.map Prod.fst).Nodup) {key : α} {value : β} :
    l.lookup key = some value ↔ (key, value) ∈ l := by
  rw [List.lookup_eq_some_iff]
  constructor
  · rintro ⟨before, rest, rfl, -⟩
    simp
  · intro hmem
    obtain ⟨before, rest, rfl⟩ := List.append_of_mem hmem
    refine ⟨before, rest, rfl, fun other hother => ?_⟩
    rw [List.map_append, List.nodup_append] at h
    exact bne_iff_ne.mpr (h.2.2 other.1 (List.mem_map_of_mem hother) key (by simp)).symm

theorem lookup_isSome_iff_mem {key : α} : (l.lookup key).isSome = true ↔ key ∈ l.map Prod.fst := by
  constructor
  · intro h
    obtain ⟨value, hvalue⟩ := Option.isSome_iff_exists.mp h
    obtain ⟨before, rest, rfl, -⟩ := List.lookup_eq_some_iff.mp hvalue
    simp
  · intro h
    obtain ⟨entry, hentry, rfl⟩ := List.mem_map.mp h
    cases hlookup : l.lookup entry.1 with
    | some => rfl
    | none => exact absurd rfl (bne_iff_ne.mp (List.lookup_eq_none_iff.mp hlookup entry hentry))

/-- The order of the pairs does not matter. -/
theorem lookup_perm (h : (l.map Prod.fst).Nodup) (hperm : l.Perm l') (key : α) : l.lookup key = l'.lookup key := by
  have h' : (l'.map Prod.fst).Nodup := (hperm.map Prod.fst).nodup_iff.mp h
  refine Option.ext fun value => ?_
  rw [lookup_eq_some_iff_mem h, lookup_eq_some_iff_mem h', hperm.mem_iff]

end Tables

/-! ### One more element -/

theorem filterMap_concat {ε α : Type} (select : ε → Option α) (edits : List ε) (e : ε) :
    (edits ++ [e]).filterMap select = edits.filterMap select ++ (select e).toList := by
  rw [List.filterMap_append]
  cases h : select e <;> simp [h]

theorem eraseDups_concat {α : Type} [DecidableEq α] (l : List α) (a : α) :
    (l ++ [a]).eraseDups = if a ∈ l then l.eraseDups else l.eraseDups ++ [a] := by
  rw [List.eraseDups_append]
  by_cases h : a ∈ l <;> simp [List.removeAll, h, List.eraseDups_cons]

theorem nodup_eraseDups {α : Type} [DecidableEq α] (l : List α) : l.eraseDups.Nodup := by
  induction l using List.reverseRecOn with
  | nil => exact List.nodup_nil
  | append_singleton l a ih =>
    rw [eraseDups_concat]
    split
    · exact ih
    · rename_i ha
      have hdisjoint : ∀ b ∈ l.eraseDups, ∀ c ∈ [a], b ≠ c := by
        intro b hb c hc hbc
        rw [List.mem_singleton.mp hc] at hbc
        exact ha (hbc ▸ List.mem_eraseDups.mp hb)
      exact List.nodup_append.mpr ⟨ih, List.nodup_cons.mpr ⟨List.not_mem_nil, List.nodup_nil⟩, hdisjoint⟩

/-! ### A changed element -/

theorem forall₂_modify {α β : Type} {R : α → β → Prop} {as : List α} {bs : List β} (h : List.Forall₂ R as bs)
    {f : β → β} (hf : ∀ a b, R a b → R a (f b)) (place : Nat) : List.Forall₂ R as (bs.modify place f) := by
  induction h generalizing place with
  | nil =>
    rw [List.modify_nil]
    exact .nil
  | cons hab htail ih =>
    cases place with
    | zero => exact .cons (hf _ _ hab) htail
    | succ place => exact .cons hab (ih place)

theorem mem_modify {α : Type} {l : List α} {f : α → α} {place : Nat} {b : α} (h : b ∈ l.modify place f) :
    ∃ a ∈ l, b = a ∨ b = f a := by
  obtain ⟨k, hk⟩ := List.mem_iff_getElem?.mp h
  rw [List.getElem?_modify] at hk
  obtain ⟨a, ha, rfl⟩ := Option.map_eq_some_iff.mp hk
  refine ⟨a, List.mem_iff_getElem?.mpr ⟨k, ha⟩, ?_⟩
  split
  · exact .inr rfl
  · exact .inl rfl

/-! ### Rows -/

theorem getD_setIfInBounds {α : Type} (rows : Array α) (i j : Nat) (x d : α) :
    (rows.setIfInBounds i x).getD j d = if j = i ∧ i < rows.size then x else rows.getD j d := by
  simp only [Array.getD_eq_getD_getElem?, Array.getElem?_setIfInBounds]
  by_cases hji : j = i
  · subst hji
    by_cases hlt : j < rows.size
    · simp [hlt]
    · simp [hlt]
  · simp [hji, Ne.symm hji]

/-- Writing what is there changes nothing. -/
theorem setIfInBounds_getD {α : Type} (rows : Array α) (i : Nat) (d : α) :
    rows.setIfInBounds i (rows.getD i d) = rows := by
  refine Array.ext_getElem? fun j => ?_
  rw [Array.getElem?_setIfInBounds]
  by_cases hji : i = j
  · subst hji
    by_cases hlt : i < rows.size
    · simp [hlt]
    · simp [hlt]
  · rw [if_neg hji]

theorem getD_push {α : Type} (rows : Array α) (i : Nat) (x d : α) :
    (rows.push x).getD i d = if i = rows.size then x else rows.getD i d := by
  simp only [Array.getD_eq_getD_getElem?, Array.getElem?_push]
  split <;> rfl

end Tracing

import Mathlib.Logic.Function.Basic
import Mathlib.Tactic.Common

set_option autoImplicit false

/-! # Forests kept as links to parents

Nodes are stored under keys, and a node may name the key of its parent. Such a store is a forest
(`IsForest`) if every parent is there and may have the child, and if following parents comes to an
end from every key. Storing one more node keeps a forest exactly if the node's own parent is fine,
lies not below the node, and the node's children still fit (`isForest_update_iff`). -/

namespace Forest

variable {ι ν : Type}

/-! ## Following parents -/

section Parents

/-- The `n`-th ancestor. -/
def ancestor (parent : ι → Option ι) : Nat → ι → Option ι
  | 0, i => some i
  | n + 1, i => (parent i).bind (ancestor parent n)

/-- Following parents from `i` comes to an end. -/
def Ends (parent : ι → Option ι) (i : ι) : Prop := ∃ n, ancestor parent n i = none

/-- `j` is `i` or one of its ancestors. -/
def Above (parent : ι → Option ι) (j i : ι) : Prop := ∃ n, ancestor parent n i = some j

variable {parent : ι → Option ι} {i j k : ι}

theorem ends_of_root (h : parent i = none) : Ends parent i := ⟨1, by simp [ancestor, h]⟩

theorem ends_iff (h : parent i = some j) : Ends parent i ↔ Ends parent j := by
  constructor
  · rintro ⟨n, hn⟩
    cases n with
    | zero => cases hn
    | succ n => exact ⟨n, by simpa [ancestor, h] using hn⟩
  · rintro ⟨n, hn⟩
    exact ⟨n + 1, by simpa [ancestor, h] using hn⟩

/-- Induction from the roots downwards. -/
theorem Ends.induction {P : ι → Prop} (hroot : ∀ i, parent i = none → P i)
    (hchild : ∀ i j, parent i = some j → P j → P i) (h : Ends parent i) : P i := by
  obtain ⟨n, hn⟩ := h
  induction n generalizing i with
  | zero => cases hn
  | succ n ih =>
    cases hparent : parent i with
    | none => exact hroot i hparent
    | some j => exact hchild i j hparent (ih (by simpa [ancestor, hparent] using hn))

/-- From a key in a set in which everybody has a parent, there is no end. -/
theorem not_ends {S : ι → Prop} (hS : ∀ i, S i → ∃ j, parent i = some j ∧ S j) (h : S i) :
    ¬ Ends parent i := by
  intro hends
  refine hends.induction (P := fun i => ¬ S i) (fun i hroot hi => ?_)
    (fun i j hparent hj hi => ?_) h
  · obtain ⟨j, hj, -⟩ := hS i hi
    rw [hroot] at hj
    cases hj
  · obtain ⟨j', hj', hSj⟩ := hS i hi
    rw [hparent] at hj'
    cases hj'
    exact hj hSj

theorem Above.refl (i : ι) : Above parent i i := ⟨0, rfl⟩

theorem Above.child (h : Above parent k j) (hparent : parent i = some j) : Above parent k i := by
  obtain ⟨n, hn⟩ := h
  exact ⟨n + 1, by simpa [ancestor, hparent] using hn⟩

/-- An ancestor is the key itself, or an ancestor of its parent. -/
theorem Above.cases_head (h : Above parent k i) :
    i = k ∨ ∃ j, parent i = some j ∧ Above parent k j := by
  obtain ⟨n, hn⟩ := h
  cases n with
  | zero => exact Or.inl (Option.some.inj hn)
  | succ n =>
    obtain ⟨j, hj, hn⟩ := Option.bind_eq_some_iff.1 hn
    exact Or.inr ⟨j, hj, n, hn⟩

/-- An ancestor is the key itself, or somebody's parent. -/
theorem Above.cases_last (h : Above parent k i) : i = k ∨ ∃ j, parent j = some k := by
  obtain ⟨n, hn⟩ := h
  induction n generalizing i with
  | zero => exact Or.inl (Option.some.inj hn)
  | succ n ih =>
    obtain ⟨j, hj, hn⟩ := Option.bind_eq_some_iff.1 hn
    rcases ih hn with rfl | h
    · exact Or.inr ⟨i, hj⟩
    · exact Or.inr h

variable [DecidableEq ι]

/-- **Relinking a key** keeps all ends exactly if the new parent does not lie below the key. -/
theorem ends_update_iff (h : ∀ i, Ends parent i) {i : ι} {q : Option ι} :
    (∀ j, Ends (Function.update parent i q) j) ↔ ∀ p, q = some p → ¬ Above parent i p := by
  constructor
  · rintro hends p rfl hp
    -- who has `i` above in the old store has a parent of this kind in the new one
    refine not_ends (S := Above parent i) (fun j hj => ?_) hp (hends p)
    by_cases hji : j = i
    · subst hji
      exact ⟨p, by simp, hp⟩
    · rcases hj.cases_head with hj | ⟨k, hk, hj⟩
      · exact absurd hj hji
      · exact ⟨k, by simp [hji, hk], hj⟩
  · intro hq
    -- the keys below `i` end if `i` does, the others as before
    have hother : ∀ j, ¬ Above parent i j → Ends (Function.update parent i q) j := by
      intro j
      refine (h j).induction (P := fun j => ¬ Above parent i j → _) (fun j hroot hj => ?_)
        (fun j k hparent ih hj => ?_)
      · have hji : j ≠ i := fun he => hj (he ▸ .refl _)
        exact ends_of_root (by simp [hji, hroot])
      · have hji : j ≠ i := fun he => hj (he ▸ .refl _)
        exact (ends_iff (by simp [hji, hparent])).2 (ih fun hk => hj (hk.child hparent))
    have hi : Ends (Function.update parent i q) i := by
      cases q with
      | none => exact ends_of_root (by simp)
      | some p => exact (ends_iff (by simp)).2 (hother p (hq p rfl))
    intro j
    refine (h j).induction (fun j hroot => ?_) (fun j k hparent ih => ?_)
    · by_cases hji : j = i
      · exact hji ▸ hi
      · exact ends_of_root (by simp [hji, hroot])
    · by_cases hji : j = i
      · exact hji ▸ hi
      · exact (ends_iff (by simp [hji, hparent])).2 ih

end Parents

/-! ## Stores of nodes -/

section Stores

/-- The parent of a key. -/
def parentIn (up : ν → Option ι) (nodes : ι → Option ν) (i : ι) : Option ι := (nodes i).bind up

/-- Every parent is stored and may have the child, and there are no cycles. -/
structure IsForest (up : ν → Option ι) (Under : ν → ν → Prop) (nodes : ι → Option ν) : Prop where
  under : ∀ i n p, nodes i = some n → up n = some p → ∃ m, nodes p = some m ∧ Under n m
  ends : ∀ i, Ends (parentIn up nodes) i

variable {up : ν → Option ι} {Under : ν → ν → Prop} {nodes : ι → Option ν} {i : ι} {n : ν}

theorem parentIn_eq_some {p : ι} :
    parentIn up nodes i = some p ↔ ∃ n, nodes i = some n ∧ up n = some p :=
  Option.bind_eq_some_iff

variable [DecidableEq ι]

theorem parentIn_update :
    parentIn up (Function.update nodes i (some n)) =
      Function.update (parentIn up nodes) i (up n) := by
  funext j
  by_cases hj : j = i
  · subst hj
    simp [parentIn]
  · simp [parentIn, hj]

/-- **Storing a node** keeps a forest exactly if the node's parent is fine and not below the node,
    and the node may have the children that are there. -/
theorem isForest_update_iff (h : IsForest up Under nodes) :
    IsForest up Under (Function.update nodes i (some n)) ↔
      (∀ p, up n = some p →
        (∃ m, nodes p = some m ∧ Under n m) ∧ ¬ Above (parentIn up nodes) i p) ∧
      ∀ j m, j ≠ i → nodes j = some m → up m = some i → Under m n := by
  constructor
  · rintro ⟨hunder, hends⟩
    rw [parentIn_update, ends_update_iff h.ends] at hends
    refine ⟨fun p hp => ?_, fun j m hji hj hm => ?_⟩
    · have hpi : p ≠ i := fun he => hends p hp (he ▸ .refl _)
      obtain ⟨m, hm, hn⟩ := hunder i n p (by simp) hp
      exact ⟨⟨m, by simpa [hpi] using hm, hn⟩, hends p hp⟩
    · obtain ⟨m', hm', hu⟩ := hunder j m i (by simpa [hji] using hj) hm
      rw [Function.update_self] at hm'
      cases hm'
      exact hu
  · rintro ⟨hnew, hchildren⟩
    refine ⟨fun j m p hj hp => ?_, ?_⟩
    · by_cases hji : j = i
      · subst hji
        rw [Function.update_self] at hj
        cases hj
        obtain ⟨⟨m', hm', hu⟩, habove⟩ := hnew p hp
        have hpj : p ≠ j := fun he => habove (he ▸ .refl _)
        exact ⟨m', by simp [hpj, hm'], hu⟩
      · rw [Function.update_of_ne hji] at hj
        by_cases hpi : p = i
        · subst hpi
          exact ⟨n, by simp, hchildren j m hji hj hp⟩
        · obtain ⟨m', hm', hu⟩ := h.under j m p hj hp
          exact ⟨m', by simp [hpi, hm'], hu⟩
    · rw [parentIn_update, ends_update_iff h.ends]
      exact fun p hp => (hnew p hp).2

/-- Under a key that is not stored, or whose node has no children by its kind, only the new parent
    matters. -/
theorem isForest_update_leaf_iff (h : IsForest up Under nodes)
    (hleaf : ∀ m, nodes i = some m → ∀ k, ¬ Under k m) :
    IsForest up Under (Function.update nodes i (some n)) ↔
      ∀ p, up n = some p → ∃ m, nodes p = some m ∧ Under n m := by
  have hchild : ∀ j m, nodes j = some m → up m ≠ some i := by
    intro j m hj hm
    obtain ⟨m', hm', hu⟩ := h.under j m i hj hm
    exact hleaf m' hm' m hu
  rw [isForest_update_iff h]
  constructor
  · exact fun hnew p hp => (hnew.1 p hp).1
  · refine fun hnew => ⟨fun p hp => ⟨hnew p hp, fun habove => ?_⟩,
      fun j m _ hj hm => absurd hm (hchild j m hj)⟩
    rcases habove.cases_last with rfl | ⟨j, hj⟩
    · obtain ⟨m, hm, hu⟩ := hnew p hp
      exact hleaf m hm n hu
    · obtain ⟨m, hm, hup⟩ := parentIn_eq_some.1 hj
      exact hchild j m hm hup

end Stores

end Forest

import Mathlib.Data.List.Induction
import Mathlib.Logic.Function.Basic

set_option autoImplicit false

/-! # Grouping values under keys

A map from keys to lists that is filled in one pass: each element adds a value to the list of its
key, and elements without a key are passed over. A key has no entry until it gets its first value,
so an entry is never an empty list. -/

namespace Grouping

variable {α κ ν : Type} [DecidableEq κ]

/-- Lists of values, for the keys that have any. -/
abbrev Groups (κ ν : Type) := κ → Option (List ν)

def Groups.push (groups : Groups κ ν) (k : κ) (v : ν) : Groups κ ν :=
  Function.update groups k (some ((groups k).getD [] ++ [v]))

/-- A list, when it is not empty. -/
def nonempty? {β : Type} (vs : List β) : Option (List β) := if vs = [] then none else some vs

@[simp] theorem nonempty?_eq_none {β : Type} {vs : List β} : nonempty? vs = none ↔ vs = [] := by
  unfold nonempty?
  split <;> simp [*]

theorem nonempty?_eq_some {β : Type} {vs ws : List β} :
    nonempty? vs = some ws ↔ vs = ws ∧ ws ≠ [] := by
  unfold nonempty?
  split
  · next h => simp [h, eq_comm]
  · next h =>
    constructor
    · intro he
      obtain rfl := Option.some.inj he
      exact ⟨rfl, h⟩
    · rintro ⟨rfl, -⟩
      rfl

@[simp] theorem getD_nonempty? {β : Type} (vs : List β) : (nonempty? vs).getD [] = vs := by
  unfold nonempty?
  split
  · next h => exact h.symm
  · rfl

variable (key : α → Option κ) (val : α → ν)

/-- One element of the pass. -/
def add (groups : Groups κ ν) (x : α) : Groups κ ν :=
  match key x with
  | none => groups
  | some k => groups.push k (val x)

theorem add_of_none {x : α} (h : key x = none) (groups : Groups κ ν) :
    add key val groups x = groups := by
  rw [add, h]

theorem add_of_some {x : α} {k : κ} (h : key x = some k) (groups : Groups κ ν) :
    add key val groups x = groups.push k (val x) := by
  rw [add, h]

/-- The values of the elements with this key. -/
def valuesAt (xs : List α) (k : κ) : List ν := (xs.filter fun x => key x = some k).map val

theorem push_nonempty? (vs : List ν) (v : ν) :
    some ((nonempty? vs).getD [] ++ [v]) = nonempty? (vs ++ [v]) := by
  rw [getD_nonempty?, nonempty?, if_neg]
  exact List.append_ne_nil_of_right_ne_nil _ (List.cons_ne_nil v [])

/-- **Grouping.** After the pass the entry of a key has the values of its elements in their
    order. -/
theorem foldl_add (xs : List α) (k : κ) :
    xs.foldl (add key val) (fun _ => none) k = nonempty? (valuesAt key val xs k) := by
  -- from the end of the list: the last element adds to one group and leaves the others
  induction xs using List.reverseRecOn with
  | nil => rfl
  | append_singleton xs x ih =>
    rw [List.foldl_append, List.foldl_cons, List.foldl_nil]
    unfold valuesAt at ih ⊢
    rw [List.filter_append, List.map_append]
    cases hk : key x with
    | none => simp [add_of_none key val hk, ih, hk]
    | some k' =>
      rw [add_of_some key val hk, Groups.push]
      by_cases he : k = k'
      · subst he
        rw [Function.update_self, ih, push_nonempty?]
        simp [hk]
      · rw [Function.update_of_ne he, ih]
        simp [hk, Ne.symm he]

end Grouping

import Mathlib.Tactic.Common

set_option autoImplicit false

/-! # Values read from a store that changes

A store has a value for every key, and counts how often the value of each key has changed. A view is
a value that somebody holds for a key, with the count at which it was read. However late it is
looked at, a view whose count is still the store's count is what the store holds
(`View.Sound.value_eq`). -/

namespace Snapshot

variable {κ α : Type}

/-- A value held for a key. `version` is `none` for a value that was never in the store. -/
structure View (κ α : Type) where
  key : κ
  value : α
  version : Option Nat
deriving DecidableEq

/-- A view is not newer than the store, and if it is not older it has the store's value. -/
def View.Sound (store : κ → α) (changes : κ → Nat) (v : View κ α) : Prop :=
  ∀ n, v.version = some n → n ≤ changes v.key ∧ (n = changes v.key → v.value = store v.key)

/-- The numbers of changes after one store has become another. -/
def count [DecidableEq α] (before after : κ → α) (changes : κ → Nat) (k : κ) : Nat :=
  if before k = after k then changes k else changes k + 1

/-- Reading a key. -/
def read (store : κ → α) (changes : κ → Nat) (k : κ) : View κ α := ⟨k, store k, some (changes k)⟩

theorem sound_read (store : κ → α) (changes : κ → Nat) (k : κ) :
    (read store changes k).Sound store changes := by
  rintro n ⟨⟩
  exact ⟨Nat.le_refl _, fun _ => rfl⟩

theorem View.Sound.value_eq {store : κ → α} {changes : κ → Nat} {v : View κ α}
    (h : v.Sound store changes) (hv : v.version = some (changes v.key)) :
    v.value = store v.key :=
  (h _ hv).2 rfl

/-- **Views stay sound** while the store changes. -/
theorem View.Sound.count [DecidableEq α] {before : κ → α} {changes : κ → Nat} {v : View κ α}
    (h : v.Sound before changes) (after : κ → α) :
    v.Sound after (count before after changes) := by
  intro n hn
  obtain ⟨hle, heq⟩ := h n hn
  unfold Snapshot.count
  split
  · next hsame => exact ⟨hle, fun he => (heq he).trans hsame⟩
  · exact ⟨by omega, fun he => by omega⟩

end Snapshot

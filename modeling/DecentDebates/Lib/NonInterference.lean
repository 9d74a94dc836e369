import Mathlib.Tactic.Common

set_option autoImplicit false

/-! # Observations of two states

A state is compared with every other valid state that agrees with it on what an observer may
know. `Determined` says that the observer sees the same in all of them. Where it holds it is shown
by an erasure that the observation does not notice, and where it fails by one state that agrees and
looks different. -/

namespace Information

variable {σ ω : Type} {valid : σ → Prop} {agree : σ → σ → Prop} {observe : σ → ω} {s : σ}

/-- Every valid state that agrees with `s` looks like `s`. -/
def Determined (valid : σ → Prop) (agree : σ → σ → Prop) (observe : σ → ω) (s : σ) : Prop :=
  ∀ s', valid s' → agree s s' → observe s' = observe s

/-- A characterisation of `Determined` by a condition: under it agreeing states look alike, without
    it some agreeing state looks different. -/
theorem determined_iff {C : Prop} (hsame : C → ∀ s', valid s' → agree s s' → observe s' = observe s)
    (hleak : ¬ C → ∃ s', valid s' ∧ agree s s' ∧ observe s' ≠ observe s) :
    Determined valid agree observe s ↔ C := by
  constructor
  · intro h
    by_contra hC
    obtain ⟨s', hvalid, hagree, hne⟩ := hleak hC
    exact hne (h s' hvalid hagree)
  · exact fun hC => hsame hC

/-- Two states with one erasure look alike where the observation ignores what is erased. -/
theorem observe_eq_of_erase (observe : σ → ω) (erase : σ → σ) {s s' : σ}
    (hs : observe (erase s) = observe s) (hs' : observe (erase s') = observe s')
    (h : erase s = erase s') : observe s' = observe s := by
  rw [← hs', ← h, hs]

end Information

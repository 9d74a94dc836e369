import Mathlib.Data.List.Chain
import Mathlib.Data.List.Nodup

set_option autoImplicit false

/-! # Trails

The places on the way to where one is now, oldest first. Visiting a place that is on the trail goes
back to it, and visiting a new place makes the trail longer. So no place is on a trail twice, and if
new places are only reached from the last one, a trail is a path. -/

namespace Trail

variable {ι : Type}

def visit [DecidableEq ι] (trail : List ι) (i : ι) : List ι :=
  match trail.findIdx? (· = i) with
  | some k => trail.take (k + 1)
  | none => trail ++ [i]

/-- A path along `R` that visits nothing twice. -/
structure IsPath (R : ι → ι → Prop) (trail : List ι) : Prop where
  nodup : trail.Nodup
  chain : trail.IsChain R

theorem IsPath.nil (R : ι → ι → Prop) : IsPath R [] := ⟨List.nodup_nil, .nil⟩

variable [DecidableEq ι]

theorem visit_of_mem {trail : List ι} {i : ι} (h : i ∈ trail) :
    ∃ k, trail[k]? = some i ∧ visit trail i = trail.take (k + 1) := by
  unfold visit
  cases hk : trail.findIdx? (· = i) with
  | none =>
    rw [List.findIdx?_eq_none_iff] at hk
    simpa using hk i h
  | some k =>
    obtain ⟨hlt, hi, -⟩ := List.findIdx?_eq_some_iff_getElem.1 hk
    exact ⟨k, by simpa [hlt] using hi, rfl⟩

theorem visit_of_not_mem {trail : List ι} {i : ι} (h : i ∉ trail) :
    visit trail i = trail ++ [i] := by
  have hnone : trail.findIdx? (· = i) = none := by
    rw [List.findIdx?_eq_none_iff]
    exact fun j hj => decide_eq_false fun he => h (he ▸ hj)
  rw [visit, hnone]

/-- One is where one has gone to. -/
theorem getLast?_visit (trail : List ι) (i : ι) : (visit trail i).getLast? = some i := by
  by_cases h : i ∈ trail
  · obtain ⟨k, hk, hvisit⟩ := visit_of_mem h
    have hlt := (List.getElem?_eq_some_iff.1 hk).1
    rw [hvisit, List.getLast?_eq_getElem?, List.length_take, Nat.min_eq_left hlt,
      Nat.succ_sub_one, List.getElem?_take_of_lt (Nat.lt_succ_self k), hk]
  · rw [visit_of_not_mem h, List.getLast?_concat]

theorem mem_of_mem_visit {trail : List ι} {i j : ι} (h : j ∈ visit trail i) :
    j ∈ trail ∨ j = i := by
  by_cases hi : i ∈ trail
  · obtain ⟨k, -, hvisit⟩ := visit_of_mem hi
    rw [hvisit] at h
    exact Or.inl (List.mem_of_mem_take h)
  · rw [visit_of_not_mem hi, List.mem_append, List.mem_singleton] at h
    exact h

/-- **Visiting keeps a path** when a place that is not on it is reached from its end. -/
theorem IsPath.visit {R : ι → ι → Prop} {trail : List ι} (h : IsPath R trail) {i : ι}
    (hR : i ∉ trail → ∀ last, trail.getLast? = some last → R last i) :
    IsPath R (Trail.visit trail i) := by
  by_cases hi : i ∈ trail
  · obtain ⟨k, -, hvisit⟩ := visit_of_mem hi
    rw [hvisit]
    exact ⟨h.nodup.sublist (List.take_sublist _ _), h.chain.take _⟩
  · rw [visit_of_not_mem hi]
    refine ⟨h.nodup.append (List.nodup_singleton i) (List.disjoint_singleton.2 hi), ?_⟩
    rw [List.isChain_append]
    refine ⟨h.chain, .singleton i, fun last hlast j hj => ?_⟩
    obtain rfl : i = j := by simpa using hj
    exact hR hi last hlast

end Trail

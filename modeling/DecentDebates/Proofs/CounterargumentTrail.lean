import DecentDebates.CounterargumentTrail
import DecentDebates.Proofs.DebateDto

set_option autoImplicit false

/-! # Threads of counterarguments: proofs

The history is a `Trail`. From its end one reaches what is shown next to the inspected argument, and
these arguments are against it; everything else that is shown is the inspected argument itself,
whose action is disabled. -/

namespace DecentDebates.DebatePage

open Transition

namespace Inspection

variable {args : List DebateArgument} {s : Inspection}

/-! ## What is shown -/

theorem mem_column {t : ArgumentType} {a : DebateArgument} (h : a ∈ s.column t args) :
    a ∈ args ∧ ∀ id, s.inspectedId = some id →
      a.argumentId = id ∨ a.counterargumentTo = some id := by
  unfold column at h
  split at h
  · next hid =>
    refine ⟨(List.mem_filter.1 h).1, fun id hid' => ?_⟩
    rw [hid] at hid'
    exact nomatch hid'
  · next id hid =>
    split at h
    · exact absurd h List.not_mem_nil
    · next inspected hinspected =>
      rw [inspectedCounterargsOfArgument, hid, Option.bind_some] at hinspected
      have hmem := List.mem_of_find?_eq_some hinspected
      have hself : inspected.argumentId = id := by simpa using List.find?_some hinspected
      split at h
      · obtain rfl := List.mem_singleton.1 h
        refine ⟨hmem, fun id' hid' => Or.inl ?_⟩
        exact hself.trans (Option.some.inj (hid.symm.trans hid'))
      · obtain ⟨ha, hcond⟩ := List.mem_filter.1 h
        refine ⟨ha, fun id' hid' => Or.inr ?_⟩
        rw [← Option.some.inj (hid.symm.trans hid'), ← hself]
        exact (of_decide_eq_true hcond).2

theorem mem_shown {a : DebateArgument} (h : a ∈ s.pros args ++ s.cons args) :
    a ∈ args ∧ ∀ id, s.inspectedId = some id →
      a.argumentId = id ∨ a.counterargumentTo = some id := by
  rcases List.mem_append.1 h with h | h <;> exact mem_column h

/-! ## The invariant -/

/-- The history is a path of arguments, and its end is what is inspected. -/
structure Good (args : List DebateArgument) (s : Inspection) : Prop where
  last : s.counterargumentsOfArgId = s.counterargumentsOfArgHistory.getLast?
  path : Trail.IsPath (Against args) s.counterargumentsOfArgHistory
  known : ∀ id ∈ s.counterargumentsOfArgHistory, ∃ a ∈ args, a.argumentId = id

theorem Good.initial (args : List DebateArgument) : Good args initial :=
  ⟨rfl, .nil _, fun _ h => absurd h List.not_mem_nil⟩

theorem inspect_of_ne {a : DebateArgument} (h : some a.argumentId ≠ s.counterargumentsOfArgId) :
    s.inspectCounterargumentsOf a =
      ⟨some a.argumentId, Trail.visit s.counterargumentsOfArgHistory a.argumentId⟩ :=
  if_neg h

/-- One may go to any argument that is on the trail or against its end. -/
theorem Good.inspect (h : Good args s) {a : DebateArgument} (ha : a ∈ args)
    (hR : a.argumentId ∉ s.counterargumentsOfArgHistory →
      ∀ last, s.counterargumentsOfArgId = some last → a.counterargumentTo = some last) :
    Good args (s.inspectCounterargumentsOf a) := by
  by_cases hsame : some a.argumentId = s.counterargumentsOfArgId
  · rw [inspectCounterargumentsOf, if_pos hsame]
    exact h
  · rw [inspect_of_ne hsame]
    refine ⟨(Trail.getLast?_visit _ _).symm, h.path.visit fun hnot last hlast => ?_, ?_⟩
    · exact ⟨a, ha, rfl, hR hnot last (h.last.trans hlast)⟩
    · intro id hid
      rcases Trail.mem_of_mem_visit hid with hid | rfl
      · exact h.known id hid
      · exact ⟨a, ha, rfl⟩

theorem Good.step (hpos : ∀ a ∈ args, 0 < a.argumentId) (s : Inspection) (action : Action)
    (h : Good args s) : Good args (s.step args action) := by
  cases action with
  | seeTheCounterarguments a =>
    rw [Inspection.step]
    split
    · next hshown =>
      obtain ⟨hshown, henabled⟩ := hshown
      obtain ⟨ha, hnext⟩ := mem_shown hshown
      refine h.inspect ha fun _ last hlast => ?_
      -- the end of the trail is an id, so it is truthy
      have hlast' : last ∈ s.counterargumentsOfArgHistory :=
        List.mem_of_getLast? (h.last.symm.trans hlast)
      obtain ⟨b, hb, hid⟩ := h.known last hlast'
      have hne : last ≠ 0 := by
        have := hpos b hb
        omega
      have htruthy : s.inspectedId = some last := by
        rw [inspectedId, hlast, Option.filter_some_pos (by simpa using hne)]
      rcases hnext last htruthy with hself | hparent
      · refine absurd ?_ henabled
        simp [shouldDisableCounterargsButton, hself, hlast]
      · exact hparent
    · exact h
  | breadcrumb i =>
    rw [Inspection.step]
    split
    · next id hid =>
      unfold onClickBreadcrumb
      split
      · next a ha =>
        have hself : a.argumentId = id := by simpa using List.find?_some ha
        refine h.inspect (List.mem_of_find?_eq_some ha) fun hnot => ?_
        exact absurd (hself ▸ List.mem_of_getElem? hid) hnot
      · exact h
    · exact h
  | disableMode => exact Good.initial args

/-- What the page says about the history. -/
theorem Good.isThread (h : Good args s) : IsThread args s where
  none_iff := by rw [h.last, List.getLast?_eq_none_iff]
  last := fun id hid => h.last.symm.trans hid
  nodup := h.path.nodup
  path := by
    intro i x y hx hy
    obtain ⟨hi, rfl⟩ := List.getElem?_eq_some_iff.1 hx
    obtain ⟨hi', rfl⟩ := List.getElem?_eq_some_iff.1 hy
    exact List.isChain_iff_getElem.1 h.path.chain i hi'

/-- `getDebateDTO` keeps who is against whom. -/
theorem against_getDebateDTO {debateInfo : CurrentDebate}
    (hpos : ∀ a ∈ debateInfo.args, 0 < a.argumentId) {x y : Int}
    (h : Against (getDebateDTO debateInfo).args x y) : Against debateInfo.args x y := by
  obtain ⟨a, ha, hid, hparent⟩ := h
  rw [getDebateDTO_eq debateInfo hpos] at ha
  obtain ⟨a₀, ha₀, rfl⟩ := List.mem_map.1 ha
  exact ⟨a₀, ha₀, hid, hparent⟩

/-- **The breadcrumbs are a path.** Whatever one clicks on the page of a debate, the history is
    empty exactly outside the mode and else ends in what is inspected, has no id twice, and each of
    its arguments is against the one before it. -/
theorem breadcrumbs_path (debateInfo : CurrentDebate)
    (hpos : ∀ a ∈ debateInfo.args, 0 < a.argumentId) (actions : List Action) :
    IsThread debateInfo.args (run (step (getDebateDTO debateInfo).args) initial actions) := by
  have hpos' : ∀ a ∈ (getDebateDTO debateInfo).args, 0 < a.argumentId := by
    rw [getDebateDTO_eq debateInfo hpos]
    intro a ha
    obtain ⟨a₀, ha₀, rfl⟩ := List.mem_map.1 ha
    exact hpos a₀ ha₀
  have hgood := run_invariant (Good.step hpos') (Good.initial _) actions
  exact { hgood.isThread with
    path := fun i x y hx hy => against_getDebateDTO hpos (hgood.isThread.path i x y hx hy) }

/-- Three arguments in a circle, two of them of one type. -/
def circularDebate : CurrentDebate where
  args := [linkedArgument 1 (some 3), { linkedArgument 2 (some 1) with argumentType := .con },
    linkedArgument 3 (some 2)]
  metadata := ⟨1, "t"⟩
  expandedArgumentsIDs := none

theorem breadcrumbs_path_sample :
    run (step (getDebateDTO circularDebate).args) initial
        ((getDebateDTO circularDebate).args.map Action.seeTheCounterarguments) =
      ⟨some 3, [1, 2, 3]⟩ ∧
    IsThread circularDebate.args (run (step (getDebateDTO circularDebate).args) initial
      ((getDebateDTO circularDebate).args.map Action.seeTheCounterarguments)) :=
  ⟨by decide, breadcrumbs_path circularDebate (by decide) _⟩

end Inspection

end DecentDebates.DebatePage

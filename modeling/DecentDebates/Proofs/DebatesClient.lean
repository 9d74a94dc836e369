import DecentDebates.DebatesClient

set_option autoImplicit false

/-! # The list of debates: proofs

The list is always the last response that has arrived, so what is to be shown is decided by the
responses alone. Requests that fail change nothing, and letting all of them fail brings the page to
rest. -/

namespace DecentDebates.DebatesClient

open Transition

variable {s : State} {first : List ListedDebate}

/-- The list is right already, whatever is still in flight. -/
def Current (first : List ListedDebate) (s : State) : Prop :=
  (s.succeeded = [] → s.debates = first) ∧
    ∀ response, s.IsLatest response → s.debates = response.2

/-! ## One step -/

theorem current_onResponse {i : Nat} {debates : List ListedDebate} (h : Current first s) :
    Current first (step s (.onResponse i debates)) ↔ InOrder s (.onResponse i debates) := by
  rw [step]
  split
  · next request hrequest =>
    constructor
    · intro hnew request' hrequest' response hlatest hle
      obtain rfl := Option.some.inj (hrequest.symm.trans hrequest')
      refine hnew.2 response ⟨List.mem_cons_of_mem _ hlatest.1, fun other hother => ?_⟩
      rcases List.mem_cons.1 hother with rfl | hother
      · exact hle
      · exact hlatest.2 other hother
    · intro horder
      refine ⟨fun hnil => absurd hnil (List.cons_ne_nil _ _), fun response hlatest => ?_⟩
      obtain ⟨hmem, hmax⟩ := hlatest
      obtain ⟨hle, hmax⟩ := List.forall_mem_cons.1 hmax
      rcases List.mem_cons.1 hmem with rfl | hmem
      · rfl
      · exact horder request hrequest response ⟨hmem, hmax⟩ hle
  · next hnone =>
    constructor
    · intro _ request hrequest
      exact nomatch hnone.symm.trans hrequest
    · exact fun _ => h

theorem current_step (s : State) (e : Step) (h : Current first s) :
    Current first (step s e) ↔ InOrder s e := by
  cases e with
  | onApplyFilters filters =>
    refine iff_of_true ?_ trivial
    rw [step, onApplyFilters]
    split <;> exact h
  | onResponse i debates => exact current_onResponse h
  | rejected i => exact iff_of_true h trivial

/-! ## Failures -/

theorem current_rejected (s : State) (e : Step) (he : e.IsRejected) :
    Current first (step s e) ↔ Current first s := by
  cases e with
  | rejected i => exact Iff.rfl
  | onApplyFilters filters => exact absurd he id
  | onResponse i debates => exact absurd he id

/-- The first request in flight may fail. -/
theorem exists_rejected (s : State) (request : FilterRequest) (rest : List FilterRequest)
    (h : s.inFlight = request :: rest) :
    ∃ e : Step, e.IsRejected ∧ (step s e).inFlight = rest :=
  ⟨.rejected 0, trivial, by rw [step, h]; rfl⟩

/-- The list is right when it will be right however the requests in flight fail. -/
theorem current_iff (s : State) : Current first s ↔
    ∀ es : List Step, (∀ e ∈ es, e.IsRejected) → (run step s es).ShowsLatest first :=
  iff_run_emptied State.inFlight current_rejected exists_rejected s

/-! ## Whole runs -/

theorem current_mount (first : List ListedDebate) : Current first (.mount first) :=
  ⟨fun _ => rfl, fun _ hlatest => absurd hlatest.1 List.not_mem_nil⟩

/-- **The latest filter is shown.** In every state of a run, also when the requests in flight then
    fail, the list is the response to the latest filter answered, exactly when no response arrives
    after the response to a later filter. -/
theorem showsLatest_iff (first : List ListedDebate) (es : List Step) :
    (∀ s ∈ states step (.mount first) es, ∀ es' : List Step, (∀ e ∈ es', e.IsRejected) →
        (run step s es').ShowsLatest first) ↔
      ∀ p ∈ steps step (.mount first) es, InOrder p.1 p.2 := by
  rw [← states_iff_steps (J := fun _ => True) (fun _ _ _ => trivial)
    (fun s e _ h => current_step s e h) trivial (current_mount first) es]
  exact forall₂_congr fun s _ => (current_iff s).symm

/-- A debate of the list. -/
def listed (id : Int) (title : String) : ListedDebate := ⟨id, title, 0, 0, "user", 1, []⟩

/-- The filters `m` and `mo` are applied, and the response to `m` arrives last. -/
def overtaken : List Step :=
  [.onApplyFilters ⟨some "m", none, none⟩, .onApplyFilters ⟨some "mo", none, none⟩,
    .onResponse 1 [listed 1 "Moon"], .onResponse 0 [listed 1 "Moon", listed 2 "Mars"]]

/-- The list of the filter `m` stays. -/
theorem overtaken_response_stays : ¬ ∀ (first : List ListedDebate) (es : List Step),
    (run step (.mount first) es).ShowsLatest first := by
  intro h
  obtain ⟨-, hlatest⟩ := h [] overtaken (by decide +kernel)
  have hmoon : (run step (.mount []) overtaken).IsLatest (1, [listed 1 "Moon"]) :=
    ⟨by decide +kernel, by decide +kernel⟩
  exact absurd (hlatest _ hmoon) (by decide +kernel)

end DecentDebates.DebatesClient

import DecentDebates.Entities.DebatesQueryPipe

set_option autoImplicit false

/-! # Filters from the form to the service

Encoder and decoder are in different packages. What the decoder should return is read off the
filters; what it returns is the pipe on the client's URL. -/

namespace DecentDebates

open Json

namespace AppliedDebateFilters

/-- Filters of the shapes that the form has: ids of at least one tag, and one of the strategies, each
    present or not. -/
structure WellFormed (filters : AppliedDebateFilters) : Prop where
  tags : ∀ tags ∈ filters.tags, tags ≠ [] ∧ ∀ tag ∈ tags, ∃ id : Int, tag = toString id
  tagsMatch : ∀ strategy ∈ filters.tagsMatch, strategy = "any" ∨ strategy = "all"

/-- The empty query is none. -/
def text (filters : AppliedDebateFilters) : String := filters.query.getD ""

/-- The strategy belongs to the tags, and is `any` if none was given. -/
def carried (filters : AppliedDebateFilters) : Option ParsedFilters :=
  if filters.text = "" ∧ filters.tags = none then none
  else some {
    queryStr := if filters.text = "" then none else some (.string filters.text)
    tags := filters.tags.map fun tags =>
      { values := .string (",".intercalate tags)
        matchingStrategy := if filters.tagsMatch = some "all" then .all else .any } }

def received (filters : AppliedDebateFilters) : Except Thrown (Option ParsedFilters) := do
  let url ← fetchDebatesWithFilters filters
  DebatesQueryPipe.transform (some (queryParam url))

def RoundTrips (filters : AppliedDebateFilters) : Prop := filters.received = .ok filters.carried

/-- The query is ASCII, no `>` or `~` in it is the last byte of a group of three (the text of the
    query begins at the fourteenth byte of the JSON text), and a strategy is not sent alone. -/
structure Survives (filters : AppliedDebateFilters) : Prop where
  ascii : ∀ c ∈ filters.text.toList, c.toNat < 0x80
  noPlus : ∀ before c after, filters.text.toList = before ++ c :: after → c = '>' ∨ c = '~' →
    (before.flatMap escape).length % 3 ≠ 1
  notStrategyAlone : filters.text ≠ "" ∨ filters.tags.isSome ∨ filters.tagsMatch = none

end AppliedDebateFilters

theorem DebateFiltersForm.applyFilters_wellFormed (form : DebateFiltersForm) :
    form.applyFilters.WellFormed where
  tags := by
    intro tags h
    unfold applyFilters getFilterTags at h
    split at h
    · split at h
      · cases h
      · next ids _ =>
        split at h
        · cases h
        · next hids =>
          obtain rfl := Option.mem_some_iff.1 h
          refine ⟨fun hnil => hids ?_, fun tag htag => ?_⟩
          · rw [List.map_eq_nil_iff.1 hnil, List.isEmpty_nil]
          · obtain ⟨id, -, rfl⟩ := List.mem_map.1 htag
            exact ⟨id, rfl⟩
    · cases h
  tagsMatch := by
    intro strategy h
    unfold applyFilters at h
    split at h
    · obtain rfl := Option.mem_some_iff.1 h
      cases form.tagsMatchingStrategy with
      | all => exact Or.inr rfl
      | any => exact Or.inl rfl
    · cases h

end DecentDebates

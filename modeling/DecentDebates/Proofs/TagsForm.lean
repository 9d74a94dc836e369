import DecentDebates.TagsForm
import Mathlib.Data.List.Nodup
import Mathlib.Data.List.Perm.Basic

set_option autoImplicit false

/-! # Selecting and creating tags: proofs

What is selected is among the tags of the form, and what the form has marked as created has been
made by the user. -/

namespace DecentDebates.TagsForm

open Transition

variable {canCreateTags : Bool} {offered made : Tag → Prop} {s : State} {tag : Tag}

/-- What holds in every state, given which tags were offered and which were made. -/
structure Valid (offered made : Tag → Prop) (s : State) : Prop where
  props : ∀ tag ∈ s.props, offered tag ∧ tag.id ≠ 0
  nonzero : ∀ tag ∈ s.debateTags, tag.id ≠ 0
  found : ∀ tId ∈ s.selectedTagsIds, ∃ tag ∈ s.debateTags, tag.id = tId
  nodup : s.selectedTagsIds.Nodup
  existing : ∀ tag ∈ s.debateTags, tag.id ∉ s.createdTagsIds → offered tag
  created : ∀ tag ∈ s.debateTags, tag.id ∈ s.createdTagsIds → made tag

theorem find_isSome_iff (tId : Int) :
    (s.find tId).isSome = true ↔ ∃ tag ∈ s.debateTags, tag.id = tId := by
  unfold State.find
  simp [List.find?_isSome]

theorem isItemSelected_iff (selected : List Int) (h : tag.id ≠ 0) :
    isItemSelected selected tag = true ↔ tag.id ∈ selected := by
  unfold isItemSelected
  constructor
  · intro hfind
    obtain ⟨tId, htId, _⟩ := Option.any_eq_true _ _ |>.1 hfind
    have hid : tId = tag.id := by simpa using List.find?_some htId
    rw [← hid]
    exact List.mem_of_find?_eq_some htId
  · intro hmem
    have hsome : (selected.find? (· = tag.id)).isSome = true := by
      rw [List.find?_isSome]
      exact ⟨tag.id, hmem, decide_eq_true rfl⟩
    obtain ⟨tId, htId⟩ := Option.isSome_iff_exists.1 hsome
    have hid : tId = tag.id := by simpa using List.find?_some htId
    rw [htId, hid]
    simpa using h

/-- The selection after a tag has been picked. -/
theorem mem_toggled {tId : Int} (selected : List Int)
    (h : tId ∈ (if isItemSelected selected tag then selected.filter (· ≠ tag.id)
      else selected ++ [tag.id])) : tId ∈ selected ∨ tId = tag.id := by
  split at h
  · exact Or.inl (List.mem_filter.1 h).1
  · rcases List.mem_append.1 h with h | h
    · exact Or.inl h
    · exact Or.inr (List.mem_singleton.1 h)

theorem nodup_toggled {selected : List Int} (hid : tag.id ≠ 0) (h : selected.Nodup) :
    (if isItemSelected selected tag then selected.filter (· ≠ tag.id)
      else selected ++ [tag.id]).Nodup := by
  split
  · exact h.filter _
  · next hnot =>
    rw [isItemSelected_iff _ hid] at hnot
    exact List.nodup_append.2 ⟨h, List.nodup_singleton _, by
      rintro a ha b hb rfl
      exact hnot (List.mem_singleton.1 hb ▸ ha)⟩

/-- Picking a tag that the form has, or one that the user has just made. -/
theorem valid_handleItemSelect (h : Valid offered made s) (hid : tag.id ≠ 0)
    (htag : tag ∈ s.debateTags ∨ made tag) : Valid offered made (handleItemSelect tag s) := by
  by_cases hfind : (s.find tag.id).isSome = true
  · -- nothing is added
    obtain ⟨tag', htag', hid'⟩ := (find_isSome_iff _).1 hfind
    have hs : handleItemSelect tag s = { s with
        selectedTagsIds := (handleItemSelect tag s).selectedTagsIds } := by
      simp [handleItemSelect, hfind]
    rw [hs]
    refine ⟨h.props, h.nonzero, fun tId htId => ?_, nodup_toggled hid h.nodup, h.existing,
      h.created⟩
    rcases mem_toggled _ htId with htId | rfl
    · exact h.found tId htId
    · exact ⟨tag', htag', hid'⟩
  · have hnone : ∀ tag' ∈ s.debateTags, tag'.id ≠ tag.id := fun tag' htag' hid' =>
      hfind ((find_isSome_iff _).2 ⟨tag', htag', hid'⟩)
    have hmade : made tag := htag.resolve_left fun hmem => hnone tag hmem rfl
    have hs : handleItemSelect tag s = { s with
        debateTags := s.debateTags ++ [tag], createdTagsIds := tag.id :: s.createdTagsIds,
        selectedTagsIds := (handleItemSelect tag s).selectedTagsIds } := by
      simp [handleItemSelect, hfind]
    rw [hs]
    refine ⟨h.props, ?_, fun tId htId => ?_, nodup_toggled hid h.nodup, ?_, ?_⟩
    · intro tag' htag'
      rcases List.mem_append.1 htag' with htag' | htag'
      · exact h.nonzero tag' htag'
      · rwa [List.mem_singleton.1 htag']
    · rcases mem_toggled _ htId with htId | rfl
      · obtain ⟨tag', htag', hid'⟩ := h.found tId htId
        exact ⟨tag', List.mem_append_left _ htag', hid'⟩
      · exact ⟨tag, List.mem_append_right _ List.mem_cons_self, rfl⟩
    · intro tag' htag' hnot
      rcases List.mem_append.1 htag' with htag' | htag'
      · exact h.existing tag' htag' fun hmem => hnot (List.mem_cons_of_mem _ hmem)
      · rw [List.mem_singleton.1 htag'] at hnot
        exact absurd List.mem_cons_self hnot
    · intro tag' htag' hmem
      rcases List.mem_append.1 htag' with htag' | htag'
      · exact h.created tag' htag' ((List.mem_cons.1 hmem).resolve_left (hnone tag' htag'))
      · rwa [List.mem_singleton.1 htag']

theorem valid_step (h : Valid offered made s) (e : Event) (hnonzero : e.Nonzero)
    (hoffers : ∀ tags, e = .rerender tags → ∀ tag ∈ tags, offered tag)
    (hmakes : ∀ tag : Tag, canCreateTags = true → e = .create tag.id tag.name → made tag) :
    Valid offered made (step canCreateTags s e) := by
  cases e with
  | select i =>
    show Valid offered made (s.debateTags[i]?.elim s fun tag => handleItemSelect tag s)
    cases hi : s.debateTags[i]? with
    | none => exact h
    | some tag =>
      have hmem := List.mem_of_getElem? hi
      exact valid_handleItemSelect h (h.nonzero tag hmem) (Or.inl hmem)
  | create now query =>
    show Valid offered made (if canCreateTags then handleItemSelect ⟨now, query⟩ s else s)
    split
    · next hcan => exact valid_handleItemSelect h hnonzero (Or.inr (hmakes ⟨now, query⟩ hcan rfl))
    · exact h
  | remove tagIdx =>
    exact ⟨h.props, h.nonzero, fun tId htId => h.found tId (List.mem_of_mem_eraseIdx htId),
      h.nodup.sublist (List.eraseIdx_sublist _ _), h.existing, h.created⟩
  | clear =>
    refine ⟨h.props, fun tag htag => (h.props tag htag).2, fun tId htId => ?_, List.nodup_nil,
      fun tag htag _ => (h.props tag htag).1, fun tag _ hmem => ?_⟩
    · exact absurd htId (by simp [step, handleOnClear])
    · exact absurd hmem (by simp [step, handleOnClear])
  | rerender tags =>
    exact ⟨fun tag htag => ⟨hoffers tags rfl tag htag, hnonzero tag htag⟩, h.nonzero, h.found,
      h.nodup, h.existing, h.created⟩

theorem Valid.mono {offered' made' : Tag → Prop} (h : Valid offered made s)
    (hoffered : ∀ tag, offered tag → offered' tag) (hmade : ∀ tag, made tag → made' tag) :
    Valid offered' made' s :=
  ⟨fun tag htag => ⟨hoffered tag (h.props tag htag).1, (h.props tag htag).2⟩, h.nonzero, h.found,
    h.nodup, fun tag htag hnot => hoffered tag (h.existing tag htag hnot),
    fun tag htag hmem => hmade tag (h.created tag htag hmem)⟩

theorem valid_run {tags : List Tag} (htags : ∀ tag ∈ tags, tag.id ≠ 0) (events : List Event)
    (hevents : ∀ e ∈ events, e.Nonzero) :
    Valid (Offered tags events) (Created canCreateTags events)
      (run (step canCreateTags) (.mount tags) events) := by
  induction events using List.reverseRecOn with
  | nil =>
    refine ⟨fun tag htag => ⟨Or.inl htag, htags tag htag⟩, htags, fun tId htId => ?_,
      List.nodup_nil, fun tag htag _ => Or.inl htag, fun tag _ hmem => ?_⟩
    · exact absurd htId (by simp [State.mount])
    · exact absurd hmem (by simp [State.mount])
  | append_singleton events e ih =>
    have hbefore := ih fun e' he' => hevents e' (List.mem_append_left _ he')
    have hlast : e ∈ events ++ [e] := List.mem_append_right _ List.mem_cons_self
    rw [run_append, run_cons, run_nil]
    refine valid_step (hbefore.mono ?_ ?_) e (hevents e hlast) ?_ ?_
    · rintro tag (htag | ⟨tags', htags', htag⟩)
      · exact Or.inl htag
      · exact Or.inr ⟨tags', List.mem_append_left _ htags', htag⟩
    · rintro tag ⟨hcan, hcreate⟩
      exact ⟨hcan, List.mem_append_left _ hcreate⟩
    · rintro tags' rfl tag htag
      exact Or.inr ⟨tags', hlast, htag⟩
    · rintro tag hcan rfl
      exact ⟨hcan, hlast⟩

/-- The tags of some selected ids, all of which are found. -/
theorem exists_tags (h : Valid offered made s) {ids : List Int}
    (hids : ∀ tId ∈ ids, tId ∈ s.selectedTagsIds) :
    ∃ tags : List Tag, ids.map s.find = tags.map some ∧ tags.map Tag.id = ids ∧
      ∀ tag ∈ tags, tag ∈ s.debateTags := by
  induction ids with
  | nil => exact ⟨[], rfl, rfl, by simp⟩
  | cons tId ids ih =>
    obtain ⟨tags, hfind, hmap, hmem⟩ := ih fun tId' h' => hids tId' (List.mem_cons_of_mem _ h')
    obtain ⟨tag, htag⟩ := Option.isSome_iff_exists.1
      ((find_isSome_iff tId).2 (h.found tId (hids tId List.mem_cons_self)))
    refine ⟨tag :: tags, ?_, ?_, ?_⟩
    · rw [List.map_cons, htag, hfind, List.map_cons]
    · rw [List.map_cons, hmap]
      have hid : tag.id = tId := by simpa [State.find] using List.find?_some htag
      rw [hid]
    · intro tag' htag'
      rcases List.mem_cons.1 htag' with rfl | htag'
      · exact List.mem_of_find?_eq_some htag
      · exact hmem tag' htag'

theorem exists_selected (h : Valid offered made s) (q : Int → Bool) :
    ∃ tags : List Tag, (s.selectedTagsIds.filter q).map s.find = tags.map some ∧
      tags.map Tag.id = s.selectedTagsIds.filter q ∧ ∀ tag ∈ tags, tag ∈ s.debateTags :=
  exists_tags h fun _ htId => (List.mem_filter.1 htId).1

theorem mapM_names {ids : List Int} {tags : List Tag} (h : ids.map s.find = tags.map some) :
    ids.mapM (fun tId => (s.find tId).map Tag.name) = some (tags.map Tag.name) := by
  induction ids generalizing tags with
  | nil =>
    obtain rfl := List.map_eq_nil_iff.1 h.symm
    rfl
  | cons tId ids ih =>
    cases tags with
    | nil => exact absurd h (by simp)
    | cons tag tags =>
      obtain ⟨htag, hrest⟩ := List.cons.inj h
      rw [List.mapM_cons, htag, ih hrest]
      rfl

/-- Whatever the user has picked, made, removed and cleared, reading the selection does not throw
    and finds every tag. It gives every selected id once, either as a tag that was passed to the
    form or by the name of a tag that the user has made, for which the form must allow it. No tag
    has the id 0, which `handleItemSelect` never takes for selected. -/
theorem selected_tags {tags : List Tag} (htags : ∀ tag ∈ tags, tag.id ≠ 0) (events : List Event)
    (hevents : ∀ e ∈ events, e.Nonzero) :
    ∃ existing created : List Tag,
      getSelectedTags (run (step canCreateTags) (.mount tags) events)
          = some (existing.map some, created.map Tag.name) ∧
        ((existing ++ created).map Tag.id).Perm
          (run (step canCreateTags) (.mount tags) events).selectedTagsIds ∧
        ((existing ++ created).map Tag.id).Nodup ∧
        (∀ tag ∈ existing, Offered tags events tag) ∧
        ∀ tag ∈ created, Created canCreateTags events tag := by
  have h : Valid (Offered tags events) (Created canCreateTags events)
      (run (step canCreateTags) (.mount tags) events) := valid_run htags events hevents
  generalize run (step canCreateTags) (.mount tags) events = s at h ⊢
  obtain ⟨existing, hexisting, hexistingIds, hexistingMem⟩ :=
    exists_selected h (fun tId => decide (tId ∉ s.createdTagsIds))
  obtain ⟨created, hcreated, hcreatedIds, hcreatedMem⟩ :=
    exists_selected h (fun tId => decide (tId ∈ s.createdTagsIds))
  have hperm : ((existing ++ created).map Tag.id).Perm s.selectedTagsIds := by
    rw [List.map_append, hexistingIds, hcreatedIds]
    refine (List.perm_append_comm).trans ?_
    have hsplit := List.filter_append_perm (fun tId => decide (tId ∈ s.createdTagsIds))
      s.selectedTagsIds
    simpa using hsplit
  refine ⟨existing, created, ?_, hperm, hperm.nodup_iff.2 h.nodup, ?_, ?_⟩
  · unfold getSelectedTags
    rw [hexisting, mapM_names hcreated]
    rfl
  · intro tag htag
    refine h.existing tag (hexistingMem tag htag) ?_
    have hid : tag.id ∈ existing.map Tag.id := List.mem_map_of_mem htag
    rw [hexistingIds] at hid
    exact of_decide_eq_true (List.mem_filter.1 hid).2
  · intro tag htag
    refine h.created tag (hcreatedMem tag htag) ?_
    have hid : tag.id ∈ created.map Tag.id := List.mem_map_of_mem htag
    rw [hcreatedIds] at hid
    exact of_decide_eq_true (List.mem_filter.1 hid).2

/-- A tag that is picked, one that is made, and one that is made and removed. -/
def picks : List Event :=
  [.select 0, .create 1700000000000 "ethics", .create 1700000005000 "law", .remove 2]

theorem selected_tags_sample :
    ∃ existing created : List Tag,
      getSelectedTags (run (step true) (.mount [⟨1, "science"⟩]) picks)
          = some (existing.map some, created.map Tag.name) ∧
        ((existing ++ created).map Tag.id).Perm
          (run (step true) (.mount [⟨1, "science"⟩]) picks).selectedTagsIds ∧
        ((existing ++ created).map Tag.id).Nodup ∧
        (∀ tag ∈ existing, Offered [⟨1, "science"⟩] picks tag) ∧
        ∀ tag ∈ created, Created true picks tag :=
  selected_tags (by decide) picks (by simp [picks, Event.Nonzero])

end DecentDebates.TagsForm

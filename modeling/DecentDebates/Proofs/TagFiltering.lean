import DecentDebates.TagFiltering
import DecentDebates.Proofs.TagLists

set_option autoImplicit false

/-! # Filtering the list of debates by tags: proofs

The four-way join has one row for a public debate with a tag, so the list under any condition is a
part of the table of debates. The conditions on arrays of texts are conditions on sets of ids, since
an id and its text determine each other. -/

namespace DecentDebates

open Relational Transition

variable {db : Database} {d : DebateRow}

/-! ## The list under a condition -/

/-- The condition on the debate's row of `debates_tags`, if it has one. -/
def Database.passes (db : Database) (filter : DebateRow → DebatesTags → Truth) (d : DebateRow) :
    Bool :=
  (db.debateTagsRow d).any fun dts => (filter d dts).holds

/-- The debates of the list, in their order: each once. -/
theorem selectDebates_ids (hS : db.Stored) (filter : DebateRow → DebatesTags → Truth) :
    (selectDebates db filter).map Debate.id =
      (db.publicDebates.filter (db.passes filter)).map DebateRow.id := by
  rw [selectDebates_eq, List.map_map, List.map_filterMap, ← List.filterMap_eq_map,
    List.filterMap_filter]
  refine List.filterMap_congr fun d hd => ?_
  obtain ⟨-, t, ht, hid, hboard⟩ := mem_publicDebates.1 hd
  obtain ⟨u, hu, huid⟩ := hS.ticket_user t ht
  have hticket : db.tickets.find? d.ticketId = some t := SerialTable.find?_eq_some.2 ⟨ht, hid⟩
  have huser : db.users.find? t.createdBy = some u := SerialTable.find?_eq_some.2 ⟨hu, huid⟩
  unfold Database.joinedDebate Database.passes
  cases hdts : db.debateTagsRow d with
  | none => simp [hticket]
  | some dts =>
    cases hholds : (filter d dts).holds <;>
      simp [hticket, huser, hboard, hholds, Option.filter_some, Debate.ofRow]

/-- The list has no debate twice, and it has the public debates that meet the condition. -/
theorem selectDebates_exactly (hS : db.Stored) (filter : DebateRow → DebatesTags → Truth) :
    ((selectDebates db filter).map Debate.id).Nodup ∧
      ∀ n, n ∈ (selectDebates db filter).map Debate.id ↔
        ∃ d ∈ db.debates.rows, d.id = n ∧ db.DebateAccepted d ∧ db.passes filter d = true := by
  rw [selectDebates_ids hS]
  constructor
  · have hsub : (db.publicDebates.filter (db.passes filter)).Sublist db.debates.rows :=
      List.filter_sublist.trans List.filter_sublist
    exact db.debates.nodup.sublist (hsub.map _)
  · intro n
    simp only [List.mem_map, List.mem_filter, mem_publicDebates]
    constructor
    · rintro ⟨d, ⟨⟨hd, haccepted⟩, hpasses⟩, hid⟩
      exact ⟨d, hd, hid, haccepted, hpasses⟩
    · rintro ⟨d, hd, hid, haccepted, hpasses⟩
      exact ⟨d, ⟨⟨hd, haccepted⟩, hpasses⟩, hid⟩

/-! ## Arrays of ids -/

theorem mem_intercalate_comma {parts : List String} {c : Char}
    (h : c ∈ (",".intercalate parts).toList) : c = ',' ∨ ∃ part ∈ parts, c ∈ part.toList := by
  induction parts with
  | nil => exact absurd h (by simp)
  | cons part parts ih =>
    cases parts with
    | nil => exact Or.inr ⟨part, List.mem_singleton_self _, by simpa using h⟩
    | cons part' parts =>
      rw [String.intercalate_cons_cons, String.toList_append, String.toList_append,
        List.mem_append, List.mem_append] at h
      rcases h with (h | h) | h
      · exact Or.inr ⟨part, List.mem_cons_self .., h⟩
      · exact Or.inl (List.mem_singleton.1 h)
      · rcases ih h with h | ⟨part'', hmem, hc⟩
        · exact Or.inl h
        · exact Or.inr ⟨part'', List.mem_cons_of_mem _ hmem, hc⟩

/-- The requested ids are a text that the server accepts. -/
theorem text_intercalate_ids (ids : List Int) :
    text (",".intercalate (ids.map fun id => toString id)) =
      .ok (",".intercalate (ids.map fun id => toString id)) := by
  refine if_pos fun h => ?_
  rcases mem_intercalate_comma h with h | ⟨part, hpart, hc⟩
  · exact absurd h (by decide)
  · obtain ⟨id, -, rfl⟩ := List.mem_map.1 hpart
    rcases mem_toString hc with h | h <;> exact absurd h (by decide)

/-- The digits of a number determine it. -/
theorem toDigits_inj {m n : Nat} (h : Nat.toDigits 10 m = Nat.toDigits 10 n) : m = n := by
  rw [← Nat.ofDigitChars_ten_toDigits (n := m), h, Nat.ofDigitChars_ten_toDigits]

theorem minus_not_mem_toDigits (m : Nat) : '-' ∉ Nat.toDigits 10 m := fun h =>
  absurd (isDigit_of_mem_toDigits h) (by decide)

theorem toString_inj {m n : Int} : toString m = toString n ↔ m = n := by
  refine ⟨fun h => ?_, fun h => h ▸ rfl⟩
  replace h := congrArg String.toList h
  cases m with
  | ofNat m =>
    cases n with
    | ofNat n =>
      rw [toList_toString_ofNat, toList_toString_ofNat] at h
      rw [toDigits_inj h]
    | negSucc n =>
      rw [toList_toString_ofNat, toList_toString_negSucc] at h
      exact absurd (h ▸ List.mem_cons_self ..) (minus_not_mem_toDigits m)
  | negSucc m =>
    cases n with
    | ofNat n =>
      rw [toList_toString_negSucc, toList_toString_ofNat] at h
      exact absurd (h ▸ List.mem_cons_self ..) (minus_not_mem_toDigits n)
    | negSucc n =>
      rw [toList_toString_negSucc, toList_toString_negSucc] at h
      have hsucc := toDigits_inj (List.cons.inj h).2
      rw [Nat.succ.inj hsucc]

theorem toString_ne_empty (n : Int) : toString n ≠ "" := by
  intro h
  replace h := congrArg String.toList h
  cases n with
  | ofNat m =>
    rw [toList_toString_ofNat] at h
    exact Nat.toDigits_ne_nil h
  | negSucc m =>
    rw [toList_toString_negSucc] at h
    cases h

theorem stringToArray_ids {ids : List Int} (hne : ids ≠ []) :
    stringToArray (",".intercalate (ids.map fun id => toString id)) =
      ids.map fun id => toString id := by
  have hsplit : splitCommas (stringAgg (ids.map fun id => toString id)) =
      ids.map fun id => toString id := by
    rw [splitCommas_stringAgg_iff (by simpa using hne), List.forall_mem_map]
    exact fun id _ => comma_not_mem_toString id
  unfold stringToArray
  split
  · next hempty =>
    -- the one piece of the empty text is empty, and no number has the empty text
    unfold splitCommas stringAgg at hsplit
    rw [hempty, List.splitOn_nil] at hsplit
    have hmem : String.ofList [] ∈ ids.map fun id => toString id := by
      rw [← hsplit]
      exact List.mem_singleton_self _
    obtain ⟨id, -, hid⟩ := List.mem_map.1 hmem
    exact absurd hid (toString_ne_empty id)
  · exact hsplit

theorem mem_map_toString {ids : List Int} {n : Int} :
    toString n ∈ ids.map (fun id => toString id) ↔ n ∈ ids := by
  simp only [List.mem_map, toString_inj, exists_eq_right]

theorem arrayOverlap_ids {ids ids' : List Int} :
    arrayOverlap (ids.map fun id => toString id) (ids'.map fun id => toString id) = true ↔
      ∃ id ∈ ids, id ∈ ids' := by
  simp only [arrayOverlap, List.any_map, List.any_eq_true, Function.comp_apply,
    List.contains_iff_mem, mem_map_toString]

theorem arrayContains_ids {ids ids' : List Int} :
    arrayContains (ids.map fun id => toString id) (ids'.map fun id => toString id) = true ↔
      ∀ id ∈ ids', id ∈ ids := by
  simp only [arrayContains, List.all_map, List.all_eq_true, Function.comp_apply,
    List.contains_iff_mem, mem_map_toString]

/-! ## The filters -/

theorem mem_tagIds {n : Int} : n ∈ db.tagIds d ↔ n ∈ (db.tagsOf d).map DebateTagRow.id := by
  simp [Database.tagIds]

/-- The condition on the arrays says how the sets of ids are related. -/
theorem getTagFiltersSql_ids (db : Database) {requested : List Int} (hne : requested ≠ [])
    (strategy : TagsMatchingStrategy) :
    ∃ filter, getTagFiltersSql (tagFilters requested strategy) = .ok filter ∧
      ∀ d dts, db.debateTagsRow d = some dts →
        ((filter d dts).holds = true ↔
          strategy.Relates (db.tagIds d) {id | id ∈ requested}) := by
  have harray {d : DebateRow} {dts : DebatesTags} (h : db.debateTagsRow d = some dts) :
      stringToArray dts.tagsIds =
        ((db.tagsOf d).map DebateTagRow.id).map fun id => toString id := by
    unfold Database.debateTagsRow at h
    split at h
    · cases h
    · next gs hgs =>
      cases h
      rw [← stringToArray_ids (by simpa using hgs), List.map_map]
      rfl
  unfold getTagFiltersSql tagFilters
  simp only [text_intercalate_ids]
  cases strategy with
  | any =>
    refine ⟨_, rfl, fun d dts hdts => ?_⟩
    rw [Truth.holds_known, harray hdts, stringToArray_ids hne, arrayOverlap_ids]
    simp only [TagsMatchingStrategy.Relates, Set.Nonempty, Set.mem_inter_iff, Set.mem_ofPred_eq,
      mem_tagIds]
  | all =>
    refine ⟨_, rfl, fun d dts hdts => ?_⟩
    rw [Truth.holds_and, Truth.holds_known, Truth.holds_known, harray hdts,
      stringToArray_ids hne, Bool.and_eq_true, arrayContains_ids, arrayContains_ids]
    simp only [TagsMatchingStrategy.Relates, Set.ext_iff, Set.mem_ofPred_eq, mem_tagIds]
    constructor
    · rintro ⟨hsup, hsub⟩ id
      exact ⟨hsub id, hsup id⟩
    · intro heq
      exact ⟨fun id => (heq id).2, fun id => (heq id).1⟩

/-- A debate passes when it has a tag and its row meets the condition. -/
theorem passes_iff {filter : DebateRow → DebatesTags → Truth} {P : Prop}
    (hfilter : ∀ dts, db.debateTagsRow d = some dts → ((filter d dts).holds = true ↔ P)) :
    db.passes filter d = true ↔ db.tagsOf d ≠ [] ∧ P := by
  have hrow : db.tagsOf d ≠ [] ↔ db.debateTagsRow d ≠ none := by
    unfold Database.debateTagsRow
    cases db.tagsOf d <;> simp
  rw [hrow, Database.passes]
  cases hdts : db.debateTagsRow d with
  | none => simp
  | some dts => simpa using hfilter dts hdts

/-- The filter for tags, with or without a query string. -/
theorem applyDebateFilters_ids (db : Database) {requested : List Int} (hne : requested ≠ [])
    {queryStr : Option String} (htext : ∀ q ∈ queryStr, IsText q)
    (strategy : TagsMatchingStrategy) :
    ∃ filter, applyDebateFilters db.lower ⟨queryStr, some (tagFilters requested strategy)⟩ =
        some (.ok filter) ∧
      ∀ d, db.passes filter d = true ↔ db.tagsOf d ≠ [] ∧
        strategy.Relates (db.tagIds d) {id | id ∈ requested} ∧ db.TitleMatches queryStr d := by
  obtain ⟨filter, hfilter, hrelates⟩ := getTagFiltersSql_ids db hne strategy
  unfold applyDebateFilters
  by_cases hgiven : ∃ q ∈ queryStr, q ≠ ""
  · obtain ⟨q, rfl, hq⟩ := hgiven
    have hquery : getQueryStrSql db.lower q =
        .ok fun d _ => .known (ilike db.lower d.title ("%" ++ q ++ "%")) := by
      simp only [getQueryStrSql, text, if_pos (htext q rfl)]
    have hgiven : (some q).filter (· ≠ "") = some q := by simp [Option.filter_some, hq]
    simp only [hgiven, hquery, hfilter]
    refine ⟨_, rfl, fun d => passes_iff fun dts hdts => ?_⟩
    rw [Truth.holds_and, Truth.holds_known, Bool.and_eq_true, hrelates d dts hdts, and_comm]
    simp [Database.TitleMatches, hq]
  · have hnone : queryStr.filter (· ≠ "") = none := by
      rw [Option.filter_eq_none_iff]
      simpa using hgiven
    simp only [hnone, hfilter]
    refine ⟨_, rfl, fun d => passes_iff fun dts hdts => ?_⟩
    rw [hrelates d dts hdts]
    exact (and_iff_left fun q hmem hq => absurd ⟨q, hmem, hq⟩ hgiven).symm

/-- A query string with a NUL character is an error, whatever else is requested. -/
theorem getAll_of_nul (db : Database) {q : String} (hq : ¬ IsText q) (tags : Option TagFilters) :
    getAll (some ⟨some q, tags⟩) db =
      .error (.error "An error occurred while fetching the debates.") := by
  have hgiven : (some q).filter (· ≠ "") = some q := by
    refine Option.filter_eq_some_iff.2 ⟨rfl, decide_eq_true ?_⟩
    rintro rfl
    exact hq (by decide)
  have hquery : getQueryStrSql db.lower q = .error .invalidText := by
    simp only [getQueryStrSql, text, if_neg hq]
  cases tags with
  | none => simp only [getAll, applyDebateFilters, hgiven, hquery]
  | some tags =>
    simp only [getAll, applyDebateFilters, hgiven, hquery]
    rfl

theorem getAll_of_text_query (h : db.Reachable) {requested : List Int} (hne : requested ≠ [])
    {queryStr : Option String} (htext : ∀ q ∈ queryStr, IsText q)
    (strategy : TagsMatchingStrategy) :
    ∃ debates, getAll (some ⟨queryStr, some (tagFilters requested strategy)⟩) db = .ok debates ∧
      (debates.map Debate.id).Nodup ∧
        ∀ n, n ∈ debates.map Debate.id ↔
          ∃ d, d.id = n ∧ db.Requested queryStr requested strategy d := by
  obtain ⟨filter, hfilter, hpasses⟩ := applyDebateFilters_ids db hne htext strategy
  have hget : getAll (some ⟨queryStr, some (tagFilters requested strategy)⟩) db =
      .ok (selectDebates db filter) := by
    simp only [getAll, hfilter]
  obtain ⟨hnodup, hmem⟩ := selectDebates_exactly h.stored filter
  refine ⟨_, hget, hnodup, fun n => (hmem n).trans ?_⟩
  constructor
  · rintro ⟨d, hd, hid, haccepted, hpass⟩
    obtain ⟨htagged, htags, htitle⟩ := (hpasses d).1 hpass
    exact ⟨d, hid, hd, haccepted, htagged, htags, htitle⟩
  · rintro ⟨d, hid, hd, haccepted, htagged, htags, htitle⟩
    exact ⟨d, hd, hid, haccepted, (hpasses d).2 ⟨htagged, htags, htitle⟩⟩

/-- **Filtering by tags.** Without a NUL character in the query string, the list has each debate
    that is requested, once, and no other; with one, there is an error and no list. -/
theorem getAll_by_tags (h : db.Reachable) {requested : List Int} (hne : requested ≠ [])
    (queryStr : Option String) (strategy : TagsMatchingStrategy) :
    ((∀ q ∈ queryStr, IsText q) →
      ∃ debates, getAll (some ⟨queryStr, some (tagFilters requested strategy)⟩) db = .ok debates ∧
        (debates.map Debate.id).Nodup ∧
          ∀ n, n ∈ debates.map Debate.id ↔
            ∃ d, d.id = n ∧ db.Requested queryStr requested strategy d) ∧
    ((∃ q ∈ queryStr, ¬ IsText q) →
      getAll (some ⟨queryStr, some (tagFilters requested strategy)⟩) db =
        .error (.error "An error occurred while fetching the debates.")) := by
  constructor
  · exact fun htext => getAll_of_text_query h hne htext strategy
  · rintro ⟨q, rfl, hq⟩
    exact getAll_of_nul db hq _

/-- Debate 1 with the tags 1 and 2, accepted. -/
def publishTagged : Database :=
  run step (proposeTagged ["health", "law"])
    [.updateTicket ⟨2, 1, "IN REVIEW"⟩, .approveTicket moderatorOne 1]

theorem publishTagged_reachable : publishTagged.Reachable :=
  Database.Reachable.run (Database.reachable_run _ _) _

theorem getAll_by_tags_sample :
    (∃ debates, getAll (some ⟨some "acc", some (tagFilters [2, 1, 2] .all)⟩) publishTagged =
        .ok debates ∧
      (debates.map Debate.id).Nodup ∧
        ∀ n, n ∈ debates.map Debate.id ↔
          ∃ d, d.id = n ∧ publishTagged.Requested (some "acc") [2, 1, 2] .all d) ∧
      getAll (some ⟨some "a\x00", some (tagFilters [2] .any)⟩) publishTagged =
        .error (.error "An error occurred while fetching the debates.") :=
  ⟨(getAll_by_tags publishTagged_reachable (by decide) (some "acc") .all).1 (by decide),
    (getAll_by_tags publishTagged_reachable (by decide) (some "a\x00") .any).2
      ⟨_, rfl, by decide⟩⟩

example : getAll (some ⟨some "acc", some (tagFilters [2, 1, 2] .all)⟩) publishTagged =
    .ok [⟨1, "Vaccines", 1, 1, "moderator-user", 1, "health,law", "1,2"⟩] := by decide +kernel

/-- The server takes no text with a NUL character. -/
theorem nul_in_query_rejected :
    ¬ ∀ (db : Database) (requested : List Int) (queryStr : Option String)
        (strategy : TagsMatchingStrategy), db.Reachable → requested ≠ [] →
      ∃ debates, getAll (some ⟨queryStr, some (tagFilters requested strategy)⟩) db = .ok debates ∧
        (debates.map Debate.id).Nodup ∧
          ∀ n, n ∈ debates.map Debate.id ↔
            ∃ d, d.id = n ∧ db.Requested queryStr requested strategy d := by
  intro h
  obtain ⟨debates, hget, -⟩ :=
    h publishTagged [1] (some "\x00") .any publishTagged_reachable (by decide)
  have herror : getAll (some ⟨some "\x00", some (tagFilters [1] .any)⟩) publishTagged =
      .error (.error "An error occurred while fetching the debates.") := by rfl
  rw [herror] at hget
  cases hget

end DecentDebates

import DecentDebates.FilterQueries
import DecentDebates.Lib.JsonTexts

set_option autoImplicit false

/-! # Filter queries that can be executed: proofs

First the parameters of every condition the service can build, then what the pipe makes of the three
members. -/

namespace DecentDebates

open Json

variable {members : List (String × Value)} {queryStr tags tagsMatch : Option String}
  {text : Value → String}

/-! ## Conditions -/

/-- The filters of two texts, which are not empty, and a strategy. -/
def filtersOfTexts (queryStr tags : Option String) (strategy : MatchingStrategy) : ParsedFilters where
  queryStr := (queryStr.filter (· ≠ "")).map .string
  tags := (tags.filter (· ≠ "")).map fun tags => ⟨.string tags, strategy⟩

theorem given_cases (t : Option String) :
    ¬ Given t ∧ t.filter (· ≠ "") = none ∨ Given t ∧ ∃ s, t.filter (· ≠ "") = some s ∧ s ≠ "" := by
  cases t with
  | none => exact Or.inl ⟨fun h => h rfl, rfl⟩
  | some s =>
    by_cases hs : s = ""
    · exact Or.inl ⟨fun h => h hs, by simp [hs]⟩
    · exact Or.inr ⟨hs, s, by simp [hs], hs⟩

theorem queryStrFilter_string (text : Value → String) {q : String} (hq : q ≠ "")
    (tags : Option ParsedTags) :
    ParsedFilters.queryStrFilter text ⟨some (.string q), tags⟩ =
      .ok (some (.string ("%" ++ q ++ "%"))) := by
  simp only [ParsedFilters.queryStrFilter, JsValue.truthy, hq, ne_eq, not_false_eq_true,
    decide_true, if_true]
  rfl

/-- A statement with its values: the values are numbered. -/
def Numbered (statement : Except String (String × List Value)) : Prop :=
  ∃ sql values, statement = .ok (sql, values) ∧
    placeholders none sql.toList = List.range' 1 values.length

theorem numbered_ok {sql : String} {values : List Value} :
    Numbered (.ok (sql, values)) ↔
      placeholders none sql.toList = List.range' 1 values.length := by
  constructor
  · rintro ⟨sql, values, h, hnumbered⟩
    cases h
    exact hnumbered
  · intro hnumbered
    exact ⟨sql, values, rfl, hnumbered⟩

theorem not_numbered_error {e : String} : ¬ Numbered (.error e) := by
  rintro ⟨sql, values, h, -⟩
  cases h

/-- The parameters of a condition on tags: one for the strategy ANY, two for any other. -/
def tagPlaceholders (strategy : MatchingStrategy) (n : Nat) : List Nat :=
  if strategy = .any then [n] else [n, n + 1]

theorem placeholders_getTagFiltersSql (values : Value) (strategy : MatchingStrategy) :
    (∃ sql, ParsedFilters.getTagFiltersSql (some ⟨values, strategy⟩) 1 = .ok sql ∧
      placeholders none sql.toList = tagPlaceholders strategy 1) ∧
    ∃ sql, ParsedFilters.getTagFiltersSql (some ⟨values, strategy⟩) 2 = .ok sql ∧
      placeholders none ("d.title::text ilike $1" ++ " and " ++ sql).toList =
        1 :: tagPlaceholders strategy 2 := by
  cases strategy <;>
    exact ⟨⟨_, rfl, by decide +kernel⟩, _, rfl, by decide +kernel⟩

/-- The values are as many as the parameters, unless the strategy is inherited. -/
theorem tagPlaceholders_eq_iff (values : Value) (strategy : MatchingStrategy) (n : Nat) :
    tagPlaceholders strategy n =
        List.range' n (ParsedFilters.tagValues ⟨values, strategy⟩).length ↔
      strategy ≠ .inherited := by
  cases strategy <;> simp [tagPlaceholders, ParsedFilters.tagValues, List.range']

/-- A condition on the title alone. -/
theorem numbered_title (text : Value → String) {q : String} (hq : q ≠ "") :
    Numbered (ParsedFilters.applyDebateFilters text ⟨some (.string q), none⟩) := by
  unfold ParsedFilters.applyDebateFilters
  rw [queryStrFilter_string text hq]
  have hone : placeholders none "d.title::text ilike $1".toList = List.range' 1 1 := by
    decide +kernel
  exact numbered_ok.2 hone

theorem numbered_tags_iff (text : Value → String) (values : Value) (strategy : MatchingStrategy) :
    Numbered (ParsedFilters.applyDebateFilters text ⟨none, some ⟨values, strategy⟩⟩) ↔
      strategy ≠ .inherited := by
  obtain ⟨⟨sql, hsql, hnumbers⟩, -⟩ := placeholders_getTagFiltersSql values strategy
  have hquery : ParsedFilters.queryStrFilter text ⟨none, some ⟨values, strategy⟩⟩ = .ok none := rfl
  unfold ParsedFilters.applyDebateFilters
  rw [hquery]
  simp only [bind, Except.bind, pure, Except.pure, hsql]
  rw [numbered_ok, hnumbers, tagPlaceholders_eq_iff]

theorem numbered_title_tags_iff (text : Value → String) {q : String} (hq : q ≠ "")
    (values : Value) (strategy : MatchingStrategy) :
    Numbered (ParsedFilters.applyDebateFilters text
        ⟨some (.string q), some ⟨values, strategy⟩⟩) ↔
      strategy ≠ .inherited := by
  obtain ⟨-, sql, hsql, hnumbers⟩ := placeholders_getTagFiltersSql values strategy
  unfold ParsedFilters.applyDebateFilters
  rw [queryStrFilter_string text hq]
  simp only [bind, Except.bind, pure, Except.pure, hsql]
  rw [numbered_ok, hnumbers, List.length_cons, List.range'_succ, List.cons.injEq]
  exact (and_iff_right rfl).trans (tagPlaceholders_eq_iff values strategy 2)

/-- Without a query and without tags the construction throws. -/
theorem not_numbered_none (text : Value → String) :
    ¬ Numbered (ParsedFilters.applyDebateFilters text ⟨none, none⟩) :=
  not_numbered_error

theorem numbered_filtersOfTexts_iff (text : Value → String) (queryStr tags : Option String)
    (strategy : MatchingStrategy) :
    Numbered ((filtersOfTexts queryStr tags strategy).applyDebateFilters text) ↔
      (Given queryStr ∨ Given tags) ∧ (Given tags → strategy ≠ .inherited) := by
  unfold filtersOfTexts
  rcases given_cases queryStr with ⟨hq, hqf⟩ | ⟨hq, q, hqf, hne⟩ <;>
    rcases given_cases tags with ⟨ht, htf⟩ | ⟨ht, t, htf, -⟩ <;>
    simp only [hq, ht, hqf, htf, Option.map_none, Option.map_some]
  · simpa using not_numbered_none text
  · simpa using numbered_tags_iff text (.string t) strategy
  · simpa using numbered_title text hne
  · simpa using numbered_title_tags_iff text hne (.string t) strategy

/-! ## The pipe -/

/-- `tagsMatchingStrategyMap[…] ?? TagsMatchingStrategy.ANY` for a string. -/
def lookedUp (tagsMatch : Option String) : MatchingStrategy :=
  (tagsMatch.bind tagsMatchingStrategyMap).getD .any

/-- The lookup finds something else than a strategy under an inherited name. -/
theorem lookedUp_eq_inherited_iff (tagsMatch : Option String) :
    lookedUp tagsMatch = .inherited ↔ ∃ name ∈ tagsMatch, name ∈ objectPrototype := by
  cases tagsMatch with
  | none => simp [lookedUp]
  | some name =>
    have hany : "any" ∉ objectPrototype := by decide
    have hall : "all" ∉ objectPrototype := by decide
    simp only [lookedUp, Option.bind_some, tagsMatchingStrategyMap, Option.mem_some_iff]
    split
    · next h => simp [h, hany]
    · split
      · next h => simp [h, hall]
      · split <;> simp_all

theorem lookedUp_eq_strategyOf_iff (tagsMatch : Option String) :
    lookedUp tagsMatch = strategyOf tagsMatch ↔ lookedUp tagsMatch ≠ .inherited := by
  cases tagsMatch with
  | none => simp [lookedUp, strategyOf]
  | some name =>
    simp only [lookedUp, strategyOf, Option.bind_some, tagsMatchingStrategyMap, Option.some.injEq]
    by_cases hany : name = "any"
    · simp [hany]
    · by_cases hall : name = "all"
      · simp [hall]
      · by_cases hproto : name ∈ objectPrototype <;> simp [hany, hall, hproto]

theorem matchingStrategy_string (tagsMatch : Option String) :
    matchingStrategy (tagsMatch.map .string) = .ok (lookedUp tagsMatch) := by
  cases tagsMatch <;> rfl

theorem truthy_string (s : String) : JsValue.truthy (some (.string s)) = decide (s ≠ "") := rfl

namespace FilterMembers

variable (h : FilterMembers members queryStr tags tagsMatch)

include h

theorem filterTags_eq : DebatesQueryPipe.filterTags (.object members) =
    .ok (filtersOfTexts queryStr tags (lookedUp tagsMatch)).tags := by
  unfold DebatesQueryPipe.filterTags filtersOfTexts
  rw [h.tags, h.tagsMatch, matchingStrategy_string]
  cases tags with
  | none => rfl
  | some t =>
    simp only [Option.map_some, truthy_string]
    by_cases ht : t = "" <;> simp [ht, Option.filter_some]

theorem rawQueryStr_eq : DebatesQueryPipe.rawQueryStr (.object members) =
    ((queryStr.filter (· ≠ "")).map .string, decide (queryStr = some "")) := by
  unfold DebatesQueryPipe.rawQueryStr
  rw [h.queryStr]
  cases queryStr with
  | none => rfl
  | some q =>
    simp only [Option.map_some, truthy_string]
    by_cases hq : q = "" <;> simp [hq, Option.filter_some]

/-- Nothing is left of the object when there was at most an empty query string in it. -/
theorem rest_isEmpty_iff :
    (if decide (queryStr = some "") then members.filter fun m => m.1 ≠ "queryStr"
        else members).isEmpty = true ↔
      ¬ Given queryStr ∧ ∀ m ∈ members, m.1 = "queryStr" := by
  have hmember := h.queryStr
  unfold Value.member? at hmember
  cases queryStr with
  | none =>
    -- no member has the key, so none may be left
    have hkey : ∀ m ∈ members, m.1 ≠ "queryStr" := by simpa using hmember
    cases members with
    | nil => simp [Given]
    | cons m ms => simp [hkey m (List.mem_cons_self ..)]
  | some q =>
    by_cases hq : q = ""
    · simp [hq, Given]
    · have hne : members ≠ [] := by
        rintro rfl
        simp at hmember
      simp [hq, hne, Given]

theorem filtersOf_of_rest (hrest : ¬ Given queryStr ∧ ∀ m ∈ members, m.1 = "queryStr") :
    DebatesQueryPipe.filtersOf (.object members) = .ok none := by
  simp only [DebatesQueryPipe.filtersOf, h.rawQueryStr_eq]
  rw [if_pos (h.rest_isEmpty_iff.2 hrest)]

theorem filtersOf_of_not_rest (hrest : ¬ (¬ Given queryStr ∧ ∀ m ∈ members, m.1 = "queryStr")) :
    DebatesQueryPipe.filtersOf (.object members) =
      .ok (some (filtersOfTexts queryStr tags (lookedUp tagsMatch))) := by
  simp only [DebatesQueryPipe.filtersOf, h.rawQueryStr_eq, h.filterTags_eq]
  rw [if_neg (mt h.rest_isEmpty_iff.1 hrest)]
  rfl

end FilterMembers

/-! ## The pipe and the service -/

theorem transform_of_parse {encodedQuery : List Char} {rawFilters : Value}
    (hparse : parse (Utf8.decode (Base64.decode encodedQuery)) = some rawFilters) :
    DebatesQueryPipe.transform (some encodedQuery) = DebatesQueryPipe.filtersOf rawFilters := by
  have hne : encodedQuery.isEmpty = false := by
    cases encodedQuery with
    | nil => exact nomatch hparse
    | cons c s => rfl
  simp only [DebatesQueryPipe.transform, hne, hparse]
  rfl

/-- The filters are executable when they have a text, and no inherited name as their strategy. -/
theorem executable_filtersOfTexts_iff :
    (filtersOfTexts queryStr tags (lookedUp tagsMatch)).Executable text tagsMatch ↔
      (Given queryStr ∨ Given tags) ∧
        (Given tags → ∀ name ∈ tagsMatch, name ∉ objectPrototype) := by
  have hinherited : (∀ name ∈ tagsMatch, name ∉ objectPrototype) ↔
      lookedUp tagsMatch ≠ .inherited := by
    rw [Ne, lookedUp_eq_inherited_iff]
    push Not
    rfl
  have hstrategy : (∀ t ∈ (filtersOfTexts queryStr tags (lookedUp tagsMatch)).tags,
      t.matchingStrategy = strategyOf tagsMatch) ↔ (Given tags → lookedUp tagsMatch ≠ .inherited) := by
    rw [← lookedUp_eq_strategyOf_iff]
    unfold filtersOfTexts
    rcases given_cases tags with ⟨ht, htf⟩ | ⟨ht, t, htf, -⟩
    · rw [htf]
      exact ⟨fun _ hgiven => absurd hgiven ht, fun _ t ht => nomatch ht⟩
    · simp only [htf, Option.map_some, Option.mem_some_iff, forall_eq', ht, true_imp_iff]
  have hnumbered := numbered_filtersOfTexts_iff text queryStr tags (lookedUp tagsMatch)
  rw [hinherited]
  constructor
  · intro h
    exact hnumbered.1 h.placeholders
  · intro h
    exact ⟨hstrategy.2 h.2, hnumbered.2 h⟩

/-- **Filter queries.** The query is executed exactly when nothing but an empty query string is in
    it, or it has a query string or tags and, with tags, no inherited name as the strategy. -/
theorem query_executes_iff (text : Value → String) {encodedQuery : List Char}
    (hparse : parse (Utf8.decode (Base64.decode encodedQuery)) = some (.object members))
    (h : FilterMembers members queryStr tags tagsMatch) :
    QueryExecutes text encodedQuery tagsMatch ↔
      (¬ Given queryStr ∧ ∀ m ∈ members, m.1 = "queryStr") ∨
        (Given queryStr ∨ Given tags) ∧
          (Given tags → ∀ name ∈ tagsMatch, name ∉ objectPrototype) := by
  unfold QueryExecutes
  rw [transform_of_parse hparse]
  by_cases hrest : ¬ Given queryStr ∧ ∀ m ∈ members, m.1 = "queryStr"
  · rw [h.filtersOf_of_rest hrest]
    exact ⟨fun _ => Or.inl hrest, fun _ => ⟨none, rfl, fun f hf => nomatch hf⟩⟩
  · rw [h.filtersOf_of_not_rest hrest, or_iff_right hrest, ← executable_filtersOfTexts_iff]
    constructor
    · rintro ⟨filters, hfilters, hexecutable⟩
      exact hexecutable _ (Except.ok.inj hfilters ▸ rfl)
    · intro hexecutable
      refine ⟨_, rfl, fun f hf => ?_⟩
      obtain rfl := Option.some.inj hf
      exact hexecutable

/-- A query, tags and a strategy. -/
theorem query_executes_sample :
    QueryExecutes (fun _ => "")
      "eyJxdWVyeVN0ciI6ImZsdSIsInRhZ3MiOiIyLDMiLCJ0YWdzX21hdGNoIjoiYWxsIn0=".toList
      (some "all") := by
  have htext : Utf8.decode (Base64.decode
      "eyJxdWVyeVN0ciI6ImZsdSIsInRhZ3MiOiIyLDMiLCJ0YWdzX21hdGNoIjoiYWxsIn0=".toList) =
        (Value.object [("queryStr", .string "flu"), ("tags", .string "2,3"),
          ("tags_match", .string "all")]).print := by decide +kernel
  have hmembers : FilterMembers [("queryStr", .string "flu"), ("tags", .string "2,3"),
      ("tags_match", .string "all")] (some "flu") (some "2,3") (some "all") := ⟨rfl, rfl, rfl⟩
  refine (query_executes_iff _ (htext ▸ parse_print _) hmembers).2 (Or.inr ⟨?_, ?_⟩)
  · exact Or.inl (by decide)
  · decide

/-- A strategy without tags, as the form sends it when no tag is selected. -/
theorem strategy_alone_not_executed :
    ¬ ∀ (text : Value → String) (encodedQuery : List Char) (members : List (String × Value))
        (queryStr tags tagsMatch : Option String),
      parse (Utf8.decode (Base64.decode encodedQuery)) = some (.object members) →
        FilterMembers members queryStr tags tagsMatch → QueryExecutes text encodedQuery tagsMatch := by
  intro h
  have htext : Utf8.decode (Base64.decode "eyJ0YWdzX21hdGNoIjoiYW55In0=".toList) =
      (Value.object [("tags_match", .string "any")]).print := by decide +kernel
  have hparse : parse (Utf8.decode (Base64.decode "eyJ0YWdzX21hdGNoIjoiYW55In0=".toList)) =
      some (.object [("tags_match", .string "any")]) := htext ▸ parse_print _
  have hmembers : FilterMembers [("tags_match", .string "any")] none none (some "any") :=
    ⟨rfl, rfl, rfl⟩
  obtain ⟨filters, hfilters, hexecutable⟩ := h (fun _ => "") _ _ none none _ hparse hmembers
  rw [transform_of_parse hparse, hmembers.filtersOf_of_not_rest (by decide)] at hfilters
  obtain rfl := Except.ok.inj hfilters
  have hsome := hexecutable _ rfl
  exact absurd (executable_filtersOfTexts_iff.1 hsome).1 (by decide)

end DecentDebates

import DecentDebates.Entities.DebatesQueryPipe

set_option autoImplicit false

/-! # Filter queries that can be executed

The pipe makes filters of a JSON object, and the service makes a condition of the filters and the
values for its parameters. The statement can be run if its parameters are numbered as the driver
numbers the values: from 1 on, one for each value. -/

namespace DecentDebates

open Json

/-- The numbers of the parameters in a statement, or in what follows an opening quote. Quoted text
    has no parameters. -/
def placeholders : Option Char → List Char → List Nat
  | _, [] => []
  | some quote, c :: s => placeholders (if c = quote then none else some quote) s
  | none, c :: s =>
    if c = '\'' ∨ c = '"' then placeholders (some c) s
    else if c = '$' ∧ s.head?.any Char.isDigit then
      Nat.ofDigitChars 10 (s.takeWhile Char.isDigit) 0 :: placeholders none s
    else placeholders none s

/-- The object's members that the pipe reads are these strings, each present or absent. -/
structure FilterMembers (members : List (String × Value))
    (queryStr tags tagsMatch : Option String) : Prop where
  queryStr : (Value.object members).member? "queryStr" = queryStr.map .string
  tags : (Value.object members).member? "tags" = tags.map .string
  tagsMatch : (Value.object members).member? "tags_match" = tagsMatch.map .string

/-- The text is present and not empty. -/
def Given (t : Option String) : Prop := t.getD "" ≠ ""

instance (t : Option String) : Decidable (Given t) := inferInstanceAs (Decidable (_ ≠ _))

/-- Any name but `all` stands for the strategy ANY. -/
def strategyOf (tagsMatch : Option String) : MatchingStrategy :=
  if tagsMatch = some "all" then .all else .any

/-- The filters have the strategy that was asked for, and they make a condition with as many
    parameters as values. -/
structure ParsedFilters.Executable (text : Value → String) (tagsMatch : Option String)
    (filters : ParsedFilters) : Prop where
  strategy : ∀ tags ∈ filters.tags, tags.matchingStrategy = strategyOf tagsMatch
  placeholders : ∃ sql values, filters.applyDebateFilters text = .ok (sql, values) ∧
    placeholders none sql.toList = List.range' 1 values.length

/-- Nothing is thrown: the parameter `q` gives no filters, or filters that can be executed. -/
def QueryExecutes (text : Value → String) (encodedQuery : List Char) (tagsMatch : Option String) :
    Prop :=
  ∃ filters, DebatesQueryPipe.transform (some encodedQuery) = .ok filters ∧
    ∀ f ∈ filters, f.Executable text tagsMatch

end DecentDebates

import DecentDebates.JsValues

set_option autoImplicit false

/-! # Filters as they are parsed (`debates-query.pipe.ts`, `debates.service.ts`)

`Entities.DebatesQueries` has the filters whose values are texts. The pipe takes them from a JSON
text without looking at their types, and `applyDebateFilters` is the first to do so. As in
`JsValues`, no value is nested deeper than the engine's stack allows. -/

namespace DecentDebates

open Json

/-- A strategy, or what `tagsMatchingStrategyMap` inherits under the name that was asked for. -/
inductive MatchingStrategy where
  | all
  | any
  | inherited
deriving DecidableEq, Repr

structure ParsedTags where
  values : Value
  matchingStrategy : MatchingStrategy

structure ParsedFilters where
  queryStr : JsValue
  tags : Option ParsedTags

namespace ParsedFilters

/-- The conditions on tags, from a parameter's number on. -/
def getTagFiltersSql (tags : Option ParsedTags) (parameterizedIdx : Nat) : Except String String :=
  match tags with
  | none => .error "Cannot read properties of null (reading 'matchingStrategy')"
  | some tags =>
    let parameter (n : Nat) := "string_to_array($" ++ toString n ++ ", ',')"
    let tagsIds := "string_to_array(dts.\"tagsIds\", ',')"
    if tags.matchingStrategy = .any then .ok (tagsIds ++ " && " ++ parameter parameterizedIdx)
    else .ok (tagsIds ++ " @> " ++ parameter parameterizedIdx ++ " and " ++
      tagsIds ++ " <@ " ++ parameter (parameterizedIdx + 1))

/-- `[filters.tags.values, …]` -/
def tagValues (tags : ParsedTags) : List Value :=
  tags.values :: if tags.matchingStrategy = .all then [tags.values] else []

/-- `` `%${queryStr}%` ``, where `text` is the text of a value that is no string. -/
def pattern (text : Value → String) : Value → Except String Value
  | .string s => .ok (.string ("%" ++ s ++ "%"))
  | v =>
    if hasText v then .ok (.string ("%" ++ text v ++ "%"))
    else .error "Cannot convert object to primitive value"

/-- `filters.queryStr ? … : null` -/
def queryStrFilter (text : Value → String) (filters : ParsedFilters) :
    Except String (Option Value) :=
  match filters.queryStr with
  | none => .ok none
  | some v => if JsValue.truthy (some v) then (pattern text v).map some else .ok none

/-- The condition, and the values of its parameters. -/
def applyDebateFilters (text : Value → String) (filters : ParsedFilters) :
    Except String (String × List Value) := do
  let title := "d.title::text ilike $1"
  match ← queryStrFilter text filters, filters.tags with
  | some queryStr, some tags =>
    let sql ← getTagFiltersSql (some tags) 2
    return (title ++ " and " ++ sql, queryStr :: tagValues tags)
  | some queryStr, none => return (title, [queryStr])
  | none, some tags =>
    let sql ← getTagFiltersSql (some tags) 1
    return (sql, tagValues tags)
  | none, none =>
    let sql ← getTagFiltersSql none 1
    return (sql, [])

end ParsedFilters

end DecentDebates

import DecentDebates.Entities.DebateFilters
import DecentDebates.Entities.DebatesQueries
import DecentDebates.Lib.Base64
import DecentDebates.Lib.Utf8

set_option autoImplicit false

/-! # Filters on their way to the server (`DebateFilters.tsx`, `debate.ts`, `debates-query.pipe.ts`)

The form applies filters, the client sends them as the base64 text of a JSON object in the parameter
`q`, and the pipe decodes them. Texts in transit are lists of characters. What is parsed is not
nested deeper than the engine's stack allows. -/

namespace DecentDebates

open Json

inductive Thrown where
  | invalidCharacterError
  | syntaxError
  | typeError
deriving DecidableEq, Repr

/-! ## The client -/

structure AppliedDebateFilters where
  query : Option String
  tags : Option (List String)
  tagsMatch : Option String
deriving DecidableEq, Repr

/-- The state of the form. The input and the tags are missing while they are not mounted. -/
structure DebateFiltersForm where
  inputValue : Option String
  selectedTags : Option (List Int)
  shouldUseTagsFilter : Bool
  tagsMatchingStrategy : TagsMatchingStrategy
deriving DecidableEq, Repr

def TagsMatchingStrategy.name : TagsMatchingStrategy → String
  | .all => "all"
  | .any => "any"

namespace DebateFiltersForm

def getFilterTags (form : DebateFiltersForm) : Option (List String) :=
  match form.selectedTags with
  | none => none
  | some tags => if tags.isEmpty then none else some (tags.map fun id => toString id)

def applyFilters (form : DebateFiltersForm) : AppliedDebateFilters where
  query := form.inputValue
  tags := if form.shouldUseTagsFilter then form.getFilterTags else none
  tagsMatch := if form.shouldUseTagsFilter then some form.tagsMatchingStrategy.name else none

end DebateFiltersForm

/-- `if (text) queryParams[key] = text` -/
def textParam (key : String) : Option String → List (String × Value)
  | some text => if text = "" then [] else [(key, .string text)]
  | none => []

/-- `if (tags) queryParams.tags = tags.join(",")`, for a list of tags is truthy even if it is
    empty. -/
def tagsParam : Option (List String) → List (String × Value)
  | some tags => [("tags", .string (",".intercalate tags))]
  | none => []

/-- The members of `queryParams`. -/
def queryParams (filters : AppliedDebateFilters) : List (String × Value) :=
  textParam "queryStr" filters.query ++ tagsParam filters.tags ++
    textParam "tags_match" filters.tagsMatch

/-- One byte for each character, if its code point is one. -/
def btoa (text : List Char) : Except Thrown (List Char) :=
  if text.all fun c => c.toNat < 0x100 then .ok (Base64.encode (text.map Char.toNat))
  else .error .invalidCharacterError

/-- The URL that is requested. -/
def fetchDebatesWithFilters (filters : AppliedDebateFilters) : Except Thrown (List Char) := do
  let encodedQueryParams ← btoa (Value.object (queryParams filters)).print
  return "/debates?q=".toList ++ encodedQueryParams

/-! ## The server -/

/-- The parameter `q` of a URL that goes on with nothing behind it: what follows the first `=`, where
    a `+` stands for a space. -/
def queryParam (url : List Char) : List Char :=
  (url.dropWhile fun c => c ≠ '=').tail.map fun c => if c = '+' then ' ' else c

/-- The names that every object inherits a value for. -/
def objectPrototype : List String :=
  ["constructor", "__defineGetter__", "__defineSetter__", "hasOwnProperty", "__lookupGetter__",
    "__lookupSetter__", "isPrototypeOf", "propertyIsEnumerable", "toString", "valueOf", "__proto__",
    "toLocaleString"]

def tagsMatchingStrategyMap (name : String) : Option MatchingStrategy :=
  if name = "any" then some .any
  else if name = "all" then some .all
  else if name ∈ objectPrototype then some .inherited
  else none

/-- `tagsMatchingStrategyMap[v]`: an array with one element has the element's text, and the text of
    a value that is no string is no name in the map. -/
def strategyNamed : Value → Option MatchingStrategy
  | .string name => tagsMatchingStrategyMap name
  | .array [v] => strategyNamed v
  | _ => none

/-- `tagsMatchingStrategyMap[v] ?? TagsMatchingStrategy.ANY` -/
def matchingStrategy : JsValue → Except Thrown MatchingStrategy
  | none => .ok .any
  | some v => if hasText v then .ok ((strategyNamed v).getD .any) else .error .typeError

namespace DebatesQueryPipe

/-- `filters.tags`, unless it is deleted. -/
def filterTags (rawFilters : Value) : Except Thrown (Option ParsedTags) :=
  match rawFilters.member? "tags" with
  | none => .ok none
  | some tags =>
    if JsValue.truthy (some tags) then do
      let strategy ← matchingStrategy (rawFilters.member? "tags_match")
      return some ⟨tags, strategy⟩
    else .ok none

/-- `queryStr` as it is left in `rawFilters`, and whether it was deleted. -/
def rawQueryStr (rawFilters : Value) : JsValue × Bool :=
  match rawFilters.member? "queryStr" with
  | none => (none, false)
  | some queryStr => if JsValue.truthy (some queryStr) then (some queryStr, false) else (none, true)

/-- The filters of a parsed value. An array has none of the members, and `in` throws for a value
    that is no object. -/
def filtersOf (rawFilters : Value) : Except Thrown (Option ParsedFilters) :=
  match rawFilters with
  | .object members =>
    let (queryStr, deleted) := rawQueryStr rawFilters
    let members := if deleted then members.filter fun m => m.1 ≠ "queryStr" else members
    if members.isEmpty then .ok none
    else do
      let tags ← filterTags rawFilters
      return some ⟨queryStr, tags⟩
  | .array elements => .ok (if elements.isEmpty then none else some ⟨none, none⟩)
  | _ => .error .typeError

def transform (encodedQuery : Option (List Char)) : Except Thrown (Option ParsedFilters) :=
  match encodedQuery with
  | none => .ok none
  | some encodedQuery =>
    if encodedQuery.isEmpty then .ok none
    else
      match parse (Utf8.decode (Base64.decode encodedQuery)) with
      | none => .error .syntaxError
      | some rawFilters => filtersOf rawFilters

end DebatesQueryPipe

end DecentDebates

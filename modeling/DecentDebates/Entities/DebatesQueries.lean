import DecentDebates.Entities.DebatesService
import Mathlib.Data.List.Basic

set_option autoImplicit false

/-! # Reading debates and arguments (`debates.service.ts`)

The queries of `DebatesService`. A query without `order by` returns its rows in the order in which
nested loops over the tables produce them, one of the orders the server may choose. -/

namespace DecentDebates

open Relational

/-! ## The list of debates -/

inductive TagsMatchingStrategy where
  | all
  | any
deriving DecidableEq, Repr

structure TagFilters where
  values : Option String
  matchingStrategy : Option TagsMatchingStrategy
deriving DecidableEq, Repr

structure Filters where
  queryStr : Option String
  tags : Option TagFilters
deriving DecidableEq, Repr

/-- A row of `getAll`, the tags still comma-separated. -/
structure Debate where
  id : Int
  title : String
  createdAt : Timestamp
  modifiedAt : Timestamp
  username : String
  userId : Int
  tags : String
  tagsIds : String
deriving DecidableEq, Repr

/-- `string_agg(…, ',')` -/
def stringAgg (parts : List String) : String := ",".intercalate parts

/-- A row of the common table expression `debates_tags`. -/
structure DebatesTags where
  debateId : Int
  tags : String
  tagsIds : String
deriving DecidableEq, Repr

/-- The tags of a debate: `debate d join assoc_debate_tag … join debate_tag …`, grouped by
    `d.id`. -/
def Database.tagsOf (db : Database) (d : DebateRow) : List DebateTagRow :=
  (innerJoin
    (innerJoin [d] db.assocDebateTags.rows fun d adt =>
      Truth.eq (some adt.debateId) (some d.id))
    db.debateTags.rows fun (_, adt) dt => Truth.eq (some adt.tagId) (some dt.id)).map Prod.snd

def debatesTags (db : Database) : List DebatesTags :=
  db.debates.rows.filterMap fun d =>
    match db.tagsOf d with
    | [] => none
    | tags => some ⟨d.id, stringAgg (tags.map DebateTagRow.name),
        stringAgg (tags.map fun dt => toString dt.id)⟩

/-- `like`, for a pattern that does not end in an escape character. -/
def like : List Char → List Char → Bool
  | [], s => s.isEmpty
  | '%' :: p, s => s.tails.any (like p)
  | '_' :: p, s =>
    match s with
    | [] => false
    | _ :: s => like p s
  | '\\' :: c :: p, s =>
    match s with
    | [] => false
    | c' :: s => c = c' && like p s
  | c :: p, s =>
    match s with
    | [] => false
    | c' :: s => c = c' && like p s

/-- `ilike` compares the lower-case forms. -/
def ilike (lower : String → String) (s pattern : String) : Bool :=
  like (lower pattern).toList (lower s).toList

/-- `string_to_array(…, ',')`; the array of the empty string is empty. -/
def stringToArray (s : String) : List String :=
  if s.toList = [] then [] else (s.toList.splitOn ',').map String.ofList

/-- `xs && ys` -/
def arrayOverlap (xs ys : List String) : Bool := xs.any fun x => ys.contains x

/-- `xs @> ys` -/
def arrayContains (xs ys : List String) : Bool := ys.all fun y => xs.contains y

/-- A condition on the joined row, or why the statement cannot be run. -/
abbrev DebateFilter := Except SqlError (DebateRow → DebatesTags → Truth)

/-- `getTagFiltersSql` with the values bound to its parameters. Without a strategy the statement
    names two parameters and only one is bound. -/
def getTagFiltersSql (tags : TagFilters) : DebateFilter :=
  match tags.values with
  | none =>
    match tags.matchingStrategy with
    | none => .error .invalidText
    | some _ => .ok fun _ _ => .unknown
  | some values =>
    match tags.matchingStrategy, text values with
    | none, _ => .error .invalidText
    | _, .error e => .error e
    | some .any, .ok values =>
      .ok fun _ dts => .known (arrayOverlap (stringToArray dts.tagsIds) (stringToArray values))
    | some .all, .ok values =>
      .ok fun _ dts =>
        (Truth.known (arrayContains (stringToArray dts.tagsIds) (stringToArray values))).and
          (.known (arrayContains (stringToArray values) (stringToArray dts.tagsIds)))

/-- `d.title::text ilike '%…%'` -/
def getQueryStrSql (lower : String → String) (queryStr : String) : DebateFilter :=
  match text queryStr with
  | .error e => .error e
  | .ok queryStr => .ok fun d _ => .known (ilike lower d.title ("%" ++ queryStr ++ "%"))

/-- `applyDebateFilters`. With neither kind of filter it reads a property of `null`, and the
    `TypeError` escapes (`none`). An empty query string counts as no query string. -/
def applyDebateFilters (lower : String → String) (filters : Filters) : Option DebateFilter :=
  match filters.queryStr.filter (· ≠ ""), filters.tags with
  | some queryStr, some tags => some (do
      let q ← getQueryStrSql lower queryStr
      let t ← getTagFiltersSql tags
      return fun d dts => (q d dts).and (t d dts))
  | some queryStr, none => some (getQueryStrSql lower queryStr)
  | none, some tags => some (getTagFiltersSql tags)
  | none, none => none

/-- `from debate d join ticket t … join "user" u … join debates_tags dts …` -/
def joinedDebates (db : Database) : List (((DebateRow × TicketRow) × UserRow) × DebatesTags) :=
  innerJoin
    (innerJoin
      (innerJoin db.debates.rows db.tickets.rows fun d t =>
        Truth.eq (some d.ticketId) (some t.id))
      db.users.rows fun (_, t) u => Truth.eq (some t.createdBy) (some u.id))
    (debatesTags db) fun ((d, _), _) dts => Truth.eq (some d.id) (some dts.debateId)

def Debate.ofRow : ((DebateRow × TicketRow) × UserRow) × DebatesTags → Debate
  | (((d, _), u), dts) =>
    ⟨d.id, d.title, d.createdAt, d.modifiedAt, u.username, u.id, dts.tags, dts.tagsIds⟩

/-- The rows of `getAll` under a condition, `where t.board_list = 'ACCEPTED' and …`. -/
def selectDebates (db : Database) (filter : DebateRow → DebatesTags → Truth) : List Debate :=
  (selectWhere (fun (((d, t), _), dts) =>
    (Truth.eq t.boardList (some .accepted)).and (filter d dts)) (joinedDebates db)).map Debate.ofRow

def getAll (filters : Option Filters) (db : Database) : Except ServiceError (List Debate) :=
  match filters with
  | none => .ok (selectDebates db fun _ _ => .known true)
  | some filters =>
    match applyDebateFilters db.lower filters with
    | none => .error (.error "Cannot read properties of null (reading 'matchingStrategy')")
    | some (.error _) => .error (.error "An error occurred while fetching the debates.")
    | some (.ok filter) => .ok (selectDebates db filter)

/-! ## The arguments of a debate -/

/-- The columns the argument queries select; `none` is NULL, or a column that is not selected. -/
structure DebateArgument where
  debateId : Int
  argumentId : Option Int
  debateTitle : Option String
  ticketId : Option Int
  title : Option String
  ticketTitle : Option String
  content : Option String
  createdById : Option Int
  argumentType : Option ArgumentType
  createdAt : Option Timestamp
  username : Option String
  counterargumentTo : Option Int
deriving DecidableEq, Repr

/-- An argument with its ticket, its debate and its author. -/
abbrev JoinedArgument := ((ArgumentRow × TicketRow) × DebateRow) × UserRow

/-- `from argument a join ticket t … join debate d … join "user" u …` -/
def joinedArguments (db : Database) : List JoinedArgument :=
  innerJoin
    (innerJoin
      (innerJoin db.arguments.rows db.tickets.rows fun a t => Truth.eq a.ticketId (some t.id))
      db.debates.rows fun (a, _) d => Truth.eq (some a.debateId) (some d.id))
    db.users.rows fun ((a, _), _) u => Truth.eq (some a.createdBy) (some u.id)

/-- The columns that all these queries share. -/
def DebateArgument.ofRow (a : ArgumentRow) (d : DebateRow) (u : UserRow) : DebateArgument where
  debateId := a.debateId
  argumentId := some a.id
  debateTitle := some d.title
  ticketId := a.ticketId
  title := none
  ticketTitle := none
  content := none
  createdById := some a.createdBy
  argumentType := a.type
  createdAt := some a.createdAt
  username := some u.username
  counterargumentTo := a.counterargumentTo

/-- The row that `union all` appends: the debate's title, whatever the debate's status. -/
def DebateArgument.sentinel (debateId : Int) (debateTitle : Option String) : DebateArgument where
  debateId := debateId
  argumentId := none
  debateTitle := debateTitle
  ticketId := none
  title := none
  ticketTitle := none
  content := none
  createdById := none
  argumentType := none
  createdAt := none
  username := none
  counterargumentTo := none

/-- `debate_id = $1 and t.board_list = 'ACCEPTED'` -/
def debateArgumentsWhere (debateId : Int) : JoinedArgument → Truth
  | (((a, t), _), _) =>
    (Truth.eq (some a.debateId) (some debateId)).and (Truth.eq t.boardList (some .accepted))

def getDebateArguments (debateId : JsNumber) (db : Database) :
    Except ServiceError (List DebateArgument) :=
  match int4 debateId with
  | .error _ => .error (.error "An error occurred while fetching the debate's information.")
  | .ok debateId =>
    .ok ((selectWhere (debateArgumentsWhere debateId) (joinedArguments db)).map
        (fun (((a, _), d), u) => { DebateArgument.ofRow a d u with title := some a.title }) ++
      [.sentinel debateId ((db.debates.find? debateId).map DebateRow.title)])

/-- `debate_id = $1 and t.board_list = 'ACCEPTED' and a.id = $2` -/
def debateArgumentWhere (debateId argumentId : Int) : JoinedArgument → Truth
  | (((a, t), _), _) =>
    ((Truth.eq (some a.debateId) (some debateId)).and
      (Truth.eq t.boardList (some .accepted))).and
      (Truth.eq (some a.id) (some argumentId))

def getDebateArgument (debateId argumentId : JsNumber) (db : Database) :
    Except ServiceError (List DebateArgument) :=
  match int4 debateId, int4 argumentId with
  | .ok debateId, .ok argumentId =>
    .ok ((selectWhere (debateArgumentWhere debateId argumentId) (joinedArguments db)).map
      fun (((a, _), d), u) =>
        { DebateArgument.ofRow a d u with title := some a.title, content := some a.content })
  | _, _ => .error (.error "An error occurred while fetching the debate's information.")

/-- `debate_id = $1 and a.id = $2` -/
def debateArgumentAsModeratorWhere (debateId argumentId : Int) : JoinedArgument → Truth
  | (((a, _), _), _) =>
    (Truth.eq (some a.debateId) (some debateId)).and (Truth.eq (some a.id) (some argumentId))

/-- The title is selected as `"ticketTitle"` here. -/
def getDebateArgumentAsModerator (debateId argumentId : JsNumber) (db : Database) :
    Except ServiceError (List DebateArgument) :=
  match int4 debateId, int4 argumentId with
  | .ok debateId, .ok argumentId =>
    .ok ((selectWhere (debateArgumentAsModeratorWhere debateId argumentId) (joinedArguments db)).map
      fun (((a, _), d), u) =>
        { DebateArgument.ofRow a d u with ticketTitle := some a.title, content := some a.content })
  | _, _ => .error (.error "An error occurred while fetching the debate's information.")

structure GetDraftData where
  user : UserCookieData
  debateId : JsNumber
  argumentId : JsNumber

/-- `from argument a join debate d … join "user" u …`, for a list of rows of `argument` -/
def joinedDrafts (db : Database) (rows : List ArgumentRow) :
    List ((ArgumentRow × DebateRow) × UserRow) :=
  innerJoin
    (innerJoin rows db.debates.rows fun a d => Truth.eq (some a.debateId) (some d.id))
    db.users.rows fun (a, _) u => Truth.eq (some a.createdBy) (some u.id)

/-- `debate_id = $1 and a.id = $2 and a.created_by = $3`; whether the row is a draft is not
    asked. -/
def draftWhere (debateId argumentId userId : Int) : (ArgumentRow × DebateRow) × UserRow → Truth
  | ((a, _), _) =>
    ((Truth.eq (some a.debateId) (some debateId)).and
      (Truth.eq (some a.id) (some argumentId))).and
      (Truth.eq (some a.createdBy) (some userId))

def getDraft (draftData : GetDraftData) (db : Database) :
    Except ServiceError (Option DebateArgument) :=
  match int4 draftData.debateId, int4 draftData.argumentId with
  | .ok debateId, .ok argumentId =>
    .ok ((selectWhere (draftWhere debateId argumentId draftData.user.id)
      (joinedDrafts db db.arguments.rows)).map fun ((a, d), u) =>
        { DebateArgument.ofRow a d u with title := some a.title, content := some a.content }).head?
  | _, _ => .error (.error "An error occurred while saving the argument as draft.")

end DecentDebates

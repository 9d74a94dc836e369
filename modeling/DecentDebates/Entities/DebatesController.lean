import DecentDebates.Numbers
import DecentDebates.Entities.DebatesQueries

set_option autoImplicit false

/-! # The public endpoints (`debates.controller.ts`, `utils/debates.ts`)

The three `GET` endpoints that skip authentication, with an empty cache: the parameters as the
client sends them, the pipes that parse them, the service calls, and the status and body of the
answer. -/

namespace DecentDebates

/-- `{ data }` with status 200, or the body of an exception. -/
inductive HttpResponse (β : Type) where
  | ok (data : β)
  | error (status : Nat) (message : String)
deriving DecidableEq, Repr

/-- An exception that is no `HttpException` is answered as an internal error. -/
def HttpResponse.ofError {β : Type} : ServiceError → HttpResponse β
  | .entityNotFound entity => .error 404 ("Entity " ++ entity ++ " not found.")
  | .error _ => .error 500 "Internal server error"
  | .sql _ => .error 500 "Internal server error"

/-- The exception of `ParseIntPipe`. -/
def HttpResponse.numericExpected {β : Type} : HttpResponse β :=
  .error 400 "Validation failed (numeric string is expected)"

/-! ## `getDebates` -/

structure DebateMetadata where
  debateId : Int
  debateTitle : String
deriving DecidableEq, Repr

/-- A `DebateArgument` without `debateId` and `debateTitle`. -/
structure ArgumentData where
  argumentId : Option Int
  ticketId : Option Int
  title : Option String
  ticketTitle : Option String
  content : Option String
  createdById : Option Int
  argumentType : Option ArgumentType
  createdAt : Option Timestamp
  username : Option String
  counterargumentTo : Option Int
deriving DecidableEq, Repr

def DebateArgument.argData (crt : DebateArgument) : ArgumentData where
  argumentId := crt.argumentId
  ticketId := crt.ticketId
  title := crt.title
  ticketTitle := crt.ticketTitle
  content := crt.content
  createdById := crt.createdById
  argumentType := crt.argumentType
  createdAt := crt.createdAt
  username := crt.username
  counterargumentTo := crt.counterargumentTo

structure DebateBody where
  metadata : Option DebateMetadata
  args : List ArgumentData
deriving DecidableEq, Repr

/-- The reducer: a missing or empty title means that there is no such debate, and a row without an
    argument id only names the debate. -/
def getDebatesReducer (acc : DebateBody) (crt : DebateArgument) : Except ServiceError DebateBody :=
  match crt.debateTitle.filter (· ≠ "") with
  | none => .error (.entityNotFound "debate")
  | some debateTitle =>
    .ok
      { metadata := some ⟨crt.debateId, debateTitle⟩
        args :=
          if (crt.argumentId.filter (· ≠ 0)).isSome then acc.args ++ [crt.argData] else acc.args }

def getDebates (debateArgs : List DebateArgument) : Except ServiceError DebateBody :=
  debateArgs.foldlM getDebatesReducer ⟨none, []⟩

/-! ## The endpoints -/

structure DebateTag where
  id : Option String
  name : String
deriving DecidableEq, Repr

/-- A debate of the list, with its tags split. -/
structure ListedDebate where
  id : Int
  title : String
  createdAt : Timestamp
  modifiedAt : Timestamp
  username : String
  userId : Int
  tags : List DebateTag
deriving DecidableEq, Repr

/-- `s.split(",")` -/
def splitCommas (s : String) : List String := (s.toList.splitOn ',').map String.ofList

def ListedDebate.ofRaw (rawDebate : Debate) : ListedDebate where
  id := rawDebate.id
  title := rawDebate.title
  createdAt := rawDebate.createdAt
  modifiedAt := rawDebate.modifiedAt
  username := rawDebate.username
  userId := rawDebate.userId
  tags :=
    let tagsIds := splitCommas rawDebate.tagsIds
    (splitCommas rawDebate.tags).mapIdx fun i t => ⟨tagsIds[i]?, t⟩

namespace DebatesController

/-- `GET /debates`, for the filters that the query pipe made of the parameter `q`, or the error it
    threw. -/
def getAll (filters : Except ServiceError (Option Filters)) (db : Database) :
    HttpResponse (List ListedDebate) :=
  match filters with
  | .error e => .ofError e
  | .ok filters =>
    match DecentDebates.getAll filters db with
    | .error e => .ofError e
    | .ok debates => .ok (debates.map ListedDebate.ofRaw)

/-- `GET /debates/:id` -/
def getDebate (id : String) (db : Database) : HttpResponse DebateBody :=
  match parseIntPipe id with
  | none => .numericExpected
  | some debateId =>
    match getDebateArguments debateId db >>= getDebates with
    | .error e => .ofError e
    | .ok data => .ok data

/-- `GET /debates/:debateId/argument/:argumentId` -/
def getDebateArgument (debateId argumentId : String) (db : Database) :
    HttpResponse DebateArgument :=
  match parseIntPipe debateId, parseIntPipe argumentId with
  | some debateId, some argumentId =>
    match DecentDebates.getDebateArgument debateId argumentId db with
    | .error e => .ofError e
    | .ok [] => .ofError (.entityNotFound "argument")
    | .ok (arg :: _) => .ok arg
  | _, _ => .numericExpected

end DebatesController

end DecentDebates

import DecentDebates.Lib.Effects
import DecentDebates.Entities.DebateFilters

set_option autoImplicit false

/-! # The services and the connection pool

Every service method that calls `pool.connect()`, as far as the pool is concerned: when the client is
taken and given back, which statements are sent on it, and where the method may throw. What a
statement does is not looked at; it settles as the driver decides. A statement is called by its first
words, or by the name the source has for it, and its parameters are left out where computing them
cannot throw. -/

namespace DecentDebates.Pool

open Effects Json

structure QueryResult where
  rows : List Value
  rowCount : Nat

/-- How the calls of a method settle. A rejection has a message. -/
structure Driver where
  connect : Except String Unit
  /-- The last of the statements that have been sent on the client. -/
  query : List String → Except String QueryResult
  /-- `getContent()` of a domain event, before it returns its promise. -/
  getContent : Except String Unit
  /-- The text of a value that is no string, in a template literal. -/
  textOf : Value → String

/-- What a method has done with the pool. -/
structure Usage where
  statements : List String
  taken : Nat
  released : Nat
deriving DecidableEq, Repr

/-- Computations on a client: they can only send statements. -/
abbrev ClientM := Comp String (List String)

abbrev PoolM := Comp String Usage

variable {α : Type} (d : Driver)

/-- `await client.query(…)` -/
def query (sql : String) : ClientM QueryResult := do
  modify fun statements => statements ++ [sql]
  .ofExcept (d.query (← get))

/-- `await this.pool.connect()` -/
def connect : PoolM Unit := do
  .ofExcept d.connect
  modify fun u => { u with taken := u.taken + 1 }

/-- `client.release()` -/
def release : PoolM Unit := modify fun u => { u with released := u.released + 1 }

def onClient (x : ClientM α) : PoolM α :=
  .zoom Usage.statements (fun statements u => { u with statements := statements }) x

/-- `try { … } catch (err) { … } finally { client.release(); }` -/
def releasing (body : ClientM α) (handler : String → ClientM α) : PoolM α :=
  tryFinally (onClient (tryCatch body handler)) release

/-- `const client = await this.pool.connect();`, and a `try` block behind it. -/
def withClient (body : ClientM α) (handler : String → ClientM α) : PoolM α := do
  connect d
  releasing body handler

/-- `throw err;` -/
def rethrow : String → ClientM α := throw

/-- `throw new Error(message);` -/
def failWith (message : String) : String → ClientM α := fun _ => throw message

/-- One statement, whose rows are returned. -/
def fetchRows (sql : String) (handler : String → ClientM (List Value)) : PoolM (List Value) :=
  withClient d (do return (← query d sql).rows) handler

/-- One statement, whose first row is returned. -/
def fetchFirst (sql : String) (handler : String → ClientM JsValue) : PoolM JsValue :=
  withClient d (do return (← query d sql).rows.head?) handler

/-- One statement, whose result is returned. -/
def execute (sql : String) (handler : String → ClientM QueryResult) : PoolM QueryResult :=
  withClient d (query d sql) handler

/-- `const { rows: [{ id }] } = …` -/
def firstId (res : QueryResult) : ClientM JsValue := .ofExcept (JsValue.get res.rows.head? "id")

/-! ## `DebatesService` -/

namespace DebatesService

def fetchingDebates : String := "An error occurred while fetching the debates."

/-- The filters are applied after the client has been taken, and outside the `try` block. -/
def getAll (filters : Option ParsedFilters) : PoolM (List Value) := do
  connect d
  let condition ← match filters with
    | none => pure ""
    | some filters => do
      let (sql, _) ← .ofExcept (filters.applyDebateFilters d.textOf)
      pure (" and " ++ sql)
  releasing (do return (← query d ("with debates_tags as …" ++ condition)).rows)
    (failWith fetchingDebates)

def createDebate (createdTags : Option (List String)) : PoolM Unit :=
  withClient d
    (do
      let _ ← query d "BEGIN"
      if createdTags.isSome then
        let res ← query d "insertTagsSql"
        let _ ← res.rows.mapM fun r => .ofExcept (JsValue.get (some r) "id")
      let _ ← firstId (← query d "createTicketSqlStr")
      let _ ← firstId (← query d "createDebateSql")
      let _ ← query d "assocDebateTagSql"
      let _ ← query d "COMMIT"
      .ofExcept d.getContent)
    fun err => do
      let _ ← query d "ROLLBACK"
      throw err

def fetchingInformation : String := "An error occurred while fetching the debate's information."

def getDebateArguments : PoolM (List Value) :=
  fetchRows d "select … union all select …" (failWith fetchingInformation)

def createArgument : PoolM Unit :=
  withClient d
    (do
      let _ ← query d "BEGIN"
      let _ ← firstId (← query d "createTicketSqlStr")
      let _ ← firstId (← query d "createArgumentSql")
      let _ ← query d "COMMIT"
      .ofExcept d.getContent)
    fun _ => do
      let _ ← query d "ROLLBACK"
      throw "An error occurred while adding the argument to the debate."

def getDebateArgument : PoolM (List Value) :=
  fetchRows d "select … and t.board_list = 'ACCEPTED' and a.id = $2" (failWith fetchingInformation)

def getDebateArgumentAsModerator : PoolM (List Value) :=
  fetchRows d "select … where debate_id = $1 and a.id = $2" (failWith fetchingInformation)

def savingDraft : String := "An error occurred while saving the argument as draft."

def saveArgumentAsDraft : PoolM Unit :=
  withClient d
    (do
      let _ ← query d "insert into argument"
      return)
    (failWith savingDraft)

def getDraft : PoolM JsValue :=
  fetchFirst d "select … and a.created_by = $3" (failWith savingDraft)

def updatingDraft : String := "An error occurred while updating the draft."

def updateDraft : PoolM Unit :=
  withClient d
    (do
      let res ← query d "update argument"
      if res.rowCount = 0 then throw updatingDraft)
    (failWith updatingDraft)

def submitDraft : PoolM Unit :=
  withClient d
    (do
      let _ ← query d "BEGIN"
      let _ ← firstId (← query d "createTicketSqlStr")
      let _ ← query d "updateArgumentSql"
      let _ ← query d "COMMIT"
      return)
    fun _ => do
      let _ ← query d "ROLLBACK"
      throw "An error occurred while submitting the draft."

def getDebateByTicketId : PoolM JsValue :=
  fetchFirst d "with debates_tags as … where d.ticket_id = $1"
    (failWith "An error occurred while fetching the debate metadata.")

def updateArgument : PoolM QueryResult :=
  execute d "update argument a" (failWith "An error occurred while updating the argument.")

def updateDebate : PoolM QueryResult :=
  execute d "update debate d" (failWith "An error occurred while updating the debate.")

end DebatesService

/-! ## `UserService` -/

namespace UserService

def insertOne : PoolM JsValue := fetchFirst d "insert into \"user\"" rethrow

def selectUser : String := "select … where u.username = $1 or u.email = $1"

/-- There is no `try` block: a rejected query leaves the method at once. -/
def getOneByEmailOrUsername : PoolM JsValue := do
  connect d
  let res ← onClient (query d selectUser)
  release
  return res.rows.head?

def getActivityDebates : PoolM (List Value) :=
  fetchRows d "with debates_tags as … order by d.created_at desc"
    (failWith "An error occurred while fetching the user's activity(debates).")

def getActivityArguments : PoolM (List Value) :=
  fetchRows d "select … order by a.created_at desc"
    (failWith "An error occurred while fetching the user's activity(arguments).")

def getDebateAsUser : PoolM JsValue :=
  fetchFirst d "with debates_tags as … where d.ticket_id = $1 and t.created_by = $2"
    (failWith "An error occurred while fetching the debate.")

def getArgumentAsUser : PoolM JsValue :=
  fetchFirst d "select … where t.id = $1 and a.is_draft = false and t.created_by = $2" rethrow

end UserService

/-! ## `ModeratorService` -/

namespace ModeratorService

def getDebateCards : PoolM (List Value) :=
  fetchRows d "with debates_tags as … from ticket t"
    (failWith "An error occurred while fetching the moderator's activity(debates).")

def getArgumentCards : PoolM (List Value) :=
  fetchRows d "select … from ticket t"
    (failWith "An error occurred while fetching the moderator's activity(arguments).")

def getArgumentAsModerator : PoolM JsValue :=
  fetchFirst d "select … where t.id = $1 and a.is_draft = false and t.assigned_to = $2" rethrow

def getDebateAsModerator : PoolM JsValue :=
  fetchFirst d "with debates_tags as … where d.ticket_id = $1 and t.assigned_to = $2"
    (failWith "An error occurred while fetching the debate.")

def updatingTicket : String := "An error occurred while updated the ticket."

/-- The number of rows is looked at after the `finally`. -/
def updateTicket : PoolM Unit := do
  let rowCount ← withClient d (do return (← query d "update ticket").rowCount)
    (failWith updatingTicket)
  if rowCount = 0 then throw "Entity ticket not found."

def approveTicket : PoolM QueryResult :=
  execute d "update ticket … returning created_by" (failWith updatingTicket)

end ModeratorService

/-! ## `CommentService` -/

namespace CommentService

/-- `addCommentToDebate` and `addCommentToArgument` -/
def addComment (sql : String) : PoolM JsValue :=
  withClient d
    (do
      let res ← query d sql
      if res.rowCount = 0 then throw "Entity ticket not found."
      return res.rows.head?)
    rethrow

def addCommentToDebate : PoolM JsValue :=
  addComment d "with insertedComment as (… from debate d …)"

def addCommentToArgument : PoolM JsValue :=
  addComment d "with insertedComment as (… from argument a …)"

def fetchingComments : String := "An error occurred while fetching the comments."

def getTicketComments : PoolM (List Value) :=
  fetchRows d "select … from ticket_comment tc" (failWith fetchingComments)

def updateComment : PoolM QueryResult :=
  execute d "update ticket_comment" (failWith fetchingComments)

end CommentService

/-! ## `NotificationService` -/

namespace NotificationService

def getAll : PoolM (List Value) := fetchRows d "select … order by id desc" rethrow

def getUnreadCount : PoolM JsValue :=
  withClient d
    (do
      let res ← query d "select count(*)"
      .ofExcept (JsValue.get res.rows.head? "unreadCount"))
    rethrow

def markNotificationsAsRead : PoolM Unit :=
  withClient d
    (do
      let res ← query d "update notification"
      if res.rowCount = 0 then throw "No notifications updated.")
    rethrow

end NotificationService

end DecentDebates.Pool

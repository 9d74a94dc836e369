import DecentDebates.Entities.Notification

set_option autoImplicit false

/-! # Review comments (`comment.service.ts`)

`addCommentToDebate` and `addCommentToArgument` are one statement, a conditional insert whose rows
are then joined with their authors; they differ in the table that has to reference the ticket. -/

namespace DecentDebates

open Relational

structure AddCommentData where
  ticketId : JsNumber
  content : String
  commenterId : Int

/-- `commentId` comes from a socket message and may be missing. -/
structure UpdateCommentData where
  commentId : Option JsNumber
  content : String
deriving DecidableEq, Repr

structure Comment where
  commentId : Int
  content : String
  commenterId : Int
  createdAt : Timestamp
  modifiedAt : Timestamp
  commenterUsername : String
deriving DecidableEq, Repr

def Comment.ofRows : TicketCommentRow × UserRow → Comment
  | (tc, u) => ⟨tc.id, tc.content, tc.commenterId, tc.createdAt, tc.modifiedAt, u.username⟩

/-- `id = $5 and (created_by = $6 or assigned_to = $7)`: the user and the moderator connected to
    the ticket. -/
def participantWhere (ticketId userId : Int) (t : TicketRow) : Truth :=
  (Truth.eq (some t.id) (some ticketId)).and
    ((Truth.eq (some t.createdBy) (some userId)).or (Truth.eq t.assignedTo (some userId)))

/-- The conditional insert of a comment on a ticket that `linked` finds referenced. -/
def addCommentSql (linked : Database → Int → Bool) (now : Timestamp)
    (commentData : AddCommentData) : Sql (List Comment) := do
  let db ← get
  let ticketId ← int4 commentData.ticketId
  let content ← text commentData.content
  if linked db ticketId &&
      db.tickets.rows.any fun t => (participantWhere ticketId commentData.commenterId t).holds then
    check (db.ticketComments.next ≤ int4Max) .sequenceLimit
    check (db.users.rows.any fun u => u.id = commentData.commenterId)
      (.foreignKeyViolation "fk_commenter_id")
    let row := fun id => ⟨id, ticketId, content, commentData.commenterId, now, now⟩
    set { db with ticketComments := db.ticketComments.insert row }
    return (innerJoin [row db.ticketComments.next] db.users.rows fun ic u =>
      Truth.eq (some ic.commenterId) (some u.id)).map Comment.ofRows
  else
    return []

def addComment (linked : Database → Int → Bool) (now : Timestamp) (commentData : AddCommentData)
    (db : Database) : Outcome Comment :=
  match (addCommentSql linked now commentData).commit db with
  | (.ok [], db') => .reject (.entityNotFound "ticket") db'
  | (.ok (comment :: _), db') => .resolve comment db'
  | (.error e, db') => .reject (.sql e) db'

/-- `select 1 from debate d where d.ticket_id = $4` -/
def debateReferences (db : Database) (ticketId : Int) : Bool :=
  db.debates.rows.any fun d => (Truth.eq (some d.ticketId) (some ticketId)).holds

/-- `select 1 from argument a where a.ticket_id = $4` -/
def argumentReferences (db : Database) (ticketId : Int) : Bool :=
  db.arguments.rows.any fun a => (Truth.eq a.ticketId (some ticketId)).holds

def addCommentToDebate : Timestamp → AddCommentData → Database → Outcome Comment :=
  addComment debateReferences

def addCommentToArgument : Timestamp → AddCommentData → Database → Outcome Comment :=
  addComment argumentReferences

/-- `where id = $2 and commenter_id = $3` -/
def updateCommentWhere (commentId : Option Int) (userId : Int) (tc : TicketCommentRow) : Truth :=
  (Truth.eq (some tc.id) commentId).and (Truth.eq (some tc.commenterId) (some userId))

def updateCommentSql (now : Timestamp) (user : UserCookieData) (commentData : UpdateCommentData) :
    Sql Nat := do
  let db ← get
  let content ← text commentData.content
  let commentId ← nullableInt4 commentData.commentId
  let cond := fun tc => (updateCommentWhere commentId user.id tc).holds
  set { db with
    ticketComments := db.ticketComments.updateWhere cond fun tc =>
      { tc with content := content, modifiedAt := now } }
  return db.ticketComments.rows.countP cond

def updateComment (now : Timestamp) (user : UserCookieData) (commentData : UpdateCommentData)
    (db : Database) : Outcome Nat :=
  match (updateCommentSql now user commentData).commit db with
  | (.ok rowCount, db') => .resolve rowCount db'
  | (.error _, db') => .reject (.error "An error occurred while fetching the comments.") db'

/-- `where t.id = $1 and (t.created_by = $2 or t.assigned_to = $3) order by tc.created_at asc` -/
def getTicketComments (ticketId : JsNumber) (user : UserCookieData) (db : Database) :
    Except ServiceError (List Comment) :=
  match int4 ticketId with
  | .error _ => .error (.error "An error occurred while fetching the comments.")
  | .ok ticketId =>
    let rows :=
      innerJoin
        (innerJoin db.ticketComments.rows db.tickets.rows fun tc t =>
          Truth.eq (some tc.ticketId) (some t.id))
        db.users.rows fun (tc, _) u => Truth.eq (some tc.commenterId) (some u.id)
    let rows := selectWhere (fun ((_, t), _) => participantWhere ticketId user.id t) rows
    let comments := rows.map fun ((tc, _), u) => Comment.ofRows (tc, u)
    .ok (comments.mergeSort fun c c' => decide (c.createdAt ≤ c'.createdAt))

end DecentDebates

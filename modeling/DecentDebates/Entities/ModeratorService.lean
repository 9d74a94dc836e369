import DecentDebates.Entities.Notification

set_option autoImplicit false

/-! # The moderators' side (`moderator.service.ts`)

The two statements that write a ticket after its creation: `updateTicket` serves
`PATCH /moderator/activity/ticket/:id` and `approveTicket` both `PATCH /moderator/approve/…`
endpoints, and they guard the row differently. After them the queries about arguments. -/

namespace DecentDebates

open Relational

structure UpdateTicketData where
  userId : Int
  ticketId : Int
  /-- `ticketData.boardList`, of which the DTO only says that it is a string. -/
  boardList : String

/-- `where id = $4 and (board_list = 'PENDING' or board_list <> 'PENDING' and assigned_to = $5)` -/
def updateTicketWhere (ticketId userId : Int) (t : TicketRow) : Truth :=
  (Truth.eq (some t.id) (some ticketId)).and
    ((Truth.eq t.boardList (some .pending)).or
      ((Truth.ne t.boardList (some .pending)).and (Truth.eq t.assignedTo (some userId))))

/-- The `set` list. Every right-hand side reads the row as it was; `$3 = 'PENDING'` compares the
    request's text. -/
def TicketRow.moveTo (boardList : BoardList) (request : String) (userId : Int) (t : TicketRow) :
    TicketRow :=
  { t with
    boardList := some boardList
    assignedTo :=
      if (Truth.eq t.boardList (some .pending)).holds then some userId
      else if request = "PENDING" then none
      else t.assignedTo }

def updateTicketSql (ticket : UpdateTicketData) : Sql Nat := do
  let db ← get
  let boardList ← boardListType ticket.boardList
  let ticketId ← int4 (.int ticket.ticketId)
  let cond := fun t => (updateTicketWhere ticketId ticket.userId t).holds
  set { db with
    tickets := db.tickets.updateWhere cond (.moveTo boardList ticket.boardList ticket.userId) }
  return db.tickets.rows.countP cond

def updateTicket (ticket : UpdateTicketData) (db : Database) : Outcome Unit :=
  match (updateTicketSql ticket).commit db with
  | (.ok rowCount, db') =>
    if rowCount = 0 then .reject (.entityNotFound "ticket") db' else .resolve () db'
  | (.error _, db') => .reject (.error "An error occurred while updated the ticket.") db'

/-- `where id = $1 and assigned_to = $2` -/
def approveTicketWhere (ticketId userId : Int) (t : TicketRow) : Truth :=
  (Truth.eq (some t.id) (some ticketId)).and (Truth.eq t.assignedTo (some userId))

def approveTicketSql (user : UserCookieData) (ticketId : Int) : Sql (List Int) := do
  let db ← get
  let ticketId ← int4 (.int ticketId)
  let cond := fun t => (approveTicketWhere ticketId user.id t).holds
  set { db with
    tickets := db.tickets.updateWhere cond fun t => { t with boardList := some .accepted } }
  return (db.tickets.rows.filter cond).map TicketRow.createdBy

/-- The rows returned are the `created_by` of the tickets approved; their number is `rowCount`. -/
def approveTicket (user : UserCookieData) (ticketId : Int) (db : Database) : Outcome (List Int) :=
  match (approveTicketSql user ticketId).commit db with
  | (.ok rows, db') => .resolve rows db'
  | (.error _, db') => .reject (.error "An error occurred while updated the ticket.") db'

/-! ## Arguments for moderators -/

structure ModeratorActivityArgument where
  ticketId : Option Int
  boardList : BoardList
  moderatorId : Option Int
  ticketTitle : Option String
  argumentType : Option ArgumentType
  debateId : Option Int
  moderatorUsername : Option String
  ticketLabel : String
  debateTitle : Option String
  argumentId : Option Int
deriving DecidableEq, Repr

/-- `unnest(enum_range(NULL::board_list_type))` -/
def boardListTypes : List BoardList := [.pending, .inReview, .canceled, .accepted]

/-- A ticket's argument with its debate and its moderator. -/
abbrev ArgumentCard := ((TicketRow × ArgumentRow) × DebateRow) × Option UserRow

/-- A row of the right join: a board list and a card on it, or NULLs when it has no card. -/
def ModeratorActivityArgument.ofRow : BoardList × Option ArgumentCard → ModeratorActivityArgument
  | (boardList, card) =>
    { ticketId := card.map fun (((t, _), _), _) => t.id
      boardList := (card.bind fun (((t, _), _), _) => t.boardList).getD boardList
      moderatorId := card.bind fun (((t, _), _), _) => t.assignedTo
      ticketTitle := card.map fun (((_, a), _), _) => a.title
      argumentType := card.bind fun (((_, a), _), _) => a.type
      debateId := card.map fun (((_, a), _), _) => a.debateId
      moderatorUsername := card.bind fun (_, u) => u.map UserRow.username
      ticketLabel := "argument"
      debateTitle := card.map fun ((_, d), _) => d.title
      argumentId := card.map fun (((_, a), _), _) => a.id }

/-- `from ticket t join argument a … join debate d … left join "user" u …` -/
def argumentCards (db : Database) : List ArgumentCard :=
  leftJoin
    (innerJoin
      (innerJoin db.tickets.rows db.arguments.rows fun t a => Truth.eq a.ticketId (some t.id))
      db.debates.rows fun (_, a) d => Truth.eq (some a.debateId) (some d.id))
    db.users.rows fun ((t, _), _) u => Truth.eq t.assignedTo (some u.id)

/-- `… right join boardListTypes on t.board_list = boardListTypes."boardList"` -/
def getArgumentCards (db : Database) : Except ServiceError (List ModeratorActivityArgument) :=
  .ok ((leftJoin boardListTypes (argumentCards db) fun boardList (((t, _), _), _) =>
    Truth.eq t.boardList (some boardList)).map ModeratorActivityArgument.ofRow)

structure ArgumentAsModerator where
  ticketId : Int
  userId : Int
  debateId : Int
  argumentTitle : String
  argumentContent : String
  counterargumentToId : Option Int
  argumentType : Option ArgumentType
  debateTitle : String
  boardList : Option BoardList
  counterargumentToTitle : Option String
  username : String
  assignedToId : Option Int
deriving DecidableEq, Repr

def ArgumentAsModerator.ofRow :
    (((TicketRow × ArgumentRow) × DebateRow) × UserRow) × Option ArgumentRow → ArgumentAsModerator
  | ((((t, a), d), u), aCounterarg) =>
    { ticketId := t.id
      userId := t.createdBy
      debateId := a.debateId
      argumentTitle := a.title
      argumentContent := a.content
      counterargumentToId := a.counterargumentTo
      argumentType := a.type
      debateTitle := d.title
      boardList := t.boardList
      counterargumentToTitle := aCounterarg.map ArgumentRow.title
      username := u.username
      assignedToId := t.assignedTo }

/-- `from ticket t join argument a … join debate d … join "user" u …` -/
def joinedAsModerator (db : Database) : List (((TicketRow × ArgumentRow) × DebateRow) × UserRow) :=
  innerJoin
    (innerJoin
      (innerJoin db.tickets.rows db.arguments.rows fun t a => Truth.eq a.ticketId (some t.id))
      db.debates.rows fun (_, a) d => Truth.eq (some a.debateId) (some d.id))
    db.users.rows fun ((t, _), _) u => Truth.eq (some t.createdBy) (some u.id)

/-- `t.id = $1 and a.is_draft = false and t.assigned_to = $2` -/
def argumentAsModeratorWhere (ticketId userId : Int) :
    ((TicketRow × ArgumentRow) × DebateRow) × UserRow → Truth
  | (((t, a), _), _) =>
    ((Truth.eq (some t.id) (some ticketId)).and (Truth.eq a.isDraft (some false))).and
      (Truth.eq t.assignedTo (some userId))

/-- `… left join argument aCounterarg on aCounterarg.id = a.counterargument_to where …`. The error
    of a failed query is thrown on as it is. -/
def getArgumentAsModerator (user : UserCookieData) (ticketId : JsNumber) (db : Database) :
    Except ServiceError (Option ArgumentAsModerator) :=
  match int4 ticketId with
  | .error e => .error (.sql e)
  | .ok ticketId =>
    let rows := leftJoin (joinedAsModerator db) db.arguments.rows
      fun (((_, a), _), _) aCounterarg => Truth.eq a.counterargumentTo (some aCounterarg.id)
    .ok ((selectWhere (fun q => argumentAsModeratorWhere ticketId user.id q.1) rows).map
      ArgumentAsModerator.ofRow).head?

end DecentDebates

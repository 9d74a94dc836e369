import DecentDebates.Entities.Notification

set_option autoImplicit false

/-! # User accounts and a user's own activity (`user.service.ts`)

Registration, the insert the seeds make, and the queries about the arguments a user has written. -/

namespace DecentDebates

open Relational

structure RegisterUserDTO where
  email : String
  username : String
  password : String

/-- `insert into "user" (username, password, email, role) values ($1, $2, $3, $4) returning *` -/
def insertUser (now : Timestamp) (d : RegisterUserDTO) (role : Option UserRole) : Sql UserRow := do
  let db ← get
  let username ← varchar 80 d.username
  let password ← varchar 65 d.password
  let email ← varchar 255 d.email
  check (db.users.next ≤ int4Max) .sequenceLimit
  check (db.users.rows.all fun u => u.username ≠ username && u.email ≠ email) .uniqueViolation
  let row := fun id => ⟨id, username, password, email, now, role⟩
  set { db with users := db.users.insert row }
  return row db.users.next

/-- Registration: every new account has the role `USER`. -/
def insertOne (now : Timestamp) (registerUserDTO : RegisterUserDTO) (db : Database) :
    Outcome UserRow :=
  match (insertUser now registerUserDTO (some .user)).commit db with
  | (.ok row, db') => .resolve row db'
  | (.error e, db') => .reject (.sql e) db'

/-- An account of any role, as the seeds insert it. -/
def seedUser (now : Timestamp) (account : RegisterUserDTO) (role : Option UserRole)
    (db : Database) : Outcome UserRow :=
  match (insertUser now account role).commit db with
  | (.ok row, db') => .resolve row db'
  | (.error e, db') => .reject (.sql e) db'

/-! ## A user's own arguments -/

structure UserActivityArgument where
  argumentId : Int
  argumentTitle : String
  argumentType : Option ArgumentType
  argumentIsDraft : Option Bool
  boardList : Option BoardList
  activityList : String
  debateTitle : String
  debateId : Int
  cardType : String
  moderatorUsername : Option String
  ticketId : Option Int
deriving DecidableEq, Repr

/-- `case when t.board_list is null then … end` -/
def activityListOf (boardList : Option BoardList) : String :=
  if (Truth.eq boardList (some .accepted)).holds then "SOLVED" else "ONGOING"

def UserActivityArgument.ofRow :
    ((ArgumentRow × Option TicketRow) × DebateRow) × Option UserRow → UserActivityArgument
  | (((a, t), d), u) =>
    { argumentId := a.id
      argumentTitle := a.title
      argumentType := a.type
      argumentIsDraft := a.isDraft
      boardList := t.bind TicketRow.boardList
      activityList := activityListOf (t.bind TicketRow.boardList)
      debateTitle := d.title
      debateId := d.id
      cardType := "argument"
      moderatorUsername := u.map UserRow.username
      ticketId := t.map TicketRow.id }

/-- `from argument a left join ticket t … join debate d … left join "user" u …`, for a list of rows
    of `argument` -/
def joinedActivity (db : Database) (rows : List ArgumentRow) :
    List (((ArgumentRow × Option TicketRow) × DebateRow) × Option UserRow) :=
  leftJoin
    (innerJoin
      (leftJoin rows db.tickets.rows fun a t => Truth.eq a.ticketId (some t.id))
      db.debates.rows fun (a, _) d => Truth.eq (some a.debateId) (some d.id))
    db.users.rows fun ((_, t), _) u => Truth.eq (t.bind TicketRow.assignedTo) (some u.id)

/-- `a.created_by = $1` -/
def activityWhere (userId : Int) :
    ((ArgumentRow × Option TicketRow) × DebateRow) × Option UserRow → Truth
  | (((a, _), _), _) => Truth.eq (some a.createdBy) (some userId)

/-- `… where a.created_by = $1 order by a.created_at desc` -/
def getActivityArguments (user : UserCookieData) (db : Database) :
    Except ServiceError (List UserActivityArgument) :=
  let rows := selectWhere (activityWhere user.id) (joinedActivity db db.arguments.rows)
  .ok ((rows.mergeSort fun (((a, _), _), _) (((a', _), _), _) =>
    decide (a'.createdAt ≤ a.createdAt)).map UserActivityArgument.ofRow)

structure ArgumentAsUser where
  ticketId : Int
  moderatorId : Option Int
  debateId : Int
  argumentTitle : String
  argumentContent : String
  counterargumentToId : Option Int
  argumentType : Option ArgumentType
  debateTitle : String
  boardList : Option BoardList
  counterargumentToTitle : Option String
  moderatorUsername : Option String
  argumentId : Int
  assignedToId : Option Int
  userId : Int
deriving DecidableEq, Repr

def ArgumentAsUser.ofRow :
    (((TicketRow × ArgumentRow) × DebateRow) × Option UserRow) × Option ArgumentRow →
      ArgumentAsUser
  | ((((t, a), d), u), aCounterarg) =>
    { ticketId := t.id
      moderatorId := u.map UserRow.id
      debateId := a.debateId
      argumentTitle := a.title
      argumentContent := a.content
      counterargumentToId := a.counterargumentTo
      argumentType := a.type
      debateTitle := d.title
      boardList := t.boardList
      counterargumentToTitle := aCounterarg.map ArgumentRow.title
      moderatorUsername := u.map UserRow.username
      argumentId := a.id
      assignedToId := t.assignedTo
      userId := t.createdBy }

/-- `from ticket t join argument a … join debate d … left join "user" u …` -/
def joinedAsUser (db : Database) :
    List (((TicketRow × ArgumentRow) × DebateRow) × Option UserRow) :=
  leftJoin
    (innerJoin
      (innerJoin db.tickets.rows db.arguments.rows fun t a => Truth.eq a.ticketId (some t.id))
      db.debates.rows fun (_, a) d => Truth.eq (some a.debateId) (some d.id))
    db.users.rows fun ((t, _), _) u => Truth.eq t.assignedTo (some u.id)

/-- `t.id = $1 and a.is_draft = false and t.created_by = $2` -/
def argumentAsUserWhere (ticketId userId : Int) :
    ((TicketRow × ArgumentRow) × DebateRow) × Option UserRow → Truth
  | (((t, a), _), _) =>
    ((Truth.eq (some t.id) (some ticketId)).and (Truth.eq a.isDraft (some false))).and
      (Truth.eq (some t.createdBy) (some userId))

/-- `… left join argument aCounterarg on aCounterarg.id = a.counterargument_to where …`. The error
    of a failed query is thrown on as it is. -/
def getArgumentAsUser (user : UserCookieData) (ticketId : JsNumber) (db : Database) :
    Except ServiceError (Option ArgumentAsUser) :=
  match int4 ticketId with
  | .error e => .error (.sql e)
  | .ok ticketId =>
    let rows := leftJoin (joinedAsUser db) db.arguments.rows fun (((_, a), _), _) aCounterarg =>
      Truth.eq a.counterargumentTo (some aCounterarg.id)
    .ok ((selectWhere (fun q => argumentAsUserWhere ticketId user.id q.1) rows).map
      ArgumentAsUser.ofRow).head?

end DecentDebates

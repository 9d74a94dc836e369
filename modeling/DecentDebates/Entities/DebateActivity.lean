import DecentDebates.Entities.DebatesQueries
import DecentDebates.Entities.ModeratorService
import DecentDebates.Entities.UserService

set_option autoImplicit false

/-! # Proposed debates (`moderator.service.ts`, `user.service.ts`)

The debates on the moderators' boards and the debates a user has proposed. Both queries keep a
debate whose ticket or moderator is missing, and both ask for its tags with an inner join. -/

namespace DecentDebates

open Relational

/-- A debate with its ticket, its tags and its moderator. -/
abbrev ProposedDebate := ((DebateRow × Option TicketRow) × DebatesTags) × Option UserRow

/-- `from ticket t right join debate d … join debates_tags dts … left join "user" u …` -/
def proposedDebates (db : Database) : List ProposedDebate :=
  leftJoin
    (innerJoin
      (leftJoin db.debates.rows db.tickets.rows fun d t => Truth.eq (some d.ticketId) (some t.id))
      (debatesTags db) fun (d, _) dts => Truth.eq (some d.id) (some dts.debateId))
    db.users.rows fun ((_, t), _) u => Truth.eq (t.bind TicketRow.assignedTo) (some u.id)

/-! ## The moderators' boards -/

structure ModeratorActivityDebate where
  ticketId : Option Int
  boardList : BoardList
  moderatorId : Option Int
  ticketTitle : Option String
  moderatorUsername : Option String
  ticketLabel : Option String
  tags : Option String
  tagsIds : Option String
  debateId : Option Int
deriving DecidableEq, Repr

/-- A row of the right join: a board list and a debate on it, or NULLs when it has none. -/
def ModeratorActivityDebate.ofRow : BoardList × Option ProposedDebate → ModeratorActivityDebate
  | (boardList, card) =>
    { ticketId := card.bind fun (((_, t), _), _) => t.map TicketRow.id
      boardList := (card.bind fun (((_, t), _), _) => t.bind TicketRow.boardList).getD boardList
      moderatorId := card.bind fun (((_, t), _), _) => t.bind TicketRow.assignedTo
      ticketTitle := card.map fun (((d, _), _), _) => d.title
      moderatorUsername := card.bind fun (_, u) => u.map UserRow.username
      ticketLabel := card.map fun _ => "debate"
      tags := card.map fun ((_, dts), _) => dts.tags
      tagsIds := card.map fun ((_, dts), _) => dts.tagsIds
      debateId := card.map fun (((d, _), _), _) => d.id }

/-- `t.board_list = boardListTypes."boardList"` -/
def onBoardList (boardList : BoardList) : ProposedDebate → Truth
  | (((_, t), _), _) => Truth.eq (t.bind TicketRow.boardList) (some boardList)

/-- `… right join boardListTypes on …` -/
def getDebateCards (db : Database) : Except ServiceError (List ModeratorActivityDebate) :=
  .ok ((leftJoin boardListTypes (proposedDebates db) onBoardList).map ModeratorActivityDebate.ofRow)

/-! ## A user's own debates -/

structure UserActivityDebate where
  ticketId : Option Int
  boardList : Option BoardList
  debateTitle : String
  debateId : Int
  cardType : String
  moderatorUsername : Option String
  activityList : String
  tags : String
  tagsIds : String
deriving DecidableEq, Repr

def UserActivityDebate.ofRow : ProposedDebate → UserActivityDebate
  | (((d, t), dts), u) =>
    { ticketId := t.map TicketRow.id
      boardList := t.bind TicketRow.boardList
      debateTitle := d.title
      debateId := d.id
      cardType := "debate"
      moderatorUsername := u.map UserRow.username
      activityList := activityListOf (t.bind TicketRow.boardList)
      tags := dts.tags
      tagsIds := dts.tagsIds }

/-- `t.created_by = $1` -/
def activityDebatesWhere (userId : Int) : ProposedDebate → Truth
  | (((_, t), _), _) => Truth.eq (t.map TicketRow.createdBy) (some userId)

/-- `… where t.created_by = $1 order by d.created_at desc` -/
def getActivityDebates (user : UserCookieData) (db : Database) :
    Except ServiceError (List UserActivityDebate) :=
  let rows := selectWhere (activityDebatesWhere user.id) (proposedDebates db)
  .ok ((rows.mergeSort fun (((d, _), _), _) (((d', _), _), _) =>
    decide (d'.createdAt ≤ d.createdAt)).map UserActivityDebate.ofRow)

end DecentDebates

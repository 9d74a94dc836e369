import DecentDebates.Entities.DebateActivity
import DecentDebates.Entities.DebatesController

set_option autoImplicit false

/-! # Debates under review (`moderator.service.ts`, `user.service.ts`, `review.controller.ts`)

A debate as its review page shows it to the moderator its ticket is assigned to, and as it shows it
to the user who created the ticket. -/

namespace DecentDebates

open Relational

/-- The decoder of the two aggregated columns: both are split, and the pieces are zipped by
    position. -/
def zipTags (rawTags rawTagsIds : String) : List DebateTag :=
  let tagsIds := splitCommas rawTagsIds
  (splitCommas rawTags).mapIdx fun i t => ⟨tagsIds[i]?, t⟩

/-! ## As a moderator -/

structure RawDebateAsModerator where
  id : Int
  title : String
  createdAt : Timestamp
  modifiedAt : Timestamp
  username : String
  userId : Int
  tags : String
  boardList : Option BoardList
  ticketId : Int
  tagsIds : String
  assignedToId : Option Int
deriving DecidableEq, Repr

def RawDebateAsModerator.ofRow :
    ((DebateRow × UserRow) × DebatesTags) × TicketRow → RawDebateAsModerator
  | (((d, u), dt), t) =>
    { id := d.id
      title := d.title
      createdAt := d.createdAt
      modifiedAt := d.modifiedAt
      username := u.username
      userId := u.id
      tags := dt.tags
      boardList := t.boardList
      ticketId := t.id
      tagsIds := dt.tagsIds
      assignedToId := t.assignedTo }

/-- `from debate d join "user" u … join debates_tags dt … join ticket t …` -/
def debatesAsModerator (db : Database) : List (((DebateRow × UserRow) × DebatesTags) × TicketRow) :=
  innerJoin
    (innerJoin
      (innerJoin db.debates.rows db.users.rows fun d u => Truth.eq (some u.id) (some d.createdBy))
      (debatesTags db) fun (d, _) dt => Truth.eq (some dt.debateId) (some d.id))
    db.tickets.rows fun ((d, _), _) t => Truth.eq (some d.ticketId) (some t.id)

/-- `d.ticket_id = $1 and t.assigned_to = $2` -/
def debateAsModeratorWhere (ticketId userId : Int) :
    ((DebateRow × UserRow) × DebatesTags) × TicketRow → Truth
  | (((d, _), _), t) =>
    (Truth.eq (some d.ticketId) (some ticketId)).and (Truth.eq t.assignedTo (some userId))

def getDebateAsModerator (user : UserCookieData) (ticketId : JsNumber) (db : Database) :
    Except ServiceError (Option RawDebateAsModerator) :=
  match int4 ticketId with
  | .error _ => .error (.error "An error occurred while fetching the debate.")
  | .ok ticketId =>
    .ok ((selectWhere (debateAsModeratorWhere ticketId user.id) (debatesAsModerator db)).map
      RawDebateAsModerator.ofRow).head?

structure DebateAsModerator where
  id : Int
  title : String
  createdAt : Timestamp
  modifiedAt : Timestamp
  username : String
  userId : Int
  boardList : Option BoardList
  ticketId : Int
  assignedToId : Option Int
  debateTags : List DebateTag
deriving DecidableEq, Repr

def DebateAsModerator.ofRaw (rawDebate : RawDebateAsModerator) : DebateAsModerator where
  id := rawDebate.id
  title := rawDebate.title
  createdAt := rawDebate.createdAt
  modifiedAt := rawDebate.modifiedAt
  username := rawDebate.username
  userId := rawDebate.userId
  boardList := rawDebate.boardList
  ticketId := rawDebate.ticketId
  assignedToId := rawDebate.assignedToId
  debateTags := zipTags rawDebate.tags rawDebate.tagsIds

/-! ## As a user -/

structure RawDebateAsUser where
  id : Int
  title : String
  createdAt : Timestamp
  modifiedAt : Timestamp
  moderatorUsername : Option String
  moderatorId : Option Int
  tags : String
  boardList : Option BoardList
  ticketId : Int
  tagsIds : String
  assignedToId : Option Int
  userId : Int
deriving DecidableEq, Repr

def RawDebateAsUser.ofRow :
    ((DebateRow × DebatesTags) × TicketRow) × Option UserRow → RawDebateAsUser
  | (((d, dt), t), u) =>
    { id := d.id
      title := d.title
      createdAt := d.createdAt
      modifiedAt := d.modifiedAt
      moderatorUsername := u.map UserRow.username
      moderatorId := u.map UserRow.id
      tags := dt.tags
      boardList := t.boardList
      ticketId := t.id
      tagsIds := dt.tagsIds
      assignedToId := t.assignedTo
      userId := t.createdBy }

/-- `from debate d join debates_tags dt … join ticket t … left join "user" u …` -/
def debatesAsUser (db : Database) :
    List (((DebateRow × DebatesTags) × TicketRow) × Option UserRow) :=
  leftJoin
    (innerJoin
      (innerJoin db.debates.rows (debatesTags db) fun d dt =>
        Truth.eq (some dt.debateId) (some d.id))
      db.tickets.rows fun (d, _) t => Truth.eq (some d.ticketId) (some t.id))
    db.users.rows fun (_, t) u => Truth.eq t.assignedTo (some u.id)

/-- `d.ticket_id = $1 and t.created_by = $2` -/
def debateAsUserWhere (ticketId userId : Int) :
    ((DebateRow × DebatesTags) × TicketRow) × Option UserRow → Truth
  | (((d, _), t), _) =>
    (Truth.eq (some d.ticketId) (some ticketId)).and (Truth.eq (some t.createdBy) (some userId))

def getDebateAsUser (user : UserCookieData) (ticketId : JsNumber) (db : Database) :
    Except ServiceError (Option RawDebateAsUser) :=
  match int4 ticketId with
  | .error _ => .error (.error "An error occurred while fetching the debate.")
  | .ok ticketId =>
    .ok ((selectWhere (debateAsUserWhere ticketId user.id) (debatesAsUser db)).map
      RawDebateAsUser.ofRow).head?

structure DebateAsUser where
  id : Int
  title : String
  createdAt : Timestamp
  modifiedAt : Timestamp
  moderatorUsername : Option String
  moderatorId : Option Int
  boardList : Option BoardList
  ticketId : Int
  assignedToId : Option Int
  userId : Int
  tags : List DebateTag
deriving DecidableEq, Repr

def DebateAsUser.ofRaw (rawDebate : RawDebateAsUser) : DebateAsUser where
  id := rawDebate.id
  title := rawDebate.title
  createdAt := rawDebate.createdAt
  modifiedAt := rawDebate.modifiedAt
  moderatorUsername := rawDebate.moderatorUsername
  moderatorId := rawDebate.moderatorId
  boardList := rawDebate.boardList
  ticketId := rawDebate.ticketId
  assignedToId := rawDebate.assignedToId
  userId := rawDebate.userId
  tags := zipTags rawDebate.tags rawDebate.tagsIds

/-! ## The endpoints -/

namespace ReviewController

/-- A debate that the query finds is decoded; that it finds none is the ticket's fault. -/
def answerTicket {α β : Type} (decode : α → β) :
    Except ServiceError (Option α) → HttpResponse β
  | .error e => .ofError e
  | .ok none => .ofError (.entityNotFound "ticket")
  | .ok (some rawDebate) => .ok (decode rawDebate)

/-- `GET /review/moderator/debate/:ticketId` -/
def getDebateAsModerator (user : UserCookieData) (ticketId : String) (db : Database) :
    HttpResponse DebateAsModerator :=
  match parseIntPipe ticketId with
  | none => .numericExpected
  | some ticketId =>
    answerTicket DebateAsModerator.ofRaw (DecentDebates.getDebateAsModerator user ticketId db)

/-- `GET /review/user/debate/:ticketId` -/
def getDebateAsUser (user : UserCookieData) (ticketId : String) (db : Database) :
    HttpResponse DebateAsUser :=
  match parseIntPipe ticketId with
  | none => .numericExpected
  | some ticketId =>
    answerTicket DebateAsUser.ofRaw (DecentDebates.getDebateAsUser user ticketId db)

end ReviewController

end DecentDebates

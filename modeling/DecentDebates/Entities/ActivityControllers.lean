import DecentDebates.Entities.DebateReview

set_option autoImplicit false

/-! # The activity endpoints (`moderator.controller.ts`, `user.controller.ts`)

Both join the debates with their tags split and the arguments in one stream of cards; the
moderators' endpoint then groups the stream by board list. -/

namespace DecentDebates

/-! ## The moderators' boards -/

/-- A `ModeratorActivityDebate` with its tags split. -/
structure ModeratorDebateCard where
  ticketId : Option Int
  boardList : BoardList
  moderatorId : Option Int
  ticketTitle : Option String
  moderatorUsername : Option String
  ticketLabel : Option String
  debateId : Option Int
  tags : List DebateTag
deriving DecidableEq, Repr

inductive ModeratorCard where
  /-- The row of an empty board list, as it is. -/
  | raw (rawDebate : ModeratorActivityDebate)
  | debate (card : ModeratorDebateCard)
  | argument (card : ModeratorActivityArgument)
deriving DecidableEq, Repr

namespace ModeratorCard

def boardList : ModeratorCard → BoardList
  | .raw rawDebate => rawDebate.boardList
  | .debate card => card.boardList
  | .argument card => card.boardList

def ticketId : ModeratorCard → Option Int
  | .raw rawDebate => rawDebate.ticketId
  | .debate card => card.ticketId
  | .argument card => card.ticketId

/-- A row with a ticket must have tags, as `split` is called on them. -/
def ofDebate (rawDebate : ModeratorActivityDebate) : Except ServiceError ModeratorCard :=
  match rawDebate.ticketId.filter (· ≠ 0) with
  | none => .ok (.raw rawDebate)
  | some _ =>
    match rawDebate.tags, rawDebate.tagsIds with
    | some rawTags, some rawTagsIds =>
      .ok (.debate
        { ticketId := rawDebate.ticketId
          boardList := rawDebate.boardList
          moderatorId := rawDebate.moderatorId
          ticketTitle := rawDebate.ticketTitle
          moderatorUsername := rawDebate.moderatorUsername
          ticketLabel := rawDebate.ticketLabel
          debateId := rawDebate.debateId
          tags := zipTags rawTags rawTagsIds })
    | _, _ => .error (.error "Cannot read properties of null (reading 'split')")

end ModeratorCard

structure BoardCards where
  boardList : BoardList
  cards : List ModeratorCard
deriving DecidableEq, Repr

/-- `groupBy` makes a group when it first meets its key; a card without a ticket only makes its
    group. -/
def groupCards (cards : List ModeratorCard) : List BoardCards :=
  (cards.map ModeratorCard.boardList).eraseDups.map fun boardList =>
    ⟨boardList, (cards.filter fun card => card.boardList = boardList).filter fun card =>
      card.ticketId ≠ none⟩

/-- `GET /moderator/activity` -/
def ModeratorController.getActivity (db : Database) : HttpResponse (List BoardCards) :=
  let cards : Except ServiceError (List ModeratorCard) := do
    let debates ← (← getDebateCards db).mapM ModeratorCard.ofDebate
    return debates ++ (← getArgumentCards db).map ModeratorCard.argument
  match cards with
  | .error e => .ofError e
  | .ok cards => .ok (groupCards cards)

/-! ## A user's own cards -/

/-- A `UserActivityDebate` with its tags split. -/
structure UserDebateCard where
  ticketId : Option Int
  boardList : Option BoardList
  debateTitle : String
  debateId : Int
  cardType : String
  moderatorUsername : Option String
  activityList : String
  tags : List DebateTag
deriving DecidableEq, Repr

def UserDebateCard.ofRaw (rawDebate : UserActivityDebate) : UserDebateCard where
  ticketId := rawDebate.ticketId
  boardList := rawDebate.boardList
  debateTitle := rawDebate.debateTitle
  debateId := rawDebate.debateId
  cardType := rawDebate.cardType
  moderatorUsername := rawDebate.moderatorUsername
  activityList := rawDebate.activityList
  tags := zipTags rawDebate.tags rawDebate.tagsIds

inductive UserCard where
  | argument (card : UserActivityArgument)
  | debate (card : UserDebateCard)
deriving DecidableEq, Repr

/-- `GET /user/activity` -/
def UserController.getActivity (user : UserCookieData) (db : Database) :
    HttpResponse (List UserCard) :=
  let cards : Except ServiceError (List UserCard) := do
    let arguments ← getActivityArguments user db
    let debates ← getActivityDebates user db
    return arguments.map UserCard.argument ++
      debates.map fun rawDebate => .debate (.ofRaw rawDebate)
  match cards with
  | .error e => .ofError e
  | .ok cards => .ok cards

end DecentDebates

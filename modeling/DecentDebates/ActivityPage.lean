import DecentDebates.Entities.ModeratorController
import DecentDebates.Lib.Transition
import DecentDebates.ModeratorBoards
import Mathlib.Data.List.Sort

set_option autoImplicit false

/-! # The moderator's page (`activity/page.tsx`)

The page fetches the boards once and then moves the cards itself: a dropped card at once, an
approved one when the response arrives. Card objects are shared between the boards, a drag and the
callback of an approval, and `boardList` is assigned in place, so every object has an identity. -/

namespace DecentDebates

/-- Boards show the ticket with this id. -/
def Database.Shown (db : Database) (k : Int) : Prop :=
  ∃ t ∈ db.tickets.rows, t.id = k ∧ ∃ s ∈ db.submissions, db.ShownWith t s

/-- Ticket `k` is on board `b` and assigned to `m`. -/
def Database.TicketAt (db : Database) (k : Int) (b : BoardList) (m : Option Int) : Prop :=
  ∃ t ∈ db.tickets.rows, t.id = k ∧ t.boardList = some b ∧ t.assignedTo = m

namespace ActivityPage

/-! ## The cards (`get-activity.dto.ts`) -/

/-- What a card has besides the fields of `ModeratorActivityBase`. -/
inductive CardDetails where
  | debate (debateId : Int)
  | argument (debateId : Int) (debateTitle : String) (argumentId : Int)
deriving DecidableEq, Repr

structure ModeratorActivity where
  ticketId : Int
  /-- Tells the objects of one ticket apart: 0 is the object of the response. -/
  object : Nat
  boardList : BoardList
  ticketTitle : String
  moderatorId : Option Int
  moderatorUsername : Option String
  details : CardDetails
deriving DecidableEq, Repr

def ModeratorActivity.ofCard : ModeratorCard → Option ModeratorActivity
  | .raw _ => none
  | .debate card => do
    let ticketId ← card.ticketId
    let ticketTitle ← card.ticketTitle
    let debateId ← card.debateId
    return {
      ticketId, ticketTitle
      object := 0
      boardList := card.boardList
      moderatorId := card.moderatorId
      moderatorUsername := card.moderatorUsername
      details := .debate debateId }
  | .argument card => do
    let ticketId ← card.ticketId
    let ticketTitle ← card.ticketTitle
    let debateId ← card.debateId
    let debateTitle ← card.debateTitle
    let argumentId ← card.argumentId
    return {
      ticketId, ticketTitle
      object := 0
      boardList := card.boardList
      moderatorId := card.moderatorId
      moderatorUsername := card.moderatorUsername
      details := .argument debateId debateTitle argumentId }

structure BoardData where
  boardList : BoardList
  cards : List ModeratorActivity
deriving DecidableEq, Repr

def BoardData.ofResponse (board : BoardCards) : Option BoardData := do
  return ⟨board.boardList, ← board.cards.mapM ModeratorActivity.ofCard⟩

/-- `BOARD_LISTS_SORT_ORDER` -/
def boardListsSortOrder : BoardList → Nat
  | .pending => 0
  | .inReview => 1
  | .accepted => 2
  | .canceled => 3

def getActivityDTO (data : List BoardData) : List BoardData :=
  data.insertionSort fun b1 b2 =>
    boardListsSortOrder b1.boardList ≤ boardListsSortOrder b2.boardList

/-- What the effect of the page sets the boards to, unless the request fails. -/
def fetchActivity (db : Database) : Option (List BoardData) :=
  match ModeratorController.getActivity db with
  | .ok data => (data.mapM BoardData.ofResponse).map getActivityDTO
  | .error _ _ => none

/-- The cards of all boards, each with the board that it is on. -/
def placed (boards : List BoardData) : List (BoardList × ModeratorActivity) :=
  boards.flatMap fun board => board.cards.map fun card => (board.boardList, card)

/-! ## Requests -/

inductive PageRequest where
  | updateTicket (ticketId : Int) (boardList : BoardList)
  | approveDebate (ticketId : Int) (debateData : ApproveDebateDTO)
  | approveArgument (ticketId : Int) (argumentData : ApproveArgumentDTO)

def PageRequest.handle (me : UserCookieData) (db : Database) : PageRequest → Outcome Unit
  | .updateTicket ticketId boardList =>
    ModeratorController.updateTicket me ticketId ⟨boardList.label⟩ db
  | .approveDebate ticketId debateData =>
    ModeratorController.approveDebate me ticketId debateData db
  | .approveArgument ticketId argumentData =>
    ModeratorController.approveArgument me ticketId argumentData db

/-- What the callback of an approval has captured. -/
structure Approval where
  updatedBoardList : BoardList
  card : ModeratorActivity
deriving DecidableEq, Repr

structure Sent where
  request : PageRequest
  /-- The callback, if the request has one. -/
  approval : Option Approval

structure State where
  activityBoards : List BoardData
  /-- How many cards have been dropped: the next copy of a card is a new object. -/
  drops : Nat
  /-- The requests that have not reached the server, the first one first. -/
  sent : List Sent
  /-- The responses on their way to the page, each with the callback that it will run. -/
  answered : List (Option Approval)
  db : Database

def State.mount (boards : List BoardData) (db : Database) : State where
  activityBoards := boards
  drops := 0
  sent := []
  answered := []
  db := db

/-! ## `onItemDropped` -/

/-- `card.boardList = boardList`, seen from the boards: the object may be on any of them. -/
def setBoardList (card : ModeratorActivity) (boardList : BoardList) (boards : List BoardData) :
    List BoardData :=
  boards.map fun board =>
    { board with
      cards := board.cards.map fun c =>
        if c.ticketId = card.ticketId ∧ c.object = card.object then { c with boardList } else c }

/-- The `item.cardData` that ends up on the board: leaving and entering PENDING copy the card. -/
def droppedCard (me : UserCookieData) (card : ModeratorActivity)
    (fromBoardList toBoardList : BoardList) (copy : Nat) : ModeratorActivity :=
  if fromBoardList ≠ .pending ∧ toBoardList = .pending then
    { card with
      object := copy
      moderatorId := none
      moderatorUsername := none
      boardList := toBoardList }
  else if fromBoardList = .pending ∧ toBoardList ≠ .pending then
    { card with
      object := copy
      moderatorId := some me.id
      moderatorUsername := some me.username
      boardList := toBoardList }
  else { card with boardList := toBoardList }

def onItemDropped (me : UserCookieData) (card : ModeratorActivity)
    (fromBoardList toBoardList : BoardList) (s : State) : State :=
  if toBoardList = .accepted ∨ fromBoardList = toBoardList then s
  else if fromBoardList = .pending ∧ toBoardList ≠ .pending ∧ (me.id = 0 ∨ me.username = "") then s
  else
    let cardData := droppedCard me card fromBoardList toBoardList (s.drops + 1)
    { s with
      activityBoards := (setBoardList cardData toBoardList s.activityBoards).map fun a =>
        if a.boardList = fromBoardList then
          { a with cards := a.cards.filter fun c => c.ticketId ≠ card.ticketId }
        else if a.boardList = toBoardList then { a with cards := a.cards ++ [cardData] }
        else a
      drops := s.drops + 1
      sent := s.sent ++ [⟨.updateTicket card.ticketId toBoardList, none⟩] }

/-! ## `onApproveTicket` -/

def approvalRequest (card : ModeratorActivity) : PageRequest :=
  match card.details with
  | .debate debateId => .approveDebate card.ticketId ⟨.int debateId, card.ticketTitle⟩
  | .argument debateId debateTitle argumentId =>
    .approveArgument card.ticketId ⟨.int debateId, debateTitle, .int argumentId, card.ticketTitle⟩

def onApproveTicket (updatedBoardList : BoardList) (card : ModeratorActivity) (s : State) : State :=
  { s with sent := s.sent ++ [⟨approvalRequest card, some ⟨updatedBoardList, card⟩⟩] }

/-- The callback of `approveTicketPromise`. -/
def onApproved (approval : Approval) (boards : List BoardData) : List BoardData :=
  let card := { approval.card with boardList := .accepted }
  (setBoardList card .accepted boards).map fun b =>
    if b.boardList ≠ approval.updatedBoardList ∧ b.boardList ≠ .accepted then b
    else if b.boardList = .accepted then { b with cards := b.cards ++ [card] }
    else { b with cards := b.cards.filter fun c => c.ticketId ≠ card.ticketId }

/-! ## Steps -/

inductive Step where
  /-- A card is dragged from its board and dropped on a board. -/
  | drop (card : ModeratorActivity) (fromBoardList toBoardList : BoardList)
  /-- "Approve Ticket" is chosen on a card. -/
  | approve (boardList : BoardList) (card : ModeratorActivity)
  /-- The server handles the first request that has not reached it. -/
  | serve
  /-- The response at this position arrives. -/
  | respond (i : Nat)

def hasRightsOnTicket (me : UserCookieData) (card : ModeratorActivity) : Prop :=
  card.moderatorId = some me.id ∨ card.moderatorId = none

instance (me : UserCookieData) (card : ModeratorActivity) :
    Decidable (hasRightsOnTicket me card) :=
  inferInstanceAs (Decidable (_ ∨ _))

/-- Only a card that is on a board can be dragged, and only with rights on its ticket; the menu that
    approves is there while the card says that it is IN REVIEW. -/
def step (me : UserCookieData) (s : State) : Step → State
  | .drop card fromBoardList toBoardList =>
    if (fromBoardList, card) ∈ placed s.activityBoards ∧ hasRightsOnTicket me card ∧
        toBoardList ≠ .accepted then
      onItemDropped me card fromBoardList toBoardList s
    else s
  | .approve boardList card =>
    if (boardList, card) ∈ placed s.activityBoards ∧ card.boardList = .inReview ∧
        hasRightsOnTicket me card then
      onApproveTicket boardList card s
    else s
  | .serve =>
    match s.sent with
    | [] => s
    | m :: sent =>
      let outcome := m.request.handle me s.db
      { s with
        sent
        answered := s.answered ++ [if outcome.result.isOk then m.approval else none]
        db := outcome.db }
  | .respond i =>
    match s.answered[i]? with
    | none => s
    | some none => { s with answered := s.answered.eraseIdx i }
    | some (some approval) =>
      { s with
        activityBoards := onApproved approval s.activityBoards
        answered := s.answered.eraseIdx i }

/-! ## The mirror -/

/-- Every ticket that the boards were fetched with is on one board, and there once. -/
structure State.ShowsOnce (shown : Int → Prop) (s : State) : Prop where
  once : ∀ k, shown k → (placed s.activityBoards).countP (fun p => p.2.ticketId = k) = 1
  only : ∀ p ∈ placed s.activityBoards, shown p.2.ticketId

/-- With nothing in flight, a card is on the board of its ticket and has its moderator. -/
def State.MirrorsAtRest (s : State) : Prop :=
  s.sent = [] → s.answered = [] → ∀ p ∈ placed s.activityBoards,
    s.db.TicketAt p.2.ticketId p.1 p.2.moderatorId

/-- The approvals whose callbacks have not run. -/
def State.approvals (s : State) : List Approval :=
  s.sent.filterMap Sent.approval ++ s.answered.filterMap id

def State.ApprovalPending (s : State) (k : Int) : Prop :=
  ∃ approval ∈ s.approvals, approval.card.ticketId = k

instance (s : State) (k : Int) : Decidable (s.ApprovalPending k) :=
  inferInstanceAs (Decidable (∃ approval ∈ s.approvals, _))

/-- A card is left alone from the click that approves it until the response. -/
def Careful (s : State) : Step → Prop
  | .drop card fromBoardList toBoardList =>
    toBoardList ≠ .accepted → fromBoardList ≠ toBoardList → ¬ s.ApprovalPending card.ticketId
  | .approve _ card => ¬ s.ApprovalPending card.ticketId
  | .serve => True
  | .respond _ => True

instance (s : State) : (e : Step) → Decidable (Careful s e)
  | .drop _ _ _ => inferInstanceAs (Decidable (_ → _ → ¬ _))
  | .approve _ _ => inferInstanceAs (Decidable (¬ _))
  | .serve => inferInstanceAs (Decidable True)
  | .respond _ => inferInstanceAs (Decidable True)

end ActivityPage

end DecentDebates

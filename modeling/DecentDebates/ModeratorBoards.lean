import DecentDebates.Findability
import DecentDebates.Entities.ActivityControllers
import DecentDebates.Linkage

set_option autoImplicit false

/-! # The moderators' boards

What `GET /moderator/activity` is for: it sorts everything that has a ticket by the list of its
ticket. The cards come from two queries that pad empty lists with NULLs, so what the boards hold is
stated against the tables and not against the queries. -/

namespace DecentDebates

open Relational

/-- What a card stands for. -/
def ModeratorCard.key : ModeratorCard → Option (Int ⊕ Int)
  | .raw _ => none
  | .debate card => card.debateId.map .inl
  | .argument card => card.argumentId.map .inr

def ModeratorCard.moderatorId : ModeratorCard → Option Int
  | .raw rawDebate => rawDebate.moderatorId
  | .debate card => card.moderatorId
  | .argument card => card.moderatorId

/-- The submission has the ticket `t`, and boards show it: arguments always, a debate when it has
    a stored tag. -/
def Database.ShownWith (db : Database) (t : TicketRow) (s : Submission) : Prop :=
  s.ticketId = some t.id ∧
    match s with
    | .debate x => db.Tagged x
    | .argument _ => True

/-- The board shows exactly what is on its list: one card for each such submission, the debates
    before the arguments and both in the order of the rows they are from. -/
structure BoardCards.IsExact (board : BoardCards) (db : Database)
    (debates : List ModeratorActivityDebate) (arguments : List ModeratorActivityArgument) :
    Prop where
  order : board.cards.map ModeratorCard.key =
    (debates.filter fun card => card.boardList = board.boardList ∧ card.ticketId ≠ none).map
        (fun card => card.debateId.map .inl) ++
      (arguments.filter fun card => card.boardList = board.boardList ∧ card.ticketId ≠ none).map
        fun card => card.argumentId.map .inr
  nodup : (board.cards.map ModeratorCard.key).Nodup
  complete : ∀ s ∈ db.submissions, ∀ t ∈ db.tickets.rows, db.ShownWith t s →
    t.boardList = some board.boardList → some s.key ∈ board.cards.map ModeratorCard.key
  sound : ∀ card ∈ board.cards, ∃ s ∈ db.submissions, ∃ t ∈ db.tickets.rows,
    card.key = some s.key ∧ db.ShownWith t s ∧ t.boardList = some board.boardList ∧
      card.ticketId = some t.id ∧ card.boardList = board.boardList ∧
      card.moderatorId = t.assignedTo

end DecentDebates

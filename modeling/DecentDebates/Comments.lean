import DecentDebates.Linkage

set_option autoImplicit false

/-! # Who comments on a ticket

A comment belongs to the review of one submission, between its author and its moderator. What the
conditional inserts of `CommentService` establish when they insert a row is a fact about that
moment: the moderator may give the ticket back afterwards and the argument may get another
ticket. -/

namespace DecentDebates

open Relational

/-- The call comments on the ticket as `commenterId`, and a submission of the kind it is for
    references the ticket. -/
inductive Database.CommentsOn (db : Database) : Call → Int → Int → Prop
  | debate {now : Timestamp} {d : AddCommentData} {ticketId : Int}
      (hticket : int4 d.ticketId = .ok ticketId)
      (hlinked : ∃ x ∈ db.debates.rows, x.ticketId = ticketId) :
      db.CommentsOn (.addCommentToDebate now d) ticketId d.commenterId
  | argument {now : Timestamp} {d : AddCommentData} {ticketId : Int}
      (hticket : int4 d.ticketId = .ok ticketId)
      (hlinked : ∃ a ∈ db.arguments.rows, a.ticketId = some ticketId) :
      db.CommentsOn (.addCommentToArgument now d) ticketId d.commenterId

/-- There is a ticket with this id, and the user is its author or its assignee. -/
def Database.ConnectedTo (db : Database) (ticketId userId : Int) : Prop :=
  ∃ t ∈ db.tickets.rows, t.id = ticketId ∧ (t.createdBy = userId ∨ t.assignedTo = some userId)

/-- The comment is still there, on the same ticket and by the same commenter. -/
def Database.KeepsComment (db : Database) (tc : TicketCommentRow) : Prop :=
  ∃ tc' ∈ db.ticketComments.rows, tc'.id = tc.id ∧ tc'.ticketId = tc.ticketId ∧
    tc'.commenterId = tc.commenterId

/-- A conditional insert returns a comment exactly when it has inserted one row, which is that
    comment's, and when it rejects every table is as it was. -/
structure Outcome.InsertsOrRejects (o : Outcome Comment) (db : Database) : Prop where
  returns_iff : (∃ comment, o.result = .ok comment) ↔
    ∃ tc, o.db.ticketComments.rows = db.ticketComments.rows ++ [tc]
  returned : ∀ comment, o.result = .ok comment → ∃ tc, ∃ u ∈ db.users.rows,
    o.db.ticketComments.rows = db.ticketComments.rows ++ [tc] ∧ u.id = tc.commenterId ∧
      comment = Comment.ofRows (tc, u)
  rejected : (¬ ∃ comment, o.result = .ok comment) → (∃ e, o.result = .error e) ∧ o.db = db

end DecentDebates

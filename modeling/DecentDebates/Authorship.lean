import DecentDebates.Publication

set_option autoImplicit false

/-! # What a user's call leaves alone

Every id in a request comes from the client, so the author conditions in the `WHERE` clauses are
all that keeps one user from another's rows. -/

namespace DecentDebates

open Relational

/-- A table after a call: the rows of others are as they were, rows with new ids are `userId`'s, and
    no id is gone. -/
structure AuthorFrame {ρ : Type} [SerialRow ρ] (author : ρ → Int) (userId : Int)
    (t t' : SerialTable ρ) : Prop where
  others : ∀ r ∈ t.rows, author r ≠ userId → r ∈ t'.rows
  new : ∀ r' ∈ t'.rows, (∀ r ∈ t.rows, SerialRow.rowId r ≠ SerialRow.rowId r') → author r' = userId
  kept : ∀ r ∈ t.rows, ∃ r' ∈ t'.rows, SerialRow.rowId r' = SerialRow.rowId r

/-- A call by `userId` changes debates, arguments and comments of the user's only, adds none under
    another name, and deletes no row of any table. Tickets of others it changes only as a
    moderator's call. -/
structure Database.Confined (db : Database) (c : Call) (userId : Int) : Prop where
  debates : AuthorFrame DebateRow.createdBy userId db.debates (step db c).debates
  arguments : AuthorFrame ArgumentRow.createdBy userId db.arguments (step db c).arguments
  ticketComments :
    AuthorFrame TicketCommentRow.commenterId userId db.ticketComments (step db c).ticketComments
  tickets : ∀ t ∈ db.tickets.rows, t.createdBy ≠ userId → c.byModerator = false →
    t ∈ (step db c).tickets.rows
  tickets_new : ∀ t' ∈ (step db c).tickets.rows, (∀ t ∈ db.tickets.rows, t.id ≠ t'.id) →
    t'.createdBy = userId
  tickets_kept : ∀ t ∈ db.tickets.rows, ∃ t' ∈ (step db c).tickets.rows, t'.id = t.id
  users_kept : ∀ u ∈ db.users.rows, u ∈ (step db c).users.rows
  debateTags_kept : ∀ g ∈ db.debateTags.rows, g ∈ (step db c).debateTags.rows
  assocDebateTags_kept : ∀ x ∈ db.assocDebateTags.rows, x ∈ (step db c).assocDebateTags.rows

end DecentDebates

import DecentDebates.Schema

set_option autoImplicit false

/-! # What the tables never lose

Nothing in the API deletes a row, and of a row that is edited the columns that say what it is, whose
it is and when it was made stay as they are. -/

namespace DecentDebates

/-- Every row of the one list has a successor in the other. -/
def Keeps {ρ : Type} (Same : ρ → ρ → Prop) (rows rows' : List ρ) : Prop :=
  ∀ r ∈ rows, ∃ r' ∈ rows', Same r r'

structure TicketRow.Same (t t' : TicketRow) : Prop where
  id : t'.id = t.id
  createdBy : t'.createdBy = t.createdBy

structure DebateRow.Same (d d' : DebateRow) : Prop where
  id : d'.id = d.id
  ticketId : d'.ticketId = d.ticketId
  createdBy : d'.createdBy = d.createdBy
  createdAt : d'.createdAt = d.createdAt

/-- An argument that has been submitted is never a draft again, nor without a ticket. -/
structure ArgumentRow.Same (a a' : ArgumentRow) : Prop where
  id : a'.id = a.id
  debateId : a'.debateId = a.debateId
  createdBy : a'.createdBy = a.createdBy
  createdAt : a'.createdAt = a.createdAt
  submitted : a.isDraft = some false → a'.isDraft = some false
  ticketId : a.ticketId ≠ none → a'.ticketId ≠ none

structure TicketCommentRow.Same (c c' : TicketCommentRow) : Prop where
  id : c'.id = c.id
  ticketId : c'.ticketId = c.ticketId
  commenterId : c'.commenterId = c.commenterId
  createdAt : c'.createdAt = c.createdAt

/-- `db'` has the rows of `db`, edited, and more: accounts are added at the end, and tags and the
    tags of a debate stay as they are. -/
structure Database.Continues (db db' : Database) : Prop where
  users : db.users.rows <+: db'.users.rows
  debateTags : db.debateTags.rows ⊆ db'.debateTags.rows
  assocDebateTags : db.assocDebateTags.rows ⊆ db'.assocDebateTags.rows
  tickets : Keeps TicketRow.Same db.tickets.rows db'.tickets.rows
  debates : Keeps DebateRow.Same db.debates.rows db'.debates.rows
  arguments : Keeps ArgumentRow.Same db.arguments.rows db'.arguments.rows
  ticketComments : Keeps TicketCommentRow.Same db.ticketComments.rows db'.ticketComments.rows

end DecentDebates

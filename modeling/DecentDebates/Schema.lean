import DecentDebates.Lib.Table

set_option autoImplicit false

/-! # The database schema

The tables the services read and write (`packages/db/migrations`), one row type for each, with the
columns in the order the positional inserts rely on. A nullable column is an `Option`; a column
the schema declares nullable but for which every writer has a value (the timestamps) is not. -/

namespace DecentDebates

open Relational

/-- `board_list_type` -/
inductive BoardList where
  | pending
  | inReview
  | canceled
  | accepted
deriving DecidableEq, Repr

def BoardList.label : BoardList → String
  | .pending => "PENDING"
  | .inReview => "IN REVIEW"
  | .canceled => "CANCELED"
  | .accepted => "ACCEPTED"

/-- The input function of the enum: labels are matched exactly. -/
def BoardList.ofLabel? (s : String) : Option BoardList :=
  [.pending, .inReview, .canceled, .accepted].find? fun b => b.label = s

/-- `argument_type` -/
inductive ArgumentType where
  | pro
  | con
deriving DecidableEq, Repr

def ArgumentType.label : ArgumentType → String
  | .pro => "PRO"
  | .con => "CON"

def ArgumentType.ofLabel? (s : String) : Option ArgumentType :=
  [.pro, .con].find? fun t => t.label = s

/-- `user_role` -/
inductive UserRole where
  | user
  | moderator
  | admin
deriving DecidableEq, Repr

/-- Microseconds since some epoch. -/
abbrev Timestamp := Nat

structure UserRow where
  id : Int
  username : String
  password : String
  email : String
  createdAt : Timestamp
  role : Option UserRole
deriving DecidableEq, Repr

structure TicketRow where
  id : Int
  createdBy : Int
  assignedTo : Option Int
  boardList : Option BoardList
deriving DecidableEq, Repr

structure DebateRow where
  id : Int
  ticketId : Int
  title : String
  createdAt : Timestamp
  modifiedAt : Timestamp
  createdBy : Int
deriving DecidableEq, Repr

structure DebateTagRow where
  id : Int
  name : String
deriving DecidableEq, Repr

structure AssocDebateTagRow where
  debateId : Int
  tagId : Int
deriving DecidableEq, Repr

structure ArgumentRow where
  id : Int
  debateId : Int
  ticketId : Option Int
  title : String
  content : String
  counterargumentTo : Option Int
  createdBy : Int
  createdAt : Timestamp
  type : Option ArgumentType
  isDraft : Option Bool
deriving DecidableEq, Repr

structure TicketCommentRow where
  id : Int
  ticketId : Int
  content : String
  commenterId : Int
  createdAt : Timestamp
  modifiedAt : Timestamp
deriving DecidableEq, Repr

instance : SerialRow UserRow := ⟨UserRow.id⟩
instance : SerialRow TicketRow := ⟨TicketRow.id⟩
instance : SerialRow DebateRow := ⟨DebateRow.id⟩
instance : SerialRow DebateTagRow := ⟨DebateTagRow.id⟩
instance : SerialRow ArgumentRow := ⟨ArgumentRow.id⟩
instance : SerialRow TicketCommentRow := ⟨TicketCommentRow.id⟩

@[simp] theorem rowId_user (u : UserRow) : SerialRow.rowId u = u.id := rfl
@[simp] theorem rowId_ticket (t : TicketRow) : SerialRow.rowId t = t.id := rfl
@[simp] theorem rowId_debate (d : DebateRow) : SerialRow.rowId d = d.id := rfl
@[simp] theorem rowId_debateTag (g : DebateTagRow) : SerialRow.rowId g = g.id := rfl
@[simp] theorem rowId_argument (a : ArgumentRow) : SerialRow.rowId a = a.id := rfl
@[simp] theorem rowId_ticketComment (c : TicketCommentRow) : SerialRow.rowId c = c.id := rfl

/-- `assoc_debate_tag`, whose primary key is the whole row. -/
structure AssocTable where
  rows : List AssocDebateTagRow
  nodup : rows.Nodup

structure Database where
  users : SerialTable UserRow
  tickets : SerialTable TicketRow
  debates : SerialTable DebateRow
  debateTags : SerialTable DebateTagRow
  assocDebateTags : AssocTable
  arguments : SerialTable ArgumentRow
  ticketComments : SerialTable TicketCommentRow
  /-- `lower()` under the collation the database was created with. -/
  lower : String → String

/-- A freshly migrated database. -/
def Database.empty (lower : String → String) : Database where
  users := .empty
  tickets := .empty
  debates := .empty
  debateTags := .empty
  assocDebateTags := ⟨[], List.nodup_nil⟩
  arguments := .empty
  ticketComments := .empty
  lower := lower

/-! ## Reading the board list of a ticket -/

/-- The ticket with this id is on board list `b`. -/
def Database.OnBoard (db : Database) (ticketId : Int) (b : BoardList) : Prop :=
  ∃ t ∈ db.tickets.rows, t.id = ticketId ∧ t.boardList = some b

instance (db : Database) (ticketId : Int) (b : BoardList) : Decidable (db.OnBoard ticketId b) :=
  inferInstanceAs (Decidable (∃ t ∈ db.tickets.rows, _))

/-- A published argument: its current ticket is ACCEPTED. -/
def Database.ArgumentAccepted (db : Database) (a : ArgumentRow) : Prop :=
  ∃ k, a.ticketId = some k ∧ db.OnBoard k .accepted

/-- A published debate: its ticket is ACCEPTED. -/
def Database.DebateAccepted (db : Database) (d : DebateRow) : Prop :=
  db.OnBoard d.ticketId .accepted

theorem Database.onBoard_iff {db : Database} {t : TicketRow} (ht : t ∈ db.tickets.rows)
    (b : BoardList) : db.OnBoard t.id b ↔ t.boardList = some b := by
  constructor
  · rintro ⟨t', ht', hid, hb⟩
    rwa [SerialTable.eq_of_rowId_eq ht ht' hid.symm]
  · exact fun hb => ⟨t, ht, rfl, hb⟩

end DecentDebates

import DecentDebates.System

set_option autoImplicit false

/-! # The review workflow of a ticket

A moderator takes a PENDING ticket by moving it to another list, holds it while it is off PENDING,
and gives it back by moving it to PENDING again. The definitions say when a call does one of
these, and which calls step outside the workflow that the moderator's page offers. -/

namespace DecentDebates

/-- A request that ticket `k` leave PENDING. -/
def UpdateTicketData.Takes (d : UpdateTicketData) (k : Int) : Prop :=
  d.ticketId = k ∧ ∃ b : BoardList, b.label = d.boardList ∧ b ≠ .pending

/-- Moderator `m` asks for ticket `k` to go back to PENDING. -/
def Call.GivesBack (c : Call) (m k : Int) : Prop :=
  ∃ d, c = .updateTicket d ∧ d.userId = m ∧ d.ticketId = k ∧ d.boardList = "PENDING"

/-- Ticket `k` is off PENDING and assigned to `m`. -/
def Database.HeldBy (db : Database) (k m : Int) : Prop :=
  ∃ t ∈ db.tickets.rows, t.id = k ∧ t.assignedTo = some m ∧ t.boardList ≠ none ∧
    t.boardList ≠ some .pending

/-- The call is made by `m` and moves ticket `k` out of PENDING. -/
def Database.TakesOut (db : Database) (c : Call) (k m : Int) : Prop :=
  c.actor = some m ∧ db.OnBoard k .pending ∧ ¬ (step db c).OnBoard k .pending

/-- The call moves ticket `k` back to PENDING. -/
def Database.Returns (db : Database) (c : Call) (k : Int) : Prop :=
  ¬ db.OnBoard k .pending ∧ (step db c).OnBoard k .pending

instance (db : Database) (c : Call) (k : Int) : Decidable (db.Returns c k) :=
  inferInstanceAs (Decidable (_ ∧ _))

/-- Every ticket that the call turns ACCEPTED was IN REVIEW and assigned to the caller. -/
def Database.AcceptsReviewed (db : Database) (c : Call) : Prop :=
  ∀ t ∈ db.tickets.rows, t.boardList ≠ some .accepted → (step db c).OnBoard t.id .accepted →
    t.boardList = some .inReview ∧ ∃ m, c.actor = some m ∧ t.assignedTo = some m

/-- The call accepts a ticket that is not IN REVIEW: a PENDING one by `updateTicket`, or one that
    is PENDING or CANCELED by its assignee. -/
def Database.AcceptsOutsideReview (db : Database) (c : Call) : Prop :=
  ∃ t ∈ db.tickets.rows,
    (∃ d, c = .updateTicket d ∧ d.ticketId = t.id ∧ d.boardList = "ACCEPTED" ∧
      (t.boardList = some .pending ∨
        t.boardList = some .canceled ∧ t.assignedTo = some d.userId)) ∨
    (∃ user, c = .approveTicket user t.id ∧ t.assignedTo = some user.id ∧
      (t.boardList = some .pending ∨ t.boardList = some .canceled))

/-- A ticket is unassigned exactly while it waits on PENDING. -/
def Database.Assigned (db : Database) : Prop :=
  ∀ t ∈ db.tickets.rows, t.assignedTo = none ↔ t.boardList = some .pending

instance (db : Database) : Decidable db.Assigned :=
  inferInstanceAs (Decidable (∀ t ∈ db.tickets.rows, _))

/-- A request for PENDING on a ticket that is PENDING already. -/
def Database.RequestsPendingAgain (db : Database) (c : Call) : Prop :=
  ∃ d, c = .updateTicket d ∧ d.boardList = "PENDING" ∧ db.OnBoard d.ticketId .pending

end DecentDebates

import DecentDebates.ReviewRooms
import DecentDebates.Linkage

set_option autoImplicit false

/-! # What a review message writes, and whom it tells

A message names the row it edits and the user to be notified in its payload, and the room it is
announced in comes from the socket. This file has the two views of a message that the database can
judge: the rows it writes, with the ticket each of them belongs to, and the other participant of
the socket's ticket. -/

namespace DecentDebates

open Relational

/-! ## The rows of a review -/

/-- What the messages of a review write: comments, and the submission under review. -/
inductive ReviewRow where
  | comment (tc : TicketCommentRow)
  | submission (s : Submission)
deriving DecidableEq, Repr

def ReviewRow.ticketId : ReviewRow → Option Int
  | comment tc => some tc.ticketId
  | submission s => s.ticketId

/-- The table a row is stored in, and its id there. -/
def ReviewRow.key : ReviewRow → Int ⊕ (Int ⊕ Int)
  | comment tc => .inl tc.id
  | submission s => .inr s.key

def Database.reviewRows (db : Database) : List ReviewRow :=
  db.ticketComments.rows.map .comment ++ db.submissions.map .submission

@[simp] theorem mem_reviewRows_comment {db : Database} {tc : TicketCommentRow} :
    .comment tc ∈ db.reviewRows ↔ tc ∈ db.ticketComments.rows := by
  simp [Database.reviewRows]

@[simp] theorem mem_reviewRows_submission {db : Database} {s : Submission} :
    .submission s ∈ db.reviewRows ↔ s ∈ db.submissions := by
  simp [Database.reviewRows]

theorem Database.reviewRow_eq_of_key {db : Database} {r r' : ReviewRow} (hr : r ∈ db.reviewRows)
    (hr' : r' ∈ db.reviewRows) (h : r.key = r'.key) : r = r' := by
  cases r with
  | comment tc =>
    cases r' with
    | comment tc' =>
      rw [mem_reviewRows_comment] at hr hr'
      rw [SerialTable.eq_of_rowId_eq hr hr' (Sum.inl.inj h)]
    | submission s' => exact nomatch h
  | submission s =>
    cases r' with
    | comment tc' => exact nomatch h
    | submission s' =>
      rw [mem_reviewRows_submission] at hr hr'
      rw [db.submission_eq_of_key hr hr' (Sum.inr.inj h)]

/-- The row belongs to the ticket that the text of the handshake denotes. -/
def ReviewRow.OnTicket (r : ReviewRow) (ticketId : String) : Prop :=
  ∃ k, r.ticketId = some k ∧ toNumber ticketId = .int k

/-- The payload has the row's id. -/
def ReviewMessage.Addresses : ReviewMessage → ReviewRow → Prop
  | .commentDebateUpdate payload, .comment tc => payload.commentId = some (.int tc.id)
  | .commentArgumentUpdate payload, .comment tc => payload.commentId = some (.int tc.id)
  | .argumentUpdate payload, .submission (.argument a) =>
    ∃ data ∈ payload.data, data.argumentId = some (.int a.id)
  | .debateUpdate payload, .submission (.debate x) =>
    ∃ data ∈ payload.data, data.debateId = some (.int x.id)
  | _, _ => False

/-- `r` is a row of `db'` that the message, handled in `db`, has inserted or updated. -/
def ReviewMessage.Writes (message : ReviewMessage) (db db' : Database) (r : ReviewRow) : Prop :=
  r ∈ db'.reviewRows ∧ (message.Addresses r ∨ ∀ r₀ ∈ db.reviewRows, r₀.key ≠ r.key)

/-- Whatever row the payload addresses, it is one of this ticket's. -/
def ReviewMessage.AboutTicket (message : ReviewMessage) (ticketId : String) (db : Database) :
    Prop :=
  ∀ r ∈ db.reviewRows, message.Addresses r → r.OnTicket ticketId

/-- Addressing is a matter of the row's id alone. -/
theorem ReviewMessage.addresses_congr {message : ReviewMessage} {r r' : ReviewRow}
    (h : r.key = r'.key) : message.Addresses r ↔ message.Addresses r' := by
  cases r with
  | comment tc =>
    cases r' with
    | comment tc' =>
      have hid : tc.id = tc'.id := Sum.inl.inj h
      cases message <;> simp [ReviewMessage.Addresses, hid]
    | submission s' => exact nomatch h
  | submission s =>
    cases r' with
    | comment tc' => exact nomatch h
    | submission s' =>
      have hkey : s.key = s'.key := Sum.inr.inj h
      rcases s with x | a <;> rcases s' with x' | a'
      · have hid : x.id = x'.id := Sum.inl.inj hkey
        cases message <;> simp [ReviewMessage.Addresses, hid]
      · exact nomatch hkey
      · exact nomatch hkey
      · have hid : a.id = a'.id := Sum.inr.inj hkey
        cases message <;> simp [ReviewMessage.Addresses, hid]

/-! ## Participants -/

/-- Of the two users connected to a ticket, the one who is not `userId`. -/
def TicketRow.otherParticipant (t : TicketRow) (userId : Int) : Option Int :=
  if t.createdBy = userId then t.assignedTo.filter (· ≠ userId)
  else if t.assignedTo = some userId then some t.createdBy
  else none

def Database.otherParticipant (db : Database) (ticketId : String) (userId : Int) : Option Int :=
  match toNumber ticketId with
  | .int n => (db.tickets.find? n).bind fun t => t.otherParticipant userId
  | .other => none

/-- The user a job is for, if it is for one. -/
def NotificationJobPayload.recipientId? : NotificationJobPayload → Option JsNumber
  | genericModerator .. => none
  | ticketParticipant _ _ _ recipientId => some recipientId

/-- One job for the other participant of the ticket, none when there is no such user, and in any
    case none for a user who has no account. -/
structure HandlerResult.NotifiesOther (result : HandlerResult) (db : Database) (ticketId : String)
    (userId : Int) : Prop where
  recipient : result.job.map NotificationJobPayload.recipientId? =
    (db.otherParticipant ticketId userId).map fun p => some (.int p)
  account : ∀ job ∈ result.job, ∃ u ∈ db.users.rows, job.recipientId? = some (.int u.id)

/-- `userId` and `assignedToId` of the payloads that have them. -/
def ReviewMessage.participants? : ReviewMessage → Option (JsNumber × JsNumber)
  | .commentDebateCreate payload => some (payload.userId, payload.assignedToId)
  | .commentArgumentCreate payload => some (payload.userId, payload.assignedToId)
  | .argumentUpdate payload => some (payload.userId, payload.assignedToId)
  | .debateUpdate payload => some (payload.userId, payload.assignedToId)
  | .commentDebateUpdate _ => none
  | .commentArgumentUpdate _ => none

/-- The ticket has another participant, with an account, and the payload gives this user: as the
    assignee when it names the sender as the author, and as the author otherwise. -/
def Database.NamesOther (db : Database) (ticketId : String) (senderId : Int)
    (userId assignedToId : JsNumber) : Prop :=
  ∃ u ∈ db.users.rows, db.otherParticipant ticketId senderId = some u.id ∧
    (userId = .int senderId → assignedToId = .int u.id) ∧
    (userId ≠ .int senderId → userId = .int u.id)

end DecentDebates

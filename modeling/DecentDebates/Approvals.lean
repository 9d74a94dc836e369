import DecentDebates.Entities.ModeratorController
import DecentDebates.Publication

set_option autoImplicit false

/-! # Approval notifications

The author of a ticket is told when it is published. Publishing is a change of the ticket's row and
telling is a job in a queue, so what ties them together is a count over a run. -/

namespace DecentDebates

/-- The moderators' endpoints, and every call that is not theirs. -/
inductive Request where
  | call (c : Call) (hc : c.byModerator = false)
  | updateTicket (user : UserCookieData) (id : Int) (body : UpdateTicketDTO)
  | approveDebate (user : UserCookieData) (ticketId : Int) (body : ApproveDebateDTO)
  | approveArgument (user : UserCookieData) (ticketId : Int) (body : ApproveArgumentDTO)

/-- The tables and the enqueued jobs after a request. -/
def serve (db : Database) : Request → Database × List NotificationJobPayload
  | .call c _ => (step db c, enqueued db c)
  | .updateTicket user id body =>
    let outcome := ModeratorController.updateTicket user id body db
    (outcome.db, outcome.jobs)
  | .approveDebate user ticketId body =>
    let outcome := ModeratorController.approveDebate user ticketId body db
    (outcome.db, outcome.jobs)
  | .approveArgument user ticketId body =>
    let outcome := ModeratorController.approveArgument user ticketId body db
    (outcome.db, outcome.jobs)

def requestStep (db : Database) (r : Request) : Database := (serve db r).1

/-- The ticket and the recipient of a job that announces an approval. -/
def NotificationJobPayload.approval? : NotificationJobPayload → Option (Int × JsNumber)
  | .ticketParticipant _ (.debateTicketApproved ticketId ..) _ recipientId =>
    some (ticketId, recipientId)
  | .ticketParticipant _ (.argumentTicketApproved ticketId ..) _ recipientId =>
    some (ticketId, recipientId)
  | _ => none

/-- The approvals of ticket `k` that a request announces. -/
def approvals (k : Int) (db : Database) (r : Request) : Nat :=
  (serve db r).2.countP fun job => (job.approval?.map Prod.fst) = some k

/-- The request turns ticket `k` ACCEPTED. -/
def Database.Publishes (db : Database) (r : Request) (k : Int) : Prop :=
  ¬ db.OnBoard k .accepted ∧ (requestStep db r).OnBoard k .accepted

instance (db : Database) (r : Request) (k : Int) : Decidable (db.Publishes r k) :=
  inferInstanceAs (Decidable (_ ∧ _))

def publications (k : Int) (db : Database) (r : Request) : Nat :=
  if db.Publishes r k then 1 else 0

/-- The recipient of the job is the author of the ticket it is about. -/
def Database.GoesToAuthor (db : Database) (job : NotificationJobPayload) : Prop :=
  ∀ k recipientId, job.approval? = some (k, recipientId) →
    ∃ t ∈ db.tickets.rows, t.id = k ∧ recipientId = .int t.createdBy

/-- The request publishes a ticket without saying so, being an `updateTicket`, or it approves a
    ticket again. -/
def Database.Misreports (db : Database) : Request → Prop
  | .call _ _ => False
  | .updateTicket user id body =>
    body.boardList = "ACCEPTED" ∧ ∃ t ∈ db.tickets.rows,
      (updateTicketWhere id user.id t).holds = true ∧ t.boardList ≠ some .accepted
  | .approveDebate user ticketId _ =>
    ∃ t ∈ db.tickets.rows, (approveTicketWhere ticketId user.id t).holds = true ∧
      t.boardList = some .accepted
  | .approveArgument user ticketId _ =>
    ∃ t ∈ db.tickets.rows, (approveTicketWhere ticketId user.id t).holds = true ∧
      t.boardList = some .accepted

instance (db : Database) : (r : Request) → Decidable (db.Misreports r)
  | .call _ _ => isFalse id
  | .updateTicket .. => inferInstanceAs (Decidable (_ ∧ ∃ t ∈ db.tickets.rows, _))
  | .approveDebate .. => inferInstanceAs (Decidable (∃ t ∈ db.tickets.rows, _))
  | .approveArgument .. => inferInstanceAs (Decidable (∃ t ∈ db.tickets.rows, _))

end DecentDebates

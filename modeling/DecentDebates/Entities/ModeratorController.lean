import DecentDebates.Entities.ModeratorService

set_option autoImplicit false

/-! # The moderators' endpoints (`moderator.controller.ts`)

The three endpoints that write tickets, with what they do after the statement has committed: the
two that approve enqueue a notification for the author, and the one for arguments also deletes a
key of the debates cache. The ids of the path are numbers here; the numbers of a body may be any. -/

namespace DecentDebates

structure UpdateTicketDTO where
  boardList : String

structure ApproveDebateDTO where
  debateId : JsNumber
  debateTitle : String

structure ApproveArgumentDTO where
  debateId : JsNumber
  debateTitle : String
  argumentId : JsNumber
  argumentTitle : String

namespace ModeratorController

/-- `PATCH /moderator/activity/ticket/:id` -/
def updateTicket (user : UserCookieData) (id : Int) (body : UpdateTicketDTO) (db : Database) :
    Outcome Unit :=
  DecentDebates.updateTicket ⟨user.id, id, body.boardList⟩ db

/-- What `approveDebate` and `approveArgument` share: `approveTicket`, an error if it has updated no
    row, and the job for the author of the ticket. -/
def approve (event : Int → DomainEvent) (notificationEvent : NotificationEvents)
    (user : UserCookieData) (ticketId : Int) (db : Database) : Outcome Unit :=
  let res := approveTicket user ticketId db
  match res.result with
  | .error e => .reject e res.db
  | .ok [] => .reject (.entityNotFound "ticket") res.db
  | .ok (recipientId :: _) =>
    .resolve () res.db [.ticketParticipant (event recipientId).getTitle (event recipientId)
      notificationEvent (.int recipientId)]

/-- `PATCH /moderator/approve/debate/:ticketId` -/
def approveDebate (user : UserCookieData) (ticketId : Int) (body : ApproveDebateDTO) :
    Database → Outcome Unit :=
  let debateApprovedEv := fun recipientId =>
    .debateTicketApproved ticketId body.debateId body.debateTitle recipientId user.id
  approve debateApprovedEv .debate user ticketId

/-- `PATCH /moderator/approve/argument/:ticketId` -/
def approveArgument (user : UserCookieData) (ticketId : Int) (body : ApproveArgumentDTO) :
    Database → Outcome Unit :=
  let argApprovedEv := fun recipientId =>
    .argumentTicketApproved ticketId body.debateId body.debateTitle body.argumentId
      body.argumentTitle recipientId user.id
  approve argApprovedEv .argument user ticketId

end ModeratorController

end DecentDebates

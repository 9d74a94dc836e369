import DecentDebates.Linkage

set_option autoImplicit false

/-! # Submitting through a draft

There are two ways to propose an argument: at once, or as a draft that is edited for a while and
then submitted. What a way leaves behind is an argument, a ticket and some jobs, and the two are
compared without the ids and the timestamps that were generated on the way. -/

namespace DecentDebates

open Transition

def ArgumentRow.anonymous (a : ArgumentRow) : ArgumentRow :=
  { a with
    id := 0
    ticketId := a.ticketId.map fun _ => 0
    createdAt := 0 }

def TicketRow.anonymous (t : TicketRow) : TicketRow := { t with id := 0 }

/-- Of the events, those of a proposal carry a generated id. -/
def NotificationJobPayload.anonymous : NotificationJobPayload → NotificationJobPayload
  | .genericModerator title (.argumentTicketCreated _ argumentTitle) notificationEvent =>
    .genericModerator title (.argumentTicketCreated 0 argumentTitle) notificationEvent
  | .genericModerator title (.debateTicketCreated _ debateTitle) notificationEvent =>
    .genericModerator title (.debateTicketCreated 0 debateTitle) notificationEvent
  | job => job

/-- What a user leaves behind who proposes one argument. -/
structure Proposal where
  argument : Option ArgumentRow
  ticket : Option TicketRow
  jobs : List NotificationJobPayload
deriving DecidableEq, Repr

/-- What calls leave behind under the ids that are next when they start, and the jobs they
    enqueue. -/
def Database.proposal (db : Database) (calls : List Call) : Proposal where
  argument := ((run step db calls).arguments.find? db.arguments.next).map ArgumentRow.anonymous
  ticket := ((run step db calls).tickets.find? db.tickets.next).map TicketRow.anonymous
  jobs := ((steps step db calls).flatMap fun p => enqueued p.1 p.2).map
    NotificationJobPayload.anonymous

/-- A draft with some content is saved, updated any number of times, and submitted with another
    content. -/
def Database.throughDraft (db : Database) (now : Timestamp) (user : UserCookieData)
    (debateId : JsNumber) (first : CreateArgumentDTO) (updates : List UpdateDraftData)
    (d : CreateArgumentDTO) : List Call :=
  .saveArgumentAsDraft now ⟨user, debateId, first⟩ :: updates.map .updateDraft ++
    [.submitDraft ⟨user, debateId, .int db.arguments.next, d⟩]

/-- The content fits the columns of an argument, and there is an id left for one. -/
def CreateArgumentDTO.Fits (d : CreateArgumentDTO) (db : Database) : Prop :=
  (∃ c, d.columns = .ok c) ∧ db.arguments.next ≤ int4Max

end DecentDebates

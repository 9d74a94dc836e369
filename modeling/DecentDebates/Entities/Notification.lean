import DecentDebates.Sql

set_option autoImplicit false

/-! # Users in sessions, domain events and notification jobs

What the services share: the user a session or a socket carries, the events that become
notifications, the payloads that are enqueued, and the outcome of a service call. -/

namespace DecentDebates

/-- The part of a user row that a session keeps. -/
structure UserCookieData where
  id : Int
  role : Option UserRole
  username : String
deriving DecidableEq, Repr

/-- The event classes of `debate.events.ts` and `review.events.ts`. -/
inductive DomainEvent where
  | debateTicketCreated (ticketId : Int) (debateTitle : String)
  | argumentTicketCreated (ticketId : Int) (argumentTitle : String)
  | debateTitleUpdated (ticketId : JsNumber) (user : UserCookieData) (oldTitle newTitle : String)
      (recipientId : JsNumber)
  | argumentUpdated (ticketId : JsNumber) (user : UserCookieData)
      (debateTitle argumentTitle : String) (recipientId : JsNumber)
  | debateTicketApproved (ticketId : Int) (debateId : JsNumber) (debateTitle : String)
      (recipientId senderId : Int)
  | argumentTicketApproved (ticketId : Int) (debateId : JsNumber) (debateTitle : String)
      (argumentId : JsNumber) (argumentTitle : String) (recipientId senderId : Int)
  | debateReviewNewComment (ticketId : JsNumber) (commentId : Int) (user : UserCookieData)
      (debateTitle : String) (recipientId : JsNumber)
  | argumentReviewNewComment (ticketId : JsNumber) (commentId : Int) (user : UserCookieData)
      (debateTitle argumentTitle : String) (recipientId : JsNumber)
deriving DecidableEq, Repr

def DomainEvent.getTitle : DomainEvent → String
  | .debateTicketCreated .. => "New proposed debate!"
  | .argumentTicketCreated .. => "New argument proposed!"
  | .debateTitleUpdated .. => "Debate updated!"
  | .argumentUpdated .. => "Argument updated!"
  | .debateTicketApproved .. => "Debate published!"
  | .argumentTicketApproved .. => "Argument published!"
  | .debateReviewNewComment .. => "New comment!"
  | .argumentReviewNewComment .. => "New comment!"

inductive NotificationEvents where
  | argument
  | debate
  | suggestion
deriving DecidableEq, Repr

/-- A job of the notifications queue. `content` is the event whose rich text `getContent`
    serialises. -/
inductive NotificationJobPayload where
  | genericModerator (title : String) (content : DomainEvent)
      (notificationEvent : NotificationEvents)
  | ticketParticipant (title : String) (content : DomainEvent)
      (notificationEvent : NotificationEvents) (recipientId : JsNumber)
deriving DecidableEq, Repr

/-- Why a service call rejects. -/
inductive ServiceError where
  /-- `EntityNotFoundError` -/
  | entityNotFound (entity : String)
  /-- A plain `Error` with a message. -/
  | error (message : String)
  /-- An error of the database that is thrown on as it is. -/
  | sql (e : SqlError)
deriving DecidableEq, Repr

/-- A settled service call: how its promise settled, the committed tables, the jobs enqueued. -/
structure Outcome (α : Type) where
  result : Except ServiceError α
  db : Database
  jobs : List NotificationJobPayload

def Outcome.resolve {α : Type} (a : α) (db : Database)
    (jobs : List NotificationJobPayload := []) : Outcome α := ⟨.ok a, db, jobs⟩

def Outcome.reject {α : Type} (e : ServiceError) (db : Database) : Outcome α := ⟨.error e, db, []⟩

@[simp] theorem Outcome.db_resolve {α : Type} (a : α) (db : Database)
    (jobs : List NotificationJobPayload) : (Outcome.resolve a db jobs).db = db := rfl

@[simp] theorem Outcome.db_reject {α : Type} (e : ServiceError) (db : Database) :
    (Outcome.reject e db : Outcome α).db = db := rfl

@[simp] theorem Outcome.result_resolve {α : Type} (a : α) (db : Database)
    (jobs : List NotificationJobPayload) : (Outcome.resolve a db jobs).result = .ok a := rfl

@[simp] theorem Outcome.result_reject {α : Type} (e : ServiceError) (db : Database) :
    (Outcome.reject e db : Outcome α).result = .error e := rfl

@[simp] theorem Outcome.jobs_resolve {α : Type} (a : α) (db : Database)
    (jobs : List NotificationJobPayload) : (Outcome.resolve a db jobs).jobs = jobs := rfl

@[simp] theorem Outcome.jobs_reject {α : Type} (e : ServiceError) (db : Database) :
    (Outcome.reject e db : Outcome α).jobs = [] := rfl

end DecentDebates

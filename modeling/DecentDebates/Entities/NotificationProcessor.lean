import DecentDebates.Entities.NotificationService

set_option autoImplicit false

/-! # The notification worker (`notification.processor.ts`)

A job is handled in two steps: one statement inserts its rows, and a message on a Redis channel
tells the API. An insert that fails fails the attempt; a message that cannot be published is only
logged. -/

namespace DecentDebates

open Relational

/-- `NotificationJobPayload` as it comes out of the queue: `content` is rich text. -/
inductive NotificationJobData where
  | genericModerator (title content : String) (notificationEvent : NotificationEvents)
  | ticketParticipant (title content : String) (notificationEvent : NotificationEvents)
      (recipientId : JsNumber)
deriving DecidableEq, Repr

/-- A payload that a service enqueued, with the rich text of its event. -/
def NotificationJobPayload.data (richText : DomainEvent → String) :
    NotificationJobPayload → NotificationJobData
  | .genericModerator title content event => .genericModerator title (richText content) event
  | .ticketParticipant title content event recipientId =>
    .ticketParticipant title (richText content) event recipientId

namespace NotificationProcessor

/-- One row of `insert into notification(title, content, recipient_id, event, is_read)`. -/
def insertNotification (title content : String) (event : NotificationEvents) (recipientId : Int)
    (t : NotificationTable) : Except SqlError NotificationTable := do
  let title ← varchar 40 title
  if t.next ≤ int4Max then
    return t.insert fun id => ⟨id, title, content, recipientId, event, some false⟩
  else throw .sequenceLimit

/-- `select … from "user" u where u.role = 'MODERATOR'` -/
def moderators (db : Database) : List UserRow :=
  selectWhere (fun u => Truth.eq u.role (some .moderator)) db.users.rows

/-- `insert into notification … select …, u.id, … from "user" u where u.role = 'MODERATOR'` -/
def insertForAllModerators (title content : String) (event : NotificationEvents) (db : Database)
    (t : NotificationTable) : Except SqlError NotificationTable := do
  let title ← text title
  let content ← text content
  (moderators db).foldlM (fun t u => insertNotification title content event u.id t) t

/-- `insert into notification … values …` -/
def insertForRecipient (title content : String) (event : NotificationEvents)
    (recipientId : JsNumber) (db : Database) (t : NotificationTable) :
    Except SqlError NotificationTable := do
  let recipientId ← int4 recipientId
  let content ← text content
  let t' ← insertNotification title content event recipientId t
  if db.users.rows.any fun u => u.id = recipientId then return t'
  else throw (.foreignKeyViolation "fk_user_recipient_id")

/-- The statement that `handle` runs for a job. -/
def insert : NotificationJobData → Database → NotificationTable → Except SqlError NotificationTable
  | .genericModerator title content event => insertForAllModerators title content event
  | .ticketParticipant title content event recipientId =>
    insertForRecipient title content event recipientId

/-- The message that `handle` publishes for a job. -/
def message : NotificationJobData → NotificationMessage
  | .genericModerator .. => .genericModerator
  | .ticketParticipant _ _ _ recipientId => .ticketParticipant recipientId

end NotificationProcessor

end DecentDebates

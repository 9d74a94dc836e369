import DecentDebates.Entities.Notification
import DecentDebates.Proofs.Numbers

set_option autoImplicit false

/-! # Notifications in the API (`notification.service.ts`, `notification.controller.ts`)

The `notification` table, the three statements of the service, and the predicate with which a count
stream picks its messages. A message is a JSON text on a Redis channel. -/

namespace DecentDebates

open Relational

structure NotificationRow where
  id : Int
  title : String
  content : String
  recipientId : Int
  event : NotificationEvents
  isRead : Option Bool
deriving DecidableEq, Repr

instance : SerialRow NotificationRow := ⟨NotificationRow.id⟩

@[simp] theorem rowId_notification (n : NotificationRow) : SerialRow.rowId n = n.id := rfl

abbrev NotificationTable := SerialTable NotificationRow

/-! ## The service -/

namespace NotificationService

/-- `select … from notification where recipient_id = $1 order by id desc` -/
def getAll (user : UserCookieData) (t : NotificationTable) : List NotificationRow :=
  (selectWhere (fun n => Truth.eq (some n.recipientId) (some user.id)) t.rows).mergeSort
    fun n n' => decide (n'.id ≤ n.id)

/-- `recipient_id = $1 and is_read = false` -/
def unreadWhere (userId : Int) (n : NotificationRow) : Truth :=
  (Truth.eq (some n.recipientId) (some userId)).and (Truth.eq n.isRead (some false))

/-- `select count(*) … from notification where …` -/
def getUnreadCount (user : UserCookieData) (t : NotificationTable) : Nat :=
  (selectWhere (unreadWhere user.id) t.rows).length

/-- `update notification set is_read = true where id = any($1::int[])` -/
def markNotificationsAsRead (notifIds : List Int) (t : NotificationTable) :
    Except ServiceError Unit × NotificationTable :=
  let marked := fun n : NotificationRow => decide (n.id ∈ notifIds)
  let t' := t.updateWhere marked fun n => { n with isRead := some true }
  if t.rows.countP marked = 0 then (.error (.error "No notifications updated."), t')
  else (.ok (), t')

end NotificationService

/-! ## Messages -/

/-- `NotificationMessage` of the shared types. -/
inductive NotificationMessage where
  | genericModerator
  | ticketParticipant (recipientId : JsNumber)
deriving DecidableEq, Repr

/-- A number as `JSON.stringify` writes it: NaN is `null`. No job with another number that is no
    integer gets as far as its message. -/
def JsNumber.toJson : JsNumber → Json.Value
  | .int n => .number (.ofInt n)
  | .other => .null

/-- The object that stands for a message. -/
def NotificationMessage.toJson : NotificationMessage → Json.Value
  | .genericModerator => .object [("kind", .string "generic-moderator")]
  | .ticketParticipant recipientId =>
    .object [("kind", .string "ticket-participant"), ("recipientId", recipientId.toJson)]

/-- `JSON.stringify(msg)` -/
def NotificationMessage.text (msg : NotificationMessage) : List Char := msg.toJson.print

/-! ## The controller -/

namespace NotificationController

/-- `value === n`, for what a property of a parsed message holds. -/
def strictEquals (value : Option Json.Value) (n : Int) : Bool :=
  match value with
  | some (.number l) => JsNumber.ofLexeme l = .int n
  | _ => false

/-- The filter of a count stream: which parsed messages increment the count of the stream's
    user. -/
def receives (user : UserCookieData) (msg : Json.Value) : Bool :=
  match msg.member? "kind" with
  | some (.string "generic-moderator") => user.role = some .moderator
  | _ => strictEquals (msg.member? "recipientId") user.id

/-- What a text on the channel adds to the count of a stream: a text that does not parse is
    logged. -/
def increments (user : UserCookieData) (raw : List Char) : Bool :=
  match Json.parse raw with
  | some msg => receives user msg
  | none => false

/-- The ids that `getNotifications` marks as read once it has answered. -/
def unreadNotifIds (notifications : List NotificationRow) : List Int :=
  (notifications.filter fun n => n.isRead = some false).map NotificationRow.id

end NotificationController

end DecentDebates

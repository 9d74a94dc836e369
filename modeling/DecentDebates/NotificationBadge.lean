import DecentDebates.Lib.Transition
import DecentDebates.Entities.NotificationService

set_option autoImplicit false

/-! # The notification badge (`NotificationWidget.tsx`)

The widget of a signed-in user, with the stream it listens to and the requests it sends. The server
behind it is taken as exact: a stream that opens sends the number of unread notifications, and then
1 for each new one. What is on its way may be lost with the connection, and then the `EventSource`
connects again. A request is answered from what the database has when the server gets to it; the
update that marks the notifications as read runs on its own, before the answer arrives or after. A
request may fail on the way there or on the way back, and nobody catches that. -/

namespace DecentDebates.NotificationWidget

/-- A notification as the client holds it. -/
structure Notification where
  row : NotificationRow
  isMerelyRead : Bool
deriving DecidableEq, Repr

/-- What `fetchNotifications` makes of the rows of a response. -/
def fetchNotifications (rows : List NotificationRow) : List Notification :=
  rows.map fun n => ⟨n, n.isRead = some false⟩

structure State where
  isOpen : Bool
  notifications : List Notification
  unreadNotificationsCount : Option Nat
  isLoadingNotifications : Bool
  /-- The `notification` table. -/
  table : NotificationTable
  /-- Ids that the server is about to mark as read. -/
  marking : List (List Int)
  /-- The messages on their way, if the stream is connected. -/
  stream : Option (List Nat)
  /-- Requests that the server has not got to. -/
  requests : Nat
  /-- Responses on their way. -/
  responses : List (List NotificationRow)
  /-- Timers, with the notifications that they set. -/
  timers : List (List Notification)

/-- The widget has just been mounted. -/
def State.mount (table : NotificationTable) : State where
  isOpen := false
  notifications := []
  unreadNotificationsCount := none
  isLoadingNotifications := false
  table := table
  marking := []
  stream := none
  requests := 0
  responses := []
  timers := []

/-- The update of `setUnreadNotificationsCount` in `onMessage`: a sum of 0 is stored as `null`. -/
def nextCount (unreadNotificationsCount : Option Nat) (unreadCount : Nat) : Option Nat :=
  let nextCount := unreadNotificationsCount.getD 0 + unreadCount
  if nextCount = 0 then none else some nextCount

/-- `unreadNotificationsCount === null || unreadNotificationsCount > 0` -/
def shouldFetchNotifications : Option Nat → Bool
  | none => true
  | some n => n > 0

def handleInteraction (nextState : Bool) (s : State) : State :=
  if nextState = s.isOpen then s
  else if nextState = false then
    { s with
      isOpen := nextState
      timers := s.timers ++ [s.notifications.map fun n => { n with isMerelyRead := false }] }
  else if shouldFetchNotifications s.unreadNotificationsCount then
    { s with
      isOpen := nextState
      isLoadingNotifications := true
      requests := s.requests + 1 }
  else { s with isOpen := nextState }

inductive Step where
  /-- A notification is stored. -/
  | notify (title content : String) (recipientId : Int) (event : NotificationEvents)
  /-- The `EventSource` connects, for the first time or again. -/
  | connect
  | disconnect
  | onMessage
  | handleInteraction (nextState : Bool)
  /-- The server gets to a request. -/
  | getNotifications
  | markNotificationsAsRead (i : Nat)
  /-- A response arrives. -/
  | fetched (i : Nat)
  /-- A request fails before the server has read the table. -/
  | requestFails
  /-- A response is lost. -/
  | responseFails (i : Nat)
  /-- A timer goes off. -/
  | timeout (i : Nat)

variable (user : UserCookieData)

def step (s : State) : Step → State
  | .notify title content recipientId event =>
    { s with
      table := s.table.insert fun id => ⟨id, title, content, recipientId, event, some false⟩
      stream := if recipientId = user.id then s.stream.map (· ++ [1]) else s.stream }
  | .connect =>
    match s.stream with
    | none => { s with stream := some [NotificationService.getUnreadCount user s.table] }
    | some _ => s
  | .disconnect => { s with stream := none }
  | .onMessage =>
    match s.stream with
    | some (unreadCount :: rest) =>
      { s with
        stream := some rest
        unreadNotificationsCount := nextCount s.unreadNotificationsCount unreadCount }
    | _ => s
  | .handleInteraction nextState => handleInteraction nextState s
  | .getNotifications =>
    match s.requests with
    | 0 => s
    | n + 1 =>
      let rows := NotificationService.getAll user s.table
      let unreadNotifIds := NotificationController.unreadNotifIds rows
      { s with
        requests := n
        responses := s.responses ++ [rows]
        marking := if unreadNotifIds = [] then s.marking else s.marking ++ [unreadNotifIds] }
  | .markNotificationsAsRead i =>
    match s.marking[i]? with
    | some ids =>
      { s with
        marking := s.marking.eraseIdx i
        table := (NotificationService.markNotificationsAsRead ids s.table).2 }
    | none => s
  | .fetched i =>
    match s.responses[i]? with
    | some rows =>
      { s with
        responses := s.responses.eraseIdx i
        unreadNotificationsCount := some 0
        notifications := fetchNotifications rows
        isLoadingNotifications := false }
    | none => s
  | .requestFails => { s with requests := s.requests - 1 }
  | .responseFails i => { s with responses := s.responses.eraseIdx i }
  | .timeout i =>
    match s.timers[i]? with
    | some notifications => { s with timers := s.timers.eraseIdx i, notifications }
    | none => s

/-! ## The badge and the database -/

/-- The number on the badge. -/
def State.badge (s : State) : Nat := s.unreadNotificationsCount.getD 0

/-- The unread notifications that no update under way is going to mark. -/
def State.unmarked (s : State) : Nat :=
  s.table.rows.countP fun n =>
    (NotificationService.unreadWhere user.id n).holds && s.marking.all fun ids => n.id ∉ ids

/-- Nothing is on its way, and the stream is connected. -/
def State.Quiet (s : State) : Prop :=
  s.stream = some [] ∧ s.requests = 0 ∧ s.responses = [] ∧ s.marking = []

def State.ShowsUnread (s : State) : Prop :=
  s.Quiet → s.badge = NotificationService.getUnreadCount user s.table

/-- The step only brings to its end what is on its way in the stream or in the database. -/
def Step.Completes : Step → Prop
  | .onMessage => True
  | .markNotificationsAsRead _ => True
  | _ => False

/-- Where the badge goes wrong unless a condition holds: the stream opens, or the last response
    arrives or is lost, with no other response to come that sets the count anew. -/
def Fine (s : State) : Step → Prop
  | .connect =>
    s.stream = none → s.requests = 0 → s.responses = [] →
      s.badge = 0 ∧ s.unmarked user = NotificationService.getUnreadCount user s.table
  | .fetched i =>
    ∀ queue, s.stream = some queue → s.requests = 0 → s.responses.length = 1 → i = 0 →
      queue.sum = s.unmarked user
  | .requestFails =>
    ∀ queue, s.stream = some queue → s.requests = 1 → s.responses = [] →
      s.badge + queue.sum = s.unmarked user
  | .responseFails i =>
    ∀ queue, s.stream = some queue → s.requests = 0 → s.responses.length = 1 → i = 0 →
      s.badge + queue.sum = s.unmarked user
  | _ => True

end DecentDebates.NotificationWidget

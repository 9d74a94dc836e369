import DecentDebates.Lib.Effects
import DecentDebates.JsValues
import DecentDebates.ReviewRooms

set_option autoImplicit false

/-! # The review handlers, statement by statement (`review.gateway.ts`)

`Entities.ReviewGateway` has the payloads after their members were converted. Here a payload is any
JSON value, or undefined, and a handler is a computation that reads and converts its members where
the source does: before the write, or after the write and the broadcast. An exception undoes neither.

No value is nested deeper than the engine's stack allows, and the jobs are enqueued at the end of a
handler: building the content of a notification does not throw. -/

namespace DecentDebates

open Effects Json

/-! ## Parameters of a statement -/

/-- What is between a value and a column. -/
structure Platform where
  /-- The text that the driver sends for a value that is neither null nor a string. -/
  prepareValue : Value → String
  /-- The number that the input function of `int4` reads from a text. -/
  int4in : String → JsNumber
  /-- The primary message of a database error. -/
  message : SqlError → String
  message_ne : ∀ e, message e ≠ ""

namespace Platform

variable (P : Platform)

/-- A parameter for a column of a text type; null and undefined are `NULL`. -/
def textParam : JsValue → Option String
  | none => none
  | some .null => none
  | some (.string s) => some s
  | some v => some (P.prepareValue v)

/-- The parameter for a comment's content. What is truthy is not null, so it is a text. -/
def contentParam (content : JsValue) : String := (P.textParam content).getD ""

/-- A parameter for a column of type `int`. The text of an array or an object begins with a brace,
    and that of a boolean with a letter. -/
def int4Param : JsValue → Option JsNumber
  | none => none
  | some .null => none
  | some (.number l) => some (.ofLexeme l)
  | some (.string s) => some (P.int4in s)
  | some (.bool _) => some .other
  | some (.array _) => some .other
  | some (.object _) => some .other

/-- The number read from the text of a value, if it has one. An array with one element has the text
    of the element; with more there are commas in it. -/
def numberInText : Value → JsNumber
  | .number l => .ofLexeme l
  | .string s => P.int4in s
  | .array [v] => numberInText v
  | _ => .other

/-- The number read from `v.toString()`; the call is written `call`. -/
def toStringParam (call : String) : JsValue → Except String JsNumber
  | none => .error "Cannot read properties of undefined (reading 'toString')"
  | some .null => .error "Cannot read properties of null (reading 'toString')"
  | some v =>
    if hasText v then .ok (P.numberInText v)
    else match v with
      | .object _ => .error (call ++ " is not a function")
      | _ => .error "Cannot convert object to primitive value"

end Platform

/-! ## Effects of a handler -/

inductive ReviewEventName where
  | commentDebateCreate
  | commentDebateUpdate
  | commentArgumentCreate
  | commentArgumentUpdate
  | argumentUpdate
  | debateUpdate
deriving DecidableEq, Repr

/-- The name of the event and of its message. -/
def ReviewEventName.name : ReviewEventName → String
  | commentDebateCreate => "comment/debate:create"
  | commentDebateUpdate => "comment/debate:update"
  | commentArgumentCreate => "comment/argument:create"
  | commentArgumentUpdate => "comment/argument:update"
  | argumentUpdate => "argument:update"
  | debateUpdate => "debate:update"

inductive EventData where
  | insertedComment (comment : Comment)
  | updatedComment (payload : JsValue)
  | data (data : JsValue)

inductive Emission where
  /-- `socket.to(room).emit(…)`: to the sockets of a room, except the sender. -/
  | toRoom (senderId : Nat) (room : String) (event : ReviewEventName) (data : EventData)
  /-- `socket.emit("error", …)` -/
  | error (socketId : Nat) (reason : String)

/-- The events of `review.events.ts` and `debate.events.ts` with the members of the payload as they
    are. -/
inductive PayloadEvent where
  | debateReviewNewComment (ticketId : JsNumber) (commentId : Int) (user : UserCookieData)
      (debateTitle : JsValue) (recipientId : JsNumber)
  | argumentReviewNewComment (ticketId : JsNumber) (commentId : Int) (user : UserCookieData)
      (debateTitle argumentTitle : JsValue) (recipientId : JsNumber)
  | argumentUpdated (ticketId : JsValue) (user : UserCookieData)
      (debateTitle argumentTitle : JsValue) (recipientId : JsNumber)
  | debateTitleUpdated (ticketId : JsValue) (user : UserCookieData) (oldTitle newTitle : JsValue)
      (recipientId : JsNumber)

def PayloadEvent.getTitle : PayloadEvent → String
  | .debateReviewNewComment .. => "New comment!"
  | .argumentReviewNewComment .. => "New comment!"
  | .argumentUpdated .. => "Argument updated!"
  | .debateTitleUpdated .. => "Debate updated!"

def PayloadEvent.recipientId : PayloadEvent → JsNumber
  | .debateReviewNewComment _ _ _ _ recipientId => recipientId
  | .argumentReviewNewComment _ _ _ _ _ recipientId => recipientId
  | .argumentUpdated _ _ _ _ recipientId => recipientId
  | .debateTitleUpdated _ _ _ _ recipientId => recipientId

/-- A job of kind `ticket-participant`. -/
structure ParticipantJob where
  title : String
  content : PayloadEvent
  notificationEvent : NotificationEvents
  recipientId : JsNumber

/-- What the sender is acknowledged with. -/
inductive Reply where
  | event (event : ReviewEventName) (insertedComment : Comment)
  | ok

structure GatewayState where
  db : Database
  sockets : List Socket
  emitted : List Emission
  jobs : List ParticipantJob

abbrev HandlerM := Comp HandlerError GatewayState

/-- `err.message` -/
def HandlerError.message (P : Platform) : HandlerError → String
  | .wsException message => message
  | .typeError message => message
  | .service (.entityNotFound entity) => "Entity " ++ entity ++ " not found."
  | .service (.error message) => message
  | .service (.sql e) => P.message e

namespace ReviewGateway

def orTypeError {α : Type} (x : Except String α) : HandlerM α :=
  .ofExcept (x.mapError .typeError)

def throwIf (c : Prop) [Decidable c] (e : HandlerError) : HandlerM Unit :=
  if c then throw e else pure ()

/-- `await` on a service call. -/
def call {α : Type} (service : Database → Outcome α) : HandlerM α := do
  let s ← get
  let outcome := service s.db
  set { s with db := outcome.db }
  .ofExcept (outcome.result.mapError .service)

def emitToRoom (socket : Socket) (event : ReviewEventName) (data : EventData) : HandlerM Unit := do
  let roomIdentifier ← .ofExcept socket.getRoomIdentifier
  modify fun s => { s with emitted := s.emitted ++ [.toRoom socket.id roomIdentifier event data] }

def enqueueNotification (notificationEvent : NotificationEvents) (ev : PayloadEvent) :
    HandlerM Unit :=
  modify fun s =>
    { s with jobs := s.jobs ++ [⟨ev.getTitle, ev, notificationEvent, ev.recipientId⟩] }

def removeUserFromRoom (socket : Socket) (errorMessage : String) : HandlerM Unit := do
  let roomIdentifier ← .ofExcept socket.getRoomIdentifier
  modify fun s =>
    { s with
      sockets := s.sockets.map fun x => if x.id = socket.id then x.leave roomIdentifier else x }
  if errorMessage ≠ "" then
    modify fun s => { s with emitted := s.emitted ++ [.error socket.id errorMessage] }

/-! ## Handlers -/

/-- `user.id === +payload.userId ? +payload.assignedToId : +payload.userId` -/
def recipientId (user : UserCookieData) (payload : JsValue) : Except String JsNumber := do
  let userId ← unaryPlus (← payload.get "userId")
  if .int user.id = userId then unaryPlus (← payload.get "assignedToId") else return userId

/-- `new DebateReviewNewComment(…)` -/
def debateReviewNewComment (ticketId : JsNumber) (commentId : Int) (user : UserCookieData)
    (payload : JsValue) : Except String PayloadEvent := do
  let debateTitle ← payload.get "debateTitle"
  return .debateReviewNewComment ticketId commentId user debateTitle (← recipientId user payload)

/-- `new ArgumentReviewNewComment(…)` -/
def argumentReviewNewComment (ticketId : JsNumber) (commentId : Int) (user : UserCookieData)
    (payload : JsValue) : Except String PayloadEvent := do
  let debateTitle ← payload.get "debateTitle"
  let argumentTitle ← payload.get "argumentTitle"
  return .argumentReviewNewComment ticketId commentId user debateTitle argumentTitle
    (← recipientId user payload)

/-- `new ArgumentUpdated(…)` -/
def argumentUpdated (user : UserCookieData) (payload : JsValue) : Except String PayloadEvent := do
  let ticketId ← payload.get "ticketId"
  let debateTitle ← payload.get "debateTitle"
  let argumentTitle ← payload.get "argumentTitle"
  return .argumentUpdated ticketId user debateTitle argumentTitle (← recipientId user payload)

/-- `new DebateTitleUpdated(…)` -/
def debateTitleUpdated (user : UserCookieData) (payload : JsValue) :
    Except String PayloadEvent := do
  let ticketId ← payload.get "ticketId"
  let oldTitle ← payload.get "oldTitle"
  let newTitle ← (← payload.get "data").get "title"
  return .debateTitleUpdated ticketId user oldTitle newTitle (← recipientId user payload)

variable (P : Platform)

/-- The `try` block of the handlers that create a comment. -/
def createComment (addComment : Timestamp → AddCommentData → Database → Outcome Comment)
    (event : ReviewEventName)
    (newEvent : JsNumber → Int → UserCookieData → JsValue → Except String PayloadEvent)
    (notificationEvent : NotificationEvents) (now : Timestamp) (socket : Socket)
    (payload : JsValue) : HandlerM Reply := do
  let content ← orTypeError (payload.get "comment")
  throwIf (content.truthy = false) (.wsException "Comment's content can't be empty.")
  let ticketId ← .ofExcept socket.getTicketIdFromSocket
  let user ← .ofExcept (socket.dataUser "id")
  let insertedComment ←
    call (addComment now ⟨toNumber ticketId, P.contentParam content, user.id⟩)
  emitToRoom socket event (.insertedComment insertedComment)
  let ev ← orTypeError (newEvent (toNumber ticketId) insertedComment.commentId user payload)
  enqueueNotification notificationEvent ev
  return .event event insertedComment

def handleDebateCommentCreate : Timestamp → Socket → JsValue → HandlerM Reply :=
  createComment P addCommentToDebate .commentDebateCreate debateReviewNewComment .debate

def handleArgumentCommentCreate : Timestamp → Socket → JsValue → HandlerM Reply :=
  createComment P addCommentToArgument .commentArgumentCreate argumentReviewNewComment .argument

/-- The `try` block of the handlers that edit a comment. -/
def editComment (event : ReviewEventName) (now : Timestamp) (socket : Socket) (payload : JsValue) :
    HandlerM Reply := do
  let content ← orTypeError (payload.get "content")
  throwIf (content.truthy = false) (.wsException "Comment's content can't be empty.")
  let commentId ← orTypeError (payload.get "commentId")
  let user ← .ofExcept (socket.dataUser "id")
  let rowCount ← call (updateComment now user ⟨P.int4Param commentId, P.contentParam content⟩)
  throwIf (rowCount = 0) (.wsException "No updates occurred")
  emitToRoom socket event (.updatedComment payload)
  return .ok

def handleDebateCommentUpdate : Timestamp → Socket → JsValue → HandlerM Reply :=
  editComment P .commentDebateUpdate

def handleArgumentCommentUpdate : Timestamp → Socket → JsValue → HandlerM Reply :=
  editComment P .commentArgumentUpdate

/-- The `try` block of the handlers that edit a submission. -/
def editSubmission (missing notYours : String)
    (update : UserCookieData → JsValue → Except String (Database → Outcome Nat))
    (event : ReviewEventName)
    (newEvent : UserCookieData → JsValue → Except String PayloadEvent)
    (notificationEvent : NotificationEvents) (socket : Socket) (payload : JsValue) :
    HandlerM Reply := do
  let data ← orTypeError (payload.get "data")
  throwIf (data.truthy = false) (.wsException missing)
  let user ← .ofExcept (socket.dataUser "role")
  throwIf (user.role ≠ some .user) (.wsException notYours)
  let service ← orTypeError (update user data)
  let rowCount ← call service
  throwIf (rowCount = 0) (.wsException "No updates occurred")
  emitToRoom socket event (.data data)
  let ev ← orTypeError (newEvent user payload)
  enqueueNotification notificationEvent ev
  return .ok

/-- `updateArgument(argData)` -/
def updateArgumentOf (user : UserCookieData) (data : JsValue) :
    Except String (Database → Outcome Nat) := do
  let argumentId ← P.toStringParam "payload.data.argumentId.toString" (← data.get "argumentId")
  let title ← data.get "title"
  let content ← data.get "content"
  return updateArgument ⟨user, argumentId, ⟨P.textParam title, P.textParam content⟩⟩

def handleArgumentUpdate : Socket → JsValue → HandlerM Reply :=
  editSubmission "Argument data is missing." "Only users can updated their own comment."
    (updateArgumentOf P) .argumentUpdate argumentUpdated .argument

/-- `updateDebate(debateData)` -/
def updateDebateOf (user : UserCookieData) (data : JsValue) :
    Except String (Database → Outcome Nat) := do
  let debateId ← P.toStringParam "payload.data.debateId.toString" (← data.get "debateId")
  let title ← data.get "title"
  return updateDebate ⟨user, debateId, P.textParam title⟩

def handleDebateUpdate : Socket → JsValue → HandlerM Reply :=
  editSubmission "Debate data is missing." "Only users can updated their own debate."
    (updateDebateOf P) .debateUpdate debateTitleUpdated .debate

/-- The `try` block of the handler of a message. -/
def handler (now : Timestamp) (socket : Socket) (event : ReviewEventName) (payload : JsValue) :
    HandlerM Reply :=
  match event with
  | .commentDebateCreate => handleDebateCommentCreate P now socket payload
  | .commentDebateUpdate => handleDebateCommentUpdate P now socket payload
  | .commentArgumentCreate => handleArgumentCommentCreate P now socket payload
  | .commentArgumentUpdate => handleArgumentCommentUpdate P now socket payload
  | .argumentUpdate => handleArgumentUpdate P socket payload
  | .debateUpdate => handleDebateUpdate P socket payload

/-- A handler with its `catch`, which acknowledges nothing. -/
def handle (now : Timestamp) (socket : Socket) (event : ReviewEventName) (payload : JsValue) :
    HandlerM (Option Reply) :=
  tryCatch (some <$> handler P now socket event payload) fun err => do
    removeUserFromRoom socket (err.message P)
    return none

end ReviewGateway

end DecentDebates

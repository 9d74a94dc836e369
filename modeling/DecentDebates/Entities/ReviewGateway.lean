import DecentDebates.Numbers
import DecentDebates.Entities.DebatesService
import DecentDebates.Entities.CommentService

set_option autoImplicit false

/-! # The review gateway (`review.gateway.ts`)

A socket, the six messages it may send, and what the handler of a message does with the database:
it ends in an event for the room and perhaps a notification job, or in an error. Whether the event
is still emitted to anybody is the business of the rooms (`ReviewRooms`). -/

namespace DecentDebates

/-- A connected socket. -/
structure Socket where
  id : Nat
  /-- `handshake.query.ticketId` as text; a parameter that is given several times is an array, whose
      text has commas. -/
  ticketId : Option String
  /-- `data.user`, set once the session has been read. -/
  user : Option UserCookieData
  rooms : List String
deriving DecidableEq, Repr

/-- What a handler catches. -/
inductive HandlerError where
  | wsException (message : String)
  | typeError (message : String)
  | service (e : ServiceError)
deriving DecidableEq, Repr

def Socket.getTicketIdFromSocket (socket : Socket) : Except HandlerError String :=
  match socket.ticketId with
  | none => .error (.wsException "'ticketId' is missing.")
  | some ticketId =>
    if ticketId = "" ∨ ticketId = "undefined" then .error (.wsException "'ticketId' is missing.")
    else .ok ticketId

/-- `` `review:${ticketId}` `` -/
def reviewRoom (ticketId : String) : String := "review:" ++ ticketId

def Socket.getRoomIdentifier (socket : Socket) : Except HandlerError String :=
  socket.getTicketIdFromSocket.map reviewRoom

/-- A property of `socket.data.user`, which is undefined before the session has been read. -/
def Socket.dataUser (socket : Socket) (property : String) : Except HandlerError UserCookieData :=
  match socket.user with
  | some user => .ok user
  | none =>
    .error (.typeError ("Cannot read properties of undefined (reading '" ++ property ++ "')"))

/-! ## Payloads and events -/

/-- The numbers are those that unary plus makes of the payload's members; a missing text is the
    empty one where the code treats them alike. -/
structure DebateCommentPayload where
  comment : String
  userId : JsNumber
  assignedToId : JsNumber
  debateTitle : String

structure ArgumentCommentPayload where
  comment : String
  userId : JsNumber
  assignedToId : JsNumber
  debateTitle : String
  argumentTitle : String

structure UpdateReviewArgumentData where
  argumentId : Option JsNumber
  title : Option String
  content : Option String
deriving DecidableEq, Repr

structure UpdateReviewDebateData where
  debateId : Option JsNumber
  title : Option String
deriving DecidableEq, Repr

structure ArgumentReviewUpdated where
  data : Option UpdateReviewArgumentData
  ticketId : JsNumber
  debateTitle : String
  argumentTitle : String
  userId : JsNumber
  assignedToId : JsNumber

structure DebateReviewUpdated where
  data : Option UpdateReviewDebateData
  oldTitle : String
  ticketId : JsNumber
  userId : JsNumber
  assignedToId : JsNumber

inductive ReviewMessage where
  | commentDebateCreate (payload : DebateCommentPayload)
  | commentDebateUpdate (payload : UpdateCommentData)
  | commentArgumentCreate (payload : ArgumentCommentPayload)
  | commentArgumentUpdate (payload : UpdateCommentData)
  | argumentUpdate (payload : ArgumentReviewUpdated)
  | debateUpdate (payload : DebateReviewUpdated)

/-- The events that are emitted to a room. -/
inductive ReviewEvent where
  | commentDebateCreate (insertedComment : Comment)
  | commentDebateUpdate (updatedComment : UpdateCommentData)
  | commentArgumentCreate (insertedComment : Comment)
  | commentArgumentUpdate (updatedComment : UpdateCommentData)
  | argumentUpdate (data : UpdateReviewArgumentData)
  | debateUpdate (data : UpdateReviewDebateData)
deriving DecidableEq, Repr

/-- What a handler that succeeds emits and enqueues. -/
structure HandlerResult where
  event : ReviewEvent
  job : Option NotificationJobPayload

/-- A handler after its service call has settled. -/
structure Handled where
  result : Except HandlerError HandlerResult
  db : Database

/-! ## Handlers -/

/-- The sender's counterpart, as the payload has it. -/
def recipientOf (user : UserCookieData) (userId assignedToId : JsNumber) : JsNumber :=
  if userId = .int user.id then assignedToId else userId

/-- The part of `handle…CommentCreate` before the service call. -/
def commentDataOf (socket : Socket) (content : String) :
    Except HandlerError (UserCookieData × AddCommentData) := do
  if content = "" then throw (.wsException "Comment's content can't be empty.")
  let ticketId ← socket.getTicketIdFromSocket
  let user ← socket.dataUser "id"
  return (user, ⟨toNumber ticketId, content, user.id⟩)

/-- `handleDebateCommentCreate` and `handleArgumentCommentCreate`. -/
def handleCommentCreate (addComment : Timestamp → AddCommentData → Database → Outcome Comment)
    (event : Comment → ReviewEvent)
    (job : UserCookieData → JsNumber → Comment → NotificationJobPayload)
    (now : Timestamp) (socket : Socket) (content : String) (db : Database) : Handled :=
  match commentDataOf socket content with
  | .error e => ⟨.error e, db⟩
  | .ok (user, commentData) =>
    let outcome := addComment now commentData db
    match outcome.result with
    | .error e => ⟨.error (.service e), outcome.db⟩
    | .ok insertedComment =>
      ⟨.ok ⟨event insertedComment, some (job user commentData.ticketId insertedComment)⟩,
        outcome.db⟩

def handleDebateCommentCreate (now : Timestamp) (socket : Socket) (payload : DebateCommentPayload)
    (db : Database) : Handled :=
  let job := fun (user : UserCookieData) (ticketId : JsNumber) (insertedComment : Comment) =>
    let recipientId := recipientOf user payload.userId payload.assignedToId
    let debateCommentEv := DomainEvent.debateReviewNewComment ticketId insertedComment.commentId
      user payload.debateTitle recipientId
    NotificationJobPayload.ticketParticipant debateCommentEv.getTitle debateCommentEv .debate
      recipientId
  handleCommentCreate addCommentToDebate .commentDebateCreate job now socket payload.comment db

def handleArgumentCommentCreate (now : Timestamp) (socket : Socket)
    (payload : ArgumentCommentPayload) (db : Database) : Handled :=
  let job := fun (user : UserCookieData) (ticketId : JsNumber) (insertedComment : Comment) =>
    let recipientId := recipientOf user payload.userId payload.assignedToId
    let argCommentEv := DomainEvent.argumentReviewNewComment ticketId insertedComment.commentId user
      payload.debateTitle payload.argumentTitle recipientId
    NotificationJobPayload.ticketParticipant argCommentEv.getTitle argCommentEv .argument
      recipientId
  handleCommentCreate addCommentToArgument .commentArgumentCreate job now socket payload.comment db

/-- The end of the update handlers: an update of no row is an error. -/
def updated (outcome : Outcome Nat) (result : HandlerResult) : Handled :=
  match outcome.result with
  | .error e => ⟨.error (.service e), outcome.db⟩
  | .ok rowCount =>
    -- the exception is thrown after the statement has committed
    if rowCount = 0 then ⟨.error (.wsException "No updates occurred"), outcome.db⟩
    else ⟨.ok result, outcome.db⟩

/-- `handleDebateCommentUpdate` and `handleArgumentCommentUpdate`; which comment is updated does not
    depend on the ticket of the socket. -/
def handleCommentUpdate (event : UpdateCommentData → ReviewEvent) (now : Timestamp)
    (socket : Socket) (payload : UpdateCommentData) (db : Database) : Handled :=
  if payload.content = "" then ⟨.error (.wsException "Comment's content can't be empty."), db⟩
  else match socket.dataUser "id" with
    | .error e => ⟨.error e, db⟩
    | .ok user => updated (updateComment now user payload db) ⟨event payload, none⟩

def handleDebateCommentUpdate : Timestamp → Socket → UpdateCommentData → Database → Handled :=
  handleCommentUpdate .commentDebateUpdate

def handleArgumentCommentUpdate : Timestamp → Socket → UpdateCommentData → Database → Handled :=
  handleCommentUpdate .commentArgumentUpdate

/-- A member on which the handler calls `toString`. -/
def requiredNumber : Option JsNumber → Except HandlerError JsNumber
  | some n => .ok n
  | none => .error (.typeError "Cannot read properties of undefined (reading 'toString')")

/-- The part of `handleArgumentUpdate` before the service call. -/
def updateArgumentDataOf (socket : Socket) (payload : ArgumentReviewUpdated) :
    Except HandlerError (UpdateReviewArgumentData × UpdateArgumentData) := do
  let data ← match payload.data with
    | some data => .ok data
    | none => throw (.wsException "Argument data is missing.")
  let user ← socket.dataUser "role"
  if user.role ≠ some .user then
    throw (.wsException "Only users can updated their own comment.")
  let argumentId ← requiredNumber data.argumentId
  return (data, ⟨user, argumentId, ⟨data.title, data.content⟩⟩)

def handleArgumentUpdate (socket : Socket) (payload : ArgumentReviewUpdated) (db : Database) :
    Handled :=
  match updateArgumentDataOf socket payload with
  | .error e => ⟨.error e, db⟩
  | .ok (data, argData) =>
    let recipientId := recipientOf argData.user payload.userId payload.assignedToId
    let argUpdatedEv := DomainEvent.argumentUpdated payload.ticketId argData.user
      payload.debateTitle payload.argumentTitle recipientId
    updated (updateArgument argData db) ⟨.argumentUpdate data,
      some (.ticketParticipant argUpdatedEv.getTitle argUpdatedEv .argument recipientId)⟩

/-- The part of `handleDebateUpdate` before the service call. -/
def updateDebateDataOf (socket : Socket) (payload : DebateReviewUpdated) :
    Except HandlerError (UpdateReviewDebateData × UpdateDebateData) := do
  let data ← match payload.data with
    | some data => .ok data
    | none => throw (.wsException "Debate data is missing.")
  let user ← socket.dataUser "role"
  if user.role ≠ some .user then
    throw (.wsException "Only users can updated their own debate.")
  let debateId ← requiredNumber data.debateId
  return (data, ⟨user, debateId, data.title⟩)

def handleDebateUpdate (socket : Socket) (payload : DebateReviewUpdated) (db : Database) :
    Handled :=
  match updateDebateDataOf socket payload with
  | .error e => ⟨.error e, db⟩
  | .ok (data, debateData) =>
    let recipientId := recipientOf debateData.user payload.userId payload.assignedToId
    let debateUpdatedEv := DomainEvent.debateTitleUpdated payload.ticketId debateData.user
      payload.oldTitle (data.title.getD "") recipientId
    updated (updateDebate debateData db) ⟨.debateUpdate data,
      some (.ticketParticipant debateUpdatedEv.getTitle debateUpdatedEv .debate recipientId)⟩

def handle (now : Timestamp) (socket : Socket) (message : ReviewMessage) (db : Database) :
    Handled :=
  match message with
  | .commentDebateCreate payload => handleDebateCommentCreate now socket payload db
  | .commentDebateUpdate payload => handleDebateCommentUpdate now socket payload db
  | .commentArgumentCreate payload => handleArgumentCommentCreate now socket payload db
  | .commentArgumentUpdate payload => handleArgumentCommentUpdate now socket payload db
  | .argumentUpdate payload => handleArgumentUpdate socket payload db
  | .debateUpdate payload => handleDebateUpdate socket payload db

end DecentDebates

import DecentDebates.Entities.ReviewHandlers
import DecentDebates.ReviewMessages
import DecentDebates.Comments

set_option autoImplicit false

/-! # A failed message affects only its sender

What a message has done when its handler has ended: it is acknowledged, one row is written and the
room has heard of it; or the sender has left the room with an error, and that is all. Between the two
there is a third case. A row is written when the service call accepts the message (`WritesRow`), and
what the handler does after the call may still throw (`ThrowsLate`). -/

namespace DecentDebates

open Relational Effects Json

/-! ## The two outcomes -/

/-- One row is inserted or updated, in one of the tables that messages write. -/
inductive OneRowWritten (db db' : Database) : Prop
  | inserted (r : ReviewRow) (hnew : ∀ x ∈ db.reviewRows, x.key ≠ r.key)
      (hrows : ∀ x, x ∈ db'.reviewRows ↔ x ∈ db.reviewRows ∨ x = r)
  | updated (r r' : ReviewRow) (hr : r ∈ db.reviewRows) (hkey : r'.key = r.key)
      (hrows : ∀ x, x ∈ db'.reviewRows ↔ (x ∈ db.reviewRows ∧ x ≠ r) ∨ x = r')

/-- The other tables are the same. -/
def Database.SameElsewhere (db db' : Database) : Prop :=
  { db' with
    debates := db.debates
    arguments := db.arguments
    ticketComments := db.ticketComments } = db

namespace ReviewGateway

/-- The room has heard of one row that is written. -/
structure Announced (socket : Socket) (room : String) (event : ReviewEventName)
    (s s' : GatewayState) : Prop where
  row : OneRowWritten s.db s'.db
  elsewhere : s.db.SameElsewhere s'.db
  emitted : ∃ data, s'.emitted = s.emitted ++ [.toRoom socket.id room event data]

/-- The sender has left the room with an error, and nothing else has changed. -/
structure FailedAlone (socket : Socket) (room : String) (s s' : GatewayState) : Prop where
  db : s'.db = s.db
  emitted : ∃ reason, s'.emitted = s.emitted ++ [.error socket.id reason]
  jobs : s'.jobs = s.jobs
  left : ∀ x ∈ s'.sockets, x.id = socket.id → room ∉ x.rooms
  others : (s'.sockets.filter fun x => x.id ≠ socket.id) =
    s.sockets.filter fun x => x.id ≠ socket.id

/-- The message is acknowledged and announced, or it fails and affects only its sender. -/
def Isolated (P : Platform) (now : Timestamp) (socket : Socket) (room : String)
    (event : ReviewEventName) (payload : JsValue) (s : GatewayState) : Prop :=
  (∃ reply s', (handle P now socket event payload).run s = (.ok (some reply), s') ∧
    Announced socket room event s s') ∨
  ∃ s', (handle P now socket event payload).run s = (.ok none, s') ∧ FailedAlone socket room s s'

end ReviewGateway

/-! ## What the services accept -/

/-- The conditional insert stores the comment. -/
def AddCommentData.Accepted (d : AddCommentData) (linked : Database → Int → Bool)
    (db : Database) : Prop :=
  ∃ ticketId, int4 d.ticketId = .ok ticketId ∧ IsText d.content ∧ linked db ticketId = true ∧
    db.ConnectedTo ticketId d.commenterId ∧ db.ticketComments.next ≤ int4Max ∧
    ∃ u ∈ db.users.rows, u.id = d.commenterId

/-- The comment is there and it is the user's. -/
def UpdateCommentData.Accepted (d : UpdateCommentData) (userId : Int) (db : Database) : Prop :=
  IsText d.content ∧ ∃ tc ∈ db.ticketComments.rows,
    nullableInt4 d.commentId = .ok (some tc.id) ∧ tc.commenterId = userId

/-- Not yet accepted: a submission can be edited as long as this holds of its ticket. -/
def TicketRow.Open (t : TicketRow) : Prop :=
  t.boardList ≠ none ∧ t.boardList ≠ some .accepted

/-- The texts fit their columns, and the argument is the user's and not yet accepted. -/
def UpdateArgumentData.Accepted (d : UpdateArgumentData) (db : Database) : Prop :=
  (∃ given title, d.argumentData.title = some given ∧ varchar 80 given = .ok title) ∧
  (∃ content, d.argumentData.content = some content ∧ IsText content) ∧
  ∃ a ∈ db.arguments.rows, ∃ t ∈ db.tickets.rows, int4 d.argumentId = .ok a.id ∧
    a.createdBy = d.user.id ∧ t.Open ∧ a.ticketId = some t.id

/-- The title fits its column, and the debate is the user's and not yet accepted. -/
def UpdateDebateData.Accepted (d : UpdateDebateData) (db : Database) : Prop :=
  (∃ given title, d.title = some given ∧ varchar 80 given = .ok title) ∧
  ∃ x ∈ db.debates.rows, ∃ t ∈ db.tickets.rows, int4 d.debateId = .ok x.id ∧
    x.createdBy = d.user.id ∧ x.ticketId = t.id ∧ t.Open

/-! ## What a handler makes of a payload -/

/-- A member of the value, if it is an object that has one of the name. -/
def JsValue.member (v : JsValue) (name : String) : JsValue := v.bind fun v => v.member? name

/-- Unary plus does not throw. -/
def JsValue.Convertible : JsValue → Prop
  | none => True
  | some v => hasText v = true

namespace ReviewGateway

/-- `data.argumentId` has a text, and the edit is accepted. -/
def AcceptsArgument (P : Platform) (db : Database) (data : JsValue) (user : UserCookieData) : Prop :=
  ∃ argumentId,
    P.toStringParam "payload.data.argumentId.toString" (data.member "argumentId") =
      .ok argumentId ∧
    UpdateArgumentData.Accepted
      ⟨user, argumentId,
        ⟨P.textParam (data.member "title"), P.textParam (data.member "content")⟩⟩ db

/-- `data.debateId` has a text, and the edit is accepted. -/
def AcceptsDebate (P : Platform) (db : Database) (data : JsValue) (user : UserCookieData) : Prop :=
  ∃ debateId,
    P.toStringParam "payload.data.debateId.toString" (data.member "debateId") = .ok debateId ∧
    UpdateDebateData.Accepted ⟨user, debateId, P.textParam (data.member "title")⟩ db

/-- The service that the message calls accepts it. -/
def WritesRow (P : Platform) (user : UserCookieData) (ticketId : String) (payload : JsValue)
    (db : Database) : ReviewEventName → Prop
  | .commentDebateCreate =>
    (payload.member "comment").truthy = true ∧
      AddCommentData.Accepted
        ⟨toNumber ticketId, P.contentParam (payload.member "comment"), user.id⟩
        debateReferences db
  | .commentArgumentCreate =>
    (payload.member "comment").truthy = true ∧
      AddCommentData.Accepted
        ⟨toNumber ticketId, P.contentParam (payload.member "comment"), user.id⟩
        argumentReferences db
  | .commentDebateUpdate | .commentArgumentUpdate =>
    (payload.member "content").truthy = true ∧
      UpdateCommentData.Accepted
        ⟨P.int4Param (payload.member "commentId"), P.contentParam (payload.member "content")⟩
        user.id db
  | .argumentUpdate =>
    (payload.member "data").truthy = true ∧ user.role = some .user ∧
      AcceptsArgument P db (payload.member "data") user
  | .debateUpdate =>
    (payload.member "data").truthy = true ∧ user.role = some .user ∧
      AcceptsDebate P db (payload.member "data") user

/-- After its broadcast the message's handler converts an id of the payload that has no text: the
    author's, or the assignee's when the sender is the author. -/
def ThrowsLate (user : UserCookieData) (payload : JsValue) : ReviewEventName → Prop
  | .commentDebateUpdate => False
  | .commentArgumentUpdate => False
  | _ =>
    ¬ (payload.member "userId").Convertible ∨
      unaryPlus (payload.member "userId") = .ok (.int user.id) ∧
        ¬ (payload.member "assignedToId").Convertible

end ReviewGateway

end DecentDebates

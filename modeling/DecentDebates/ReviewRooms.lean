import DecentDebates.System
import DecentDebates.Entities.ReviewGateway
import DecentDebates.Entities.DebatesController

set_option autoImplicit false

/-! # Review rooms as a transition system

The tables, the connected sockets and the running message handlers. A handler reads its socket when
the message arrives, its service call takes effect later, and it emits later still, so between these
any other steps may happen. A room emit goes to the sockets that have joined the room and not left
it, except the sender. -/

namespace DecentDebates

open Relational

/-- A running handler: the socket as the handler read it, the message, and how the service call has
    settled, once it has. -/
structure Handler where
  sender : Socket
  message : ReviewMessage
  result : Option (Except HandlerError HandlerResult)

structure ReviewState where
  db : Database
  sockets : List Socket
  handlers : List Handler

def ReviewState.init (lower : String → String) : ReviewState := ⟨Database.empty lower, [], []⟩

inductive ReviewStep where
  /-- A service call of the REST endpoints. -/
  | call (c : Call)
  | connect (socketId : Nat) (ticketId : Option String)
  /-- The session of the socket has been read, and it has a user. -/
  | handleConnection (socketId : Nat) (user : UserCookieData)
  /-- The connection is lost, or its session has no user. -/
  | disconnect (socketId : Nat)
  | message (socketId : Nat) (message : ReviewMessage)
  /-- The service call of the handler at this position. -/
  | execute (now : Timestamp) (position : Nat)
  /-- The handler at this position goes on after its call, and ends. -/
  | resume (position : Nat)
  /-- `GET /comment/:ticketId` -/
  | getTicketComments (ticketId : String) (user : UserCookieData)

/-- `addUserToRoom`, for a socket that is known to have a room. -/
def Socket.join (socket : Socket) (user : UserCookieData) (room : String) : Socket :=
  { socket with
    user := some user
    rooms := room :: socket.rooms }

def Socket.leave (socket : Socket) (room : String) : Socket :=
  { socket with rooms := socket.rooms.filter (· ≠ room) }

/-- The socket is connected and its session has not been read yet. -/
def Socket.Unidentified (socket : Socket) (socketId : Nat) : Prop :=
  socket.id = socketId ∧ socket.user = none

instance (socket : Socket) (socketId : Nat) : Decidable (socket.Unidentified socketId) :=
  inferInstanceAs (Decidable (_ ∧ _))

/-- `handleConnection` with a user: a socket without a ticket id is disconnected. -/
def ReviewState.handleConnection (s : ReviewState) (socketId : Nat) (user : UserCookieData) :
    ReviewState :=
  { s with
    sockets := s.sockets.filterMap fun socket =>
      if socket.Unidentified socketId then
        match socket.getRoomIdentifier with
        | .ok room => some (socket.join user room)
        | .error _ => none
      else some socket }

/-- `removeUserFromRoom` -/
def ReviewState.removeUserFromRoom (s : ReviewState) (sender : Socket) : ReviewState :=
  match sender.getRoomIdentifier with
  | .error _ => s
  | .ok room =>
    { s with
      sockets := s.sockets.map fun socket =>
        if socket.id = sender.id then socket.leave room else socket }

/-- The state of the API after a step. -/
def reviewStep (s : ReviewState) : ReviewStep → ReviewState
  | .call c => { s with db := step s.db c }
  | .connect socketId ticketId =>
    if s.sockets.any fun socket => socket.id = socketId then s
    else { s with sockets := ⟨socketId, ticketId, none, []⟩ :: s.sockets }
  | .handleConnection socketId user => s.handleConnection socketId user
  | .disconnect socketId =>
    { s with sockets := s.sockets.filter fun socket => socket.id ≠ socketId }
  | .message socketId message =>
    match s.sockets.find? fun socket => socket.id = socketId with
    | none => s
    | some socket => { s with handlers := s.handlers ++ [⟨socket, message, none⟩] }
  | .execute now position =>
    match s.handlers[position]? with
    | some ⟨sender, message, none⟩ =>
      let handled := handle now sender message s.db
      { s with
        db := handled.db
        handlers := s.handlers.set position ⟨sender, message, some handled.result⟩ }
    | _ => s
  | .resume position =>
    match s.handlers[position]? with
    | some ⟨_, _, some (.ok _)⟩ => { s with handlers := s.handlers.eraseIdx position }
    | some ⟨sender, _, some (.error _)⟩ =>
      { s with handlers := s.handlers.eraseIdx position }.removeUserFromRoom sender
    | _ => s
  | .getTicketComments _ _ => s

/-! ## What is delivered -/

inductive Delivery where
  | event (room : String) (receiver : Socket) (event : ReviewEvent)
  | listing (ticketId : Int) (user : UserCookieData) (comment : Comment)
deriving DecidableEq, Repr

/-- `socket.to(room).emit(…)` -/
def ReviewState.emit (s : ReviewState) (sender : Socket) (room : String) (event : ReviewEvent) :
    List Delivery :=
  (s.sockets.filter fun socket => room ∈ socket.rooms ∧ socket.id ≠ sender.id).map fun socket =>
    .event room socket event

/-- `CommentController.getTicketComments`, one delivery for each comment of the answer. -/
def CommentController.getTicketComments (ticketId : String) (user : UserCookieData)
    (db : Database) : HttpResponse (List Comment) :=
  match parseIntPipe ticketId with
  | none => .numericExpected
  | some ticketId =>
    match DecentDebates.getTicketComments ticketId user db with
    | .error e => .ofError e
    | .ok comments => .ok comments

/-- What a step delivers, in the state it starts from. -/
def deliveries (s : ReviewState) : ReviewStep → List Delivery
  | .resume position =>
    match s.handlers[position]? with
    | some ⟨sender, _, some (.ok result)⟩ =>
      match sender.getRoomIdentifier with
      | .ok room => s.emit sender room result.event
      | .error _ => []
    | _ => []
  | .getTicketComments ticketId user =>
    match parseIntPipe ticketId, CommentController.getTicketComments ticketId user s.db with
    | some (.int n), .ok comments => comments.map (.listing n user)
    | _, _ => []
  | _ => []

/-! ## Confidentiality -/

/-- The user is connected to the ticket: its author or its assignee. -/
def Database.Participant (db : Database) (ticketId userId : Int) : Prop :=
  ∃ t ∈ db.tickets.rows, (participantWhere ticketId userId t).holds = true

instance (db : Database) (ticketId userId : Int) : Decidable (db.Participant ticketId userId) :=
  inferInstanceAs (Decidable (∃ t ∈ db.tickets.rows, _))

/-- The text in the handshake denotes a ticket of the user's. -/
def Database.MayJoin (db : Database) (ticketId : String) (userId : Int) : Prop :=
  match toNumber ticketId with
  | .int n => db.Participant n userId
  | .other => False

instance (db : Database) (ticketId : String) (userId : Int) :
    Decidable (db.MayJoin ticketId userId) :=
  match h : toNumber ticketId with
  | .int n => decidable_of_iff (db.Participant n userId) (by simp [Database.MayJoin, h])
  | .other => isFalse (by simp [Database.MayJoin, h])

/-- The room is that of a ticket of the socket's user. -/
def Database.MayHear (db : Database) (room : String) (socket : Socket) : Prop :=
  ∃ ticketId user, room = reviewRoom ticketId ∧ socket.user = some user ∧
    db.MayJoin ticketId user.id

/-- The receiver is connected to the ticket whose room or listing it is, and a listing has comments
    of that ticket only. -/
def Delivery.Confidential (db : Database) : Delivery → Prop
  | .event room receiver _ => db.MayHear room receiver
  | .listing ticketId user comment =>
    db.Participant ticketId user.id ∧
      ∃ tc ∈ db.ticketComments.rows, tc.id = comment.commentId ∧ tc.ticketId = ticketId

/-! ## Steps that let a stranger listen -/

def ReviewStep.handleConnection? : ReviewStep → Option (Nat × UserCookieData)
  | .handleConnection socketId user => some (socketId, user)
  | _ => none

def ReviewStep.updateTicket? : ReviewStep → Option UpdateTicketData
  | .call (.updateTicket d) => some d
  | _ => none

/-- A user joins the room of a ticket that is not the user's. -/
def ReviewState.AdmitsStranger (s : ReviewState) (l : ReviewStep) : Prop :=
  ∃ c ∈ l.handleConnection?, ∃ socket ∈ s.sockets, socket.Unidentified c.1 ∧
    ∃ ticketId ∈ socket.getTicketIdFromSocket.toOption, ¬ s.db.MayJoin ticketId c.2.id

/-- The request takes the ticket from its assignee, who did not create it. -/
def UpdateTicketData.Unassigns (d : UpdateTicketData) (t : TicketRow) (userId : Int) : Prop :=
  d.ticketId = t.id ∧ t.assignedTo = some userId ∧ t.createdBy ≠ userId ∧
    (BoardList.ofLabel? d.boardList).isSome = true ∧
    (t.boardList = some .pending ∧ d.userId ≠ userId ∨
      t.boardList ≠ none ∧ t.boardList ≠ some .pending ∧ d.userId = userId ∧
        d.boardList = "PENDING")

instance (d : UpdateTicketData) (t : TicketRow) (userId : Int) : Decidable (d.Unassigns t userId) :=
  inferInstanceAs (Decidable (_ ∧ _))

/-- A ticket is taken from an assignee whose socket is in its room. -/
def ReviewState.UnassignsListener (s : ReviewState) (l : ReviewStep) : Prop :=
  ∃ d ∈ l.updateTicket?, ∃ t ∈ s.db.tickets.rows, ∃ socket ∈ s.sockets, ∃ user ∈ socket.user,
    d.Unassigns t user.id ∧ ∃ ticketId ∈ socket.getTicketIdFromSocket.toOption,
      reviewRoom ticketId ∈ socket.rooms ∧ toNumber ticketId = .int t.id

/-- The step puts or leaves a stranger in a room. -/
def ReviewState.LetsListen (s : ReviewState) (l : ReviewStep) : Prop :=
  s.AdmitsStranger l ∨ s.UnassignsListener l

instance (s : ReviewState) (l : ReviewStep) : Decidable (s.LetsListen l) :=
  inferInstanceAs (Decidable ((∃ c ∈ l.handleConnection?, _) ∨ ∃ d ∈ l.updateTicket?, _))

end DecentDebates

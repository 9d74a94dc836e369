import DecentDebates.Guards
import DecentDebates.Entities.AuthService
import DecentDebates.Entities.ModeratorController
import DecentDebates.Entities.DebatesController
import DecentDebates.PublicApi
import DecentDebates.ReviewRooms

set_option autoImplicit false

/-! # Requests with sessions

The API as its clients see it: HTTP requests and sockets that carry a session cookie. A request gets
the session of its cookie and passes the guards of its route; later its handler calls a service in
the name of the session's user, and later still the session is saved, so between these any other
steps may happen. A socket gets its user from the session that it presents when it connects. Only
signing up and signing in write a session, and a session ends when it expires.

The signature of a cookie cannot be forged, so a cookie is the id of a session here, or missing. A
client may present any id that was ever given out, its own or not. The ids of new sessions come from
`express-session`, so they are part of the step. -/

namespace DecentDebates

open Transition

variable {bcrypt : Bcrypt}

/-- An order in which the server may return the rows that it finds. -/
structure RowOrder where
  order : List UserRow → List UserRow
  perm : ∀ users, (order users).Perm users

/-- An HTTP request, with the parameters as the pipes leave them. -/
inductive ApiRequest (bcrypt : Bcrypt) where
  | register (salt : bcrypt.Salt) (now : Timestamp) (registerUserDTO : RegisterUserDTO)
  | login (found : RowOrder) (loginUserDTO : LoginUserDTO)
  | createDebate (now : Timestamp) (body : CreateDebateDTO)
  | createArgument (now : Timestamp) (debateId : JsNumber) (body : CreateArgumentDTO)
  | saveArgumentAsDraft (now : Timestamp) (debateId : JsNumber) (body : CreateArgumentDTO)
  | updateDraft (debateId draftId : JsNumber) (body : UpdateDraftDTO)
  | submitDraft (debateId draftId : JsNumber) (body : UpdateDraftDTO)
  | updateTicket (id : Int) (body : UpdateTicketDTO)
  | approveDebate (ticketId : Int) (body : ApproveDebateDTO)
  | approveArgument (ticketId : Int) (body : ApproveArgumentDTO)
  | read (reading : Reading)

def ApiRequest.route : ApiRequest bcrypt → Route
  | .register .. => authRoute
  | .login .. => authRoute
  | .createDebate .. => plainRoute .post
  | .createArgument .. => plainRoute .post
  | .saveArgumentAsDraft .. => plainRoute .post
  | .updateDraft .. => plainRoute .patch
  | .submitDraft .. => plainRoute .post
  | .updateTicket .. => moderatorRoute .patch
  | .approveDebate .. => moderatorRoute .patch
  | .approveArgument .. => moderatorRoute .patch
  | .read reading => reading.route

/-- The tables after the handler, and the user it has stored in the session, if it has. -/
structure Served where
  db : Database
  signedIn : Option UserCookieData := none

/-- `(req as any).session.user = this.authService.getUserCookieFields(user)`, after `register` or
    `login` has succeeded. -/
def AuthController.handle (result : Except AuthError UserRow × Database) : Served :=
  { db := result.2
    signedIn := result.1.toOption.map getUserCookieFields }

/-- A handler that needs `req.session.user`. -/
def withUser (user : Option UserCookieData) (db : Database)
    (handler : UserCookieData → Database) : Served :=
  match user with
  | none => { db }
  | some user => { db := handler user }

/-- The handler of a request. -/
def ApiRequest.handle (user : Option UserCookieData) (db : Database) : ApiRequest bcrypt → Served
  | .register salt now d => AuthController.handle (AuthService.register bcrypt salt now d db)
  | .login found d => AuthController.handle (AuthService.login bcrypt found.order d db, db)
  | .createDebate now body => withUser user db fun user => step db (.createDebate now user body)
  | .createArgument now debateId body =>
    withUser user db fun user => step db (.createArgument now ⟨user, debateId, body⟩)
  | .saveArgumentAsDraft now debateId body =>
    withUser user db fun user => step db (.saveArgumentAsDraft now ⟨user, debateId, body⟩)
  | .updateDraft debateId draftId body =>
    withUser user db fun user => step db (.updateDraft ⟨user, debateId, draftId, body⟩)
  | .submitDraft debateId draftId body =>
    withUser user db fun user => step db (.submitDraft ⟨user, debateId, draftId, body⟩)
  | .updateTicket id body =>
    withUser user db fun user => (ModeratorController.updateTicket user id body db).db
  | .approveDebate ticketId body =>
    withUser user db fun user => (ModeratorController.approveDebate user ticketId body db).db
  | .approveArgument ticketId body =>
    withUser user db fun user => (ModeratorController.approveArgument user ticketId body db).db
  | .read _ => { db }

/-! ## The store -/

/-- The sessions that have been saved: `saveUninitialized` is off, so these have a user. -/
structure SessionStore where
  sessions : List (Nat × UserCookieData)

namespace SessionStore

def empty : SessionStore := ⟨[]⟩

/-- The user of the session of this cookie. -/
def user (store : SessionStore) (cookie : Option Nat) : Option UserCookieData :=
  cookie.bind fun id => store.sessions.lookup id

/-- The id of `req.session`: a cookie without a session gets the generated one. -/
def load (store : SessionStore) (cookie : Option Nat) (generated : Nat) : Nat :=
  match cookie with
  | some id => if (store.sessions.lookup id).isSome then id else generated
  | none => generated

/-- The store drops a session whose time is up. -/
def destroy (store : SessionStore) (id : Nat) : SessionStore :=
  ⟨store.sessions.filter fun s => s.1 ≠ id⟩

/-- A session is saved because its user was set. -/
def set (store : SessionStore) (id : Nat) (user : UserCookieData) : SessionStore :=
  ⟨(id, user) :: (store.destroy id).sessions⟩

end SessionStore

/-! ## The system -/

/-- A request that its guards have let through, with `req.session` as it was read. -/
structure InFlight (bcrypt : Bcrypt) where
  sessionId : Nat
  user : Option UserCookieData
  request : ApiRequest bcrypt

structure ApiState (bcrypt : Bcrypt) where
  review : ReviewState
  store : SessionStore
  /-- The requests whose handlers have not called their services yet. -/
  requests : List (InFlight bcrypt)
  /-- The sessions that are saved when the answers to their requests end. -/
  ending : List (Nat × UserCookieData)

inductive ApiStep (bcrypt : Bcrypt) where
  /-- The session is read, and the guards run. `generated` is the id that `express-session` makes up
  if the cookie has no session. -/
  | receive (cookie : Option Nat) (generated : Nat) (overLimit : Bool)
      (request : ApiRequest bcrypt)
  /-- The handler of the request at this position. -/
  | handle (position : Nat)
  /-- The session at this position is saved. -/
  | save (position : Nat)
  | expire (sessionId : Nat)
  | connect (socketId : Nat) (ticketId : Option String)
  /-- `getUserFromSocket` has read the session of the handshake's cookie. -/
  | handleConnection (socketId : Nat) (cookie : Option Nat)
  | disconnect (socketId : Nat)
  | message (socketId : Nat) (message : ReviewMessage)
  | execute (now : Timestamp) (position : Nat)
  | resume (position : Nat)
  | skipIds (gaps : Gaps)

namespace ApiState

/-- A request that a guard rejects ends here. -/
def receive (s : ApiState bcrypt) (cookie : Option Nat) (generated : Nat) (overLimit : Bool)
    (request : ApiRequest bcrypt) : ApiState bcrypt :=
  match request.route.canActivate (s.store.user cookie) overLimit with
  | .error _ => s
  | .ok () =>
    { s with
      requests := s.requests ++ [⟨s.store.load cookie generated, s.store.user cookie, request⟩] }

def handle (s : ApiState bcrypt) (position : Nat) : ApiState bcrypt :=
  match s.requests[position]? with
  | none => s
  | some r =>
    let served := r.request.handle r.user s.review.db
    { s with
      review := { s.review with db := served.db }
      requests := s.requests.eraseIdx position
      ending := s.ending ++ (served.signedIn.map fun user => (r.sessionId, user)).toList }

def save (s : ApiState bcrypt) (position : Nat) : ApiState bcrypt :=
  match s.ending[position]? with
  | none => s
  | some (sessionId, user) =>
    { s with
      store := s.store.set sessionId user
      ending := s.ending.eraseIdx position }

/-- A handshake without a session's user is disconnected. -/
def handleConnection (s : ApiState bcrypt) (socketId : Nat) (cookie : Option Nat) : ReviewStep :=
  match s.store.user cookie with
  | none => .disconnect socketId
  | some user => .handleConnection socketId user

end ApiState

def apiStep (s : ApiState bcrypt) : ApiStep bcrypt → ApiState bcrypt
  | .receive cookie generated overLimit request => s.receive cookie generated overLimit request
  | .handle position => s.handle position
  | .save position => s.save position
  | .expire id => { s with store := s.store.destroy id }
  | .connect socketId ticketId =>
    { s with review := reviewStep s.review (.connect socketId ticketId) }
  | .handleConnection socketId cookie =>
    { s with review := reviewStep s.review (s.handleConnection socketId cookie) }
  | .disconnect socketId => { s with review := reviewStep s.review (.disconnect socketId) }
  | .message socketId message =>
    { s with review := reviewStep s.review (.message socketId message) }
  | .execute now position => { s with review := reviewStep s.review (.execute now position) }
  | .resume position => { s with review := reviewStep s.review (.resume position) }
  | .skipIds gaps => { s with review := reviewStep s.review (.call (.skipIds gaps)) }

/-! ## Who signs in, and who is known -/

/-- A step signs the user up or in. -/
inductive ApiState.SignsIn (s : ApiState bcrypt) : ApiStep bcrypt → UserCookieData → Prop
  | registers {position : Nat} {r : InFlight bcrypt} {salt : bcrypt.Salt} {now : Timestamp}
      {d : RegisterUserDTO} {row : UserRow} (hr : s.requests[position]? = some r)
      (hrequest : r.request = .register salt now d)
      (hrow : (AuthService.register bcrypt salt now d s.review.db).1 = .ok row) :
      s.SignsIn (.handle position) (getUserCookieFields row)
  | logsIn {position : Nat} {r : InFlight bcrypt} {found : RowOrder} {d : LoginUserDTO}
      {row : UserRow} (hr : s.requests[position]? = some r) (hrequest : r.request = .login found d)
      (hrow : AuthService.login bcrypt found.order d s.review.db = .ok row) :
      s.SignsIn (.handle position) (getUserCookieFields row)

/-- A step signs the user up or in, in the session of this id. -/
def ApiState.Binds (s : ApiState bcrypt) (l : ApiStep bcrypt) (session : Nat × UserCookieData) :
    Prop :=
  ∃ position r, l = .handle position ∧ s.requests[position]? = some r ∧
    r.sessionId = session.1 ∧ s.SignsIn l session.2

/-- A session, a request, a socket or a message handler has this user. -/
inductive ApiState.Holds (s : ApiState bcrypt) (user : UserCookieData) : Prop
  | session {sessionId : Nat} (h : (sessionId, user) ∈ s.store.sessions)
  | ending {sessionId : Nat} (h : (sessionId, user) ∈ s.ending)
  | request {r : InFlight bcrypt} (h : r ∈ s.requests) (huser : r.user = some user)
  | socket {socket : Socket} (h : socket ∈ s.review.sockets) (huser : socket.user = some user)
  | handler {handler : Handler} (h : handler ∈ s.review.handlers)
      (huser : handler.sender.user = some user)

/-- A row has this user as its author, or as the moderator it is assigned to. -/
inductive Database.NamesUser (db : Database) (id : Int) : Prop
  | ticket {t : TicketRow} (h : t ∈ db.tickets.rows) (hid : t.createdBy = id)
  | assigned {t : TicketRow} (h : t ∈ db.tickets.rows) (hid : t.assignedTo = some id)
  | debate {d : DebateRow} (h : d ∈ db.debates.rows) (hid : d.createdBy = id)
  | argument {a : ArgumentRow} (h : a ∈ db.arguments.rows) (hid : a.createdBy = id)
  | comment {c : TicketCommentRow} (h : c ∈ db.ticketComments.rows) (hid : c.commenterId = id)

/-- A ticket of this id is changed by the step. -/
def ApiState.ChangesTicket (s : ApiState bcrypt) (l : ApiStep bcrypt) (id : Int) : Prop :=
  ∃ t ∈ s.review.db.tickets.rows, ∃ t' ∈ (apiStep s l).review.db.tickets.rows,
    t.id = id ∧ t'.id = id ∧ t' ≠ t

/-- The endpoints that change what is published. -/
def ApiRequest.Moderates : ApiRequest bcrypt → Prop
  | .updateTicket .. => True
  | .approveDebate .. => True
  | .approveArgument .. => True
  | _ => False

/-- An account that exists before the API starts. -/
structure SeedAccount where
  now : Timestamp
  account : RegisterUserDTO
  role : Option UserRole

def SeedAccount.call (a : SeedAccount) : Call := .seedUser a.now a.account a.role

/-- The tables with the seeded accounts. -/
def Database.seeded (lower : String → String) (accounts : List SeedAccount) : Database :=
  run step (Database.empty lower) (accounts.map SeedAccount.call)

/-- The account of a moderator exists before the API starts. -/
def Database.HasModerator (db : Database) (row : UserRow) : Prop :=
  row ∈ db.users.rows ∧ row.role = some .moderator

/-- Nothing of the tables is published, and nobody has a ticket in review. -/
def Database.AllPending (db : Database) : Prop :=
  ∀ t ∈ db.tickets.rows, t.assignedTo = none ∧ t.boardList = some .pending

/-- An answer that shows no debate in a list and no argument. -/
def PublicData.ShowsNothing : PublicData → Prop
  | .debates data => data = []
  | .debate data => data.args = []
  | .argument _ => False

/-- What holds in every state of the API that was started with these accounts. -/
structure ApiState.Sound (seeded : List UserRow) (s : ApiState bcrypt) : Prop where
  accounts : ∀ row ∈ s.review.db.users.rows, row ∈ seeded ∨ row.role = some .user
  users : ∀ user, s.Holds user →
    ∃ row ∈ s.review.db.users.rows, getUserCookieFields row = user
  guarded : ∀ r ∈ s.requests, ∃ overLimit, r.request.route.canActivate r.user overLimit = .ok ()

/-- The state in which the API starts. -/
def ApiState.init (bcrypt : Bcrypt) (db : Database) : ApiState bcrypt where
  review := ⟨db, [], []⟩
  store := .empty
  requests := []
  ending := []

end DecentDebates

import DecentDebates.Lib.Feed
import DecentDebates.ReviewRooms
import DecentDebates.ReviewScreens

set_option autoImplicit false

/-! # The comments of a review page

The page of an argument's ticket opens a socket, which joins the room of the ticket, and requests
the comments of the ticket. The answer replaces what the page shows; a comment that another socket
creates comes as an event and is appended. Meanwhile other sockets come and go and create comments,
on this ticket and on others. -/

namespace DecentDebates

open Feed Relational

/-- A tab with the review page of a ticket open. -/
structure ReviewPage where
  socketId : Nat
  /-- The ticket in the address of the page, which is sent in the handshake and in the request. -/
  ticketId : String
  ticket : Int
  user : UserCookieData
  parses : parseIntPipe ticketId = some (.int ticket)

/-- What sockets other than the page's do, and the API for them. -/
def ReviewStep.OfOthers (socketId : Nat) : ReviewStep → Prop
  | .connect id _ => id ≠ socketId
  | .handleConnection id _ => id ≠ socketId
  | .disconnect id => id ≠ socketId
  | .message id (.commentArgumentCreate _) => id ≠ socketId
  | .execute _ _ => True
  | .resume _ => True
  | _ => False

instance (socketId : Nat) : (l : ReviewStep) → Decidable (l.OfOthers socketId)
  | .connect id _ => inferInstanceAs (Decidable (id ≠ socketId))
  | .handleConnection id _ => inferInstanceAs (Decidable (id ≠ socketId))
  | .disconnect id => inferInstanceAs (Decidable (id ≠ socketId))
  | .message id (.commentArgumentCreate _) => inferInstanceAs (Decidable (id ≠ socketId))
  | .execute _ _ => inferInstanceAs (Decidable True)
  | .resume _ => inferInstanceAs (Decidable True)
  | .message _ (.commentDebateCreate _) => inferInstanceAs (Decidable False)
  | .message _ (.commentDebateUpdate _) => inferInstanceAs (Decidable False)
  | .message _ (.commentArgumentUpdate _) => inferInstanceAs (Decidable False)
  | .message _ (.argumentUpdate _) => inferInstanceAs (Decidable False)
  | .message _ (.debateUpdate _) => inferInstanceAs (Decidable False)
  | .call _ => inferInstanceAs (Decidable False)
  | .getTicketComments _ _ => inferInstanceAs (Decidable False)

inductive PageStep (page : ReviewPage) where
  | others (l : ReviewStep) (h : l.OfOthers page.socketId)
  | connect
  /-- The session of the page's socket has been read. -/
  | handleConnection
  /-- The tables are read for `fetchTicketComments`. -/
  | getTicketComments
  /-- The response arrives. -/
  | setComments
  /-- The next `comment/argument:create` event arrives. -/
  | commentCreated

structure PageState where
  server : ReviewState
  /-- Events on their way to the page; a socket delivers them in order. -/
  inbox : List Comment
  fetch : Fetch (List Comment)
  comments : List Comment

/-- Nobody is connected and the page has just been opened. -/
def PageState.start (db : Database) : PageState := ⟨⟨db, [], []⟩, [], .asked, []⟩

namespace ReviewPage

variable (page : ReviewPage)

/-- The comment of an event that reaches the page. -/
def insertedComment : Delivery → Option Comment
  | .event _ receiver (.commentArgumentCreate insertedComment) =>
    if receiver.id = page.socketId then some insertedComment else none
  | _ => none

def serve (s : PageState) (l : ReviewStep) : PageState :=
  { s with
    server := reviewStep s.server l
    inbox := s.inbox ++ (deliveries s.server l).filterMap page.insertedComment }

def step (s : PageState) : PageStep page → PageState
  | .others l _ => page.serve s l
  | .connect => page.serve s (.connect page.socketId (some page.ticketId))
  | .handleConnection => page.serve s (.handleConnection page.socketId page.user)
  | .getTicketComments =>
    match s.fetch, CommentController.getTicketComments page.ticketId page.user s.server.db with
    | .asked, .ok comments => { s with fetch := .answered comments }
    | _, _ => s
  | .setComments =>
    match s.fetch with
    | .answered comments => { s with fetch := .loaded, comments := comments }
    | _ => s
  | .commentCreated =>
    match s.inbox with
    | [] => s
    | comment :: inbox => { s with inbox := inbox, comments := s.comments ++ [comment] }

/-- The page's socket is in the room. -/
def Hears (s : ReviewState) (room : String) : Prop :=
  ∃ socket ∈ s.sockets, socket.id = page.socketId ∧ room ∈ socket.rooms

instance (s : ReviewState) (room : String) : Decidable (page.Hears s room) :=
  inferInstanceAs (Decidable (∃ socket ∈ s.sockets, _ ∧ _))

/-- The page is in the room of its ticket, it has the response, and nobody else is at it: no message
    is being handled and no event is on its way. -/
structure Quiet (s : PageState) : Prop where
  connected : page.Hears s.server (reviewRoom page.ticketId)
  fetch : s.fetch = .loaded
  handlers : s.server.handlers = []
  inbox : s.inbox = []

/-- Every comment of the ticket is in the list exactly once. -/
def ShowsOnce (s : PageState) : Prop :=
  ∀ tc ∈ s.server.db.ticketComments.rows, tc.ticketId = page.ticket →
    (s.comments.map Comment.commentId).count tc.id = 1

instance (s : PageState) : Decidable (page.ShowsOnce s) :=
  inferInstanceAs (Decidable (∀ tc ∈ s.server.db.ticketComments.rows, _ → _))

/-! ## Steps that lose or repeat a comment -/

/-- The comment that a handler has inserted and is about to emit, and its sender. -/
def emitting (s : ReviewState) : ReviewStep → Option (Socket × Comment)
  | .resume position =>
    match s.handlers[position]? with
    | some ⟨sender, _, some (.ok ⟨.commentArgumentCreate comment, _⟩)⟩ => some (sender, comment)
    | _ => none
  | _ => none

/-- The page has the comment, or it will come with the response. -/
def Has (s : PageState) (comment : Comment) : Prop :=
  match s.fetch with
  | .asked => True
  | .answered comments => comment.commentId ∈ comments.map Comment.commentId
  | .loaded => comment.commentId ∈ s.comments.map Comment.commentId

/-- The comment may be appended now: a response on its way has it as well, or the response has come
    without it. -/
def Receives (s : PageState) (comment : Comment) : Prop :=
  match s.fetch with
  | .asked => True
  | .answered comments => comment.commentId ∈ comments.map Comment.commentId
  | .loaded => comment.commentId ∉ s.comments.map Comment.commentId

/-- A comment of the ticket that is emitted while the page is not in the sender's room is one that
    the page has, or will get with the response. -/
def KeepsEmitted (s : PageState) (l : ReviewStep) : Prop :=
  ∀ sender comment, emitting s.server l = some (sender, comment) →
    sender.ticketNumber = some page.ticket →
    (∀ room, sender.getRoomIdentifier = .ok room → ¬ page.Hears s.server room) → Has s comment

/-- No comment is lost or repeated by the step. -/
def Keeps (s : PageState) : PageStep page → Prop
  | .others l _ => page.KeepsEmitted s l
  | .commentCreated => ∀ comment ∈ s.inbox.head?, Receives s comment
  | _ => True

end ReviewPage

end DecentDebates

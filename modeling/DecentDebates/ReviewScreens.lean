import DecentDebates.Lib.Snapshot
import DecentDebates.System
import DecentDebates.Entities.DebatesQueries
import DecentDebates.Entities.ReviewGateway

set_option autoImplicit false

/-! # What moderators have on their screens

A moderator reads an argument in the activity view or on the page of its ticket, and approves it
with a request that names the ticket. An author may edit it in the meantime: the edit is announced
to whoever is in the room of the author's socket, and a page that hears of it shows the text that
was announced. Answers and announcements take their time, and may get lost. -/

namespace DecentDebates

open Relational

/-- The title and the content of the argument that a ticket stands for. -/
def Database.textOf (db : Database) (ticketId : Int) : Option (String × String) :=
  (db.arguments.rows.find? fun a => a.ticketId = some ticketId).map fun a => (a.title, a.content)

/-- A text that is shown as that of a ticket's argument. -/
abbrev ArgumentView := Snapshot.View Int (Option (String × String))

/-- `changes` counts how often the text of a ticket's argument has changed; no code reads it. -/
structure ScreenState where
  db : Database
  changes : Int → Nat
  /-- Edits that have been stored and not announced yet. -/
  announcements : List ArgumentView
  /-- Answers and announcements that have not reached their user yet. -/
  inFlight : List (Int × ArgumentView)
  /-- What a user was last shown as the argument of a ticket. -/
  shown : Int → Int → Option ArgumentView

inductive ScreenEvent where
  | call (c : Call)
  /-- The message of an author up to the update. -/
  | handleArgumentUpdate (sender : Socket) (payload : ArgumentReviewUpdated)
  /-- The edit at this position is announced to the users in the room. -/
  | emit (position : Nat) (receivers : List Int)
  | getDebateArgumentAsModerator (user : UserCookieData) (debateId argumentId : JsNumber)
  | getArgumentAsModerator (user : UserCookieData) (ticketId : JsNumber)
  | receive (position : Nat)
  | lose (position : Nat)

/-- The ticket whose page is in the socket's room. -/
def Socket.ticketNumber (socket : Socket) : Option Int :=
  match socket.getTicketIdFromSocket with
  | .ok ticketId =>
    match toNumber ticketId with
    | .int n => some n
    | .other => none
  | .error _ => none

namespace ScreenState

def init (lower : String → String) : ScreenState :=
  ⟨Database.empty lower, fun _ => 0, [], [], fun _ _ => none⟩

def setDb (s : ScreenState) (db : Database) : ScreenState :=
  { s with
    db := db
    changes := Snapshot.count s.db.textOf db.textOf s.changes }

def send (s : ScreenState) (userId : Int) (v : ArgumentView) : ScreenState :=
  { s with inFlight := s.inFlight ++ [(userId, v)] }

/-- The data tell the text that the ticket's argument has now. -/
def Announces (s : ScreenState) (ticketId : Int) (data : UpdateReviewArgumentData) : Prop :=
  (∃ a ∈ s.db.arguments.rows, a.ticketId = some ticketId ∧ data.argumentId = some (.int a.id)) ∧
    (data.title.getD "").length ≤ 80

instance (s : ScreenState) (ticketId : Int) (data : UpdateReviewArgumentData) :
    Decidable (s.Announces ticketId data) :=
  inferInstanceAs (Decidable (_ ∧ _))

/-- What the page of the ticket will show: it does not look at the argument's id. -/
def announcement (s : ScreenState) (ticketId : Int) (data : UpdateReviewArgumentData) :
    ArgumentView where
  key := ticketId
  value := some (data.title.getD "", data.content.getD "")
  version := if s.Announces ticketId data then some (s.changes ticketId) else none

/-- The row of `getDebateArgumentAsModerator`. -/
def debateArgumentView (s : ScreenState) (r : DebateArgument) : Option ArgumentView :=
  r.ticketId.map fun ticketId =>
    ⟨ticketId, some (r.ticketTitle.getD "", r.content.getD ""), some (s.changes ticketId)⟩

def argumentView (s : ScreenState) (r : ArgumentAsModerator) : ArgumentView :=
  ⟨r.ticketId, some (r.argumentTitle, r.argumentContent), some (s.changes r.ticketId)⟩

/-- The handler of an author's message, up to the emit. -/
def handleArgumentUpdate (s : ScreenState) (sender : Socket) (payload : ArgumentReviewUpdated) :
    ScreenState :=
  let handled := DecentDebates.handleArgumentUpdate sender payload s.db
  let s' := s.setDb handled.db
  match handled.result, sender.ticketNumber with
  | .ok ⟨.argumentUpdate data, _⟩, some ticketId =>
    { s' with announcements := s'.announcements ++ [s'.announcement ticketId data] }
  | _, _ => s'

end ScreenState

open ScreenState in
def screenStep (s : ScreenState) : ScreenEvent → ScreenState
  | .call c => s.setDb (step s.db c)
  | .handleArgumentUpdate sender payload => s.handleArgumentUpdate sender payload
  | .emit position receivers =>
    match s.announcements[position]? with
    | some v =>
      { s with
        announcements := s.announcements.eraseIdx position
        inFlight := s.inFlight ++ receivers.map fun userId => (userId, v) }
    | none => s
  | .getDebateArgumentAsModerator user debateId argumentId =>
    match DecentDebates.getDebateArgumentAsModerator debateId argumentId s.db with
    | .ok (r :: _) =>
      match s.debateArgumentView r with
      | some v => s.send user.id v
      | none => s
    | _ => s
  | .getArgumentAsModerator user ticketId =>
    match DecentDebates.getArgumentAsModerator user ticketId s.db with
    | .ok (some r) => s.send user.id (s.argumentView r)
    | _ => s
  | .receive position =>
    match s.inFlight[position]? with
    | some (userId, v) =>
      { s with
        inFlight := s.inFlight.eraseIdx position
        shown := fun u k => if u = userId ∧ k = v.key then some v else s.shown u k }
    | none => s
  | .lose position => { s with inFlight := s.inFlight.eraseIdx position }

/-! ## Approvals -/

/-- The step is a moderator's approval of a ticket, and it publishes the argument. -/
structure PublishesArgument (p : ScreenState × ScreenEvent) (user : UserCookieData)
    (ticketId : Int) (a : ArgumentRow) : Prop where
  approves : p.2 = .call (.approveTicket user ticketId)
  argument : a ∈ p.1.db.arguments.rows
  unpublished : ¬ p.1.db.ArgumentAccepted a
  published : (screenStep p.1 p.2).db.ArgumentAccepted a

/-- What the step publishes is what the approving moderator was last shown. -/
def PublishesWhatWasShown (p : ScreenState × ScreenEvent) : Prop :=
  ∀ user ticketId a, PublishesArgument p user ticketId a →
    ∃ v, p.1.shown user.id ticketId = some v ∧ v.value = some (a.title, a.content)

/-- The approving moderator has been shown the ticket's argument, and its text has not changed since
    what was shown last was read, or since it was stored and announced. -/
def ShownUpToDate (p : ScreenState × ScreenEvent) : Prop :=
  ∀ user ticketId a, PublishesArgument p user ticketId a →
    ∃ v, p.1.shown user.id ticketId = some v ∧ v.version = some (p.1.changes ticketId)

end DecentDebates

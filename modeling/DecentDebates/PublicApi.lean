import DecentDebates.Lib.NonInterference
import DecentDebates.Entities.DebatesController

set_option autoImplicit false

/-! # What the public may know

The published part of a database, the states that agree on it, and the requests whose answers the
published part decides. -/

namespace DecentDebates

open Relational

/-- A request to a public endpoint. -/
inductive PublicRequest where
  | getAll (filters : Except ServiceError (Option Filters))
  | getDebate (id : String)
  | getDebateArgument (debateId argumentId : String)

inductive PublicData where
  | debates (data : List ListedDebate)
  | debate (data : DebateBody)
  | argument (data : DebateArgument)
deriving DecidableEq, Repr

def HttpResponse.map {α β : Type} (f : α → β) : HttpResponse α → HttpResponse β
  | .ok data => .ok (f data)
  | .error status message => .error status message

def PublicRequest.respond (db : Database) : PublicRequest → HttpResponse PublicData
  | .getAll filters => (DebatesController.getAll filters db).map .debates
  | .getDebate id => (DebatesController.getDebate id db).map .debate
  | .getDebateArgument debateId argumentId =>
    (DebatesController.getDebateArgument debateId argumentId db).map .argument

/-- The foreign keys of the schema. The ticket of a debate or an argument, the tag of a debate and
    the argument that is countered have none. -/
structure Database.ForeignKeys (db : Database) : Prop where
  ticket_createdBy : ∀ t ∈ db.tickets.rows, ∃ u ∈ db.users.rows, u.id = t.createdBy
  assocDebateTag_debate : ∀ x ∈ db.assocDebateTags.rows, ∃ d ∈ db.debates.rows, d.id = x.debateId
  argument_debate : ∀ a ∈ db.arguments.rows, ∃ d ∈ db.debates.rows, d.id = a.debateId
  argument_createdBy : ∀ a ∈ db.arguments.rows, ∃ u ∈ db.users.rows, u.id = a.createdBy
  ticketComment_ticket : ∀ c ∈ db.ticketComments.rows, ∃ t ∈ db.tickets.rows, t.id = c.ticketId
  ticketComment_commenter : ∀ c ∈ db.ticketComments.rows, ∃ u ∈ db.users.rows, u.id = c.commenterId

instance (db : Database) : Decidable db.ForeignKeys :=
  decidable_of_iff
    ((∀ t ∈ db.tickets.rows, ∃ u ∈ db.users.rows, u.id = t.createdBy) ∧
      (∀ x ∈ db.assocDebateTags.rows, ∃ d ∈ db.debates.rows, d.id = x.debateId) ∧
      (∀ a ∈ db.arguments.rows, ∃ d ∈ db.debates.rows, d.id = a.debateId) ∧
      (∀ a ∈ db.arguments.rows, ∃ u ∈ db.users.rows, u.id = a.createdBy) ∧
      (∀ c ∈ db.ticketComments.rows, ∃ t ∈ db.tickets.rows, t.id = c.ticketId) ∧
      ∀ c ∈ db.ticketComments.rows, ∃ u ∈ db.users.rows, u.id = c.commenterId)
    ⟨fun ⟨h₁, h₂, h₃, h₄, h₅, h₆⟩ => ⟨h₁, h₂, h₃, h₄, h₅, h₆⟩,
      fun h => ⟨h.1, h.2, h.3, h.4, h.5, h.6⟩⟩

/-! ## The published part -/

instance (db : Database) (a : ArgumentRow) : Decidable (db.ArgumentAccepted a) :=
  decidable_of_iff (∃ k ∈ a.ticketId, db.OnBoard k .accepted) (by rfl)

instance (db : Database) (d : DebateRow) : Decidable (db.DebateAccepted d) :=
  inferInstanceAs (Decidable (db.OnBoard _ _))

def Database.publicDebates (db : Database) : List DebateRow :=
  db.debates.rows.filter fun d => db.DebateAccepted d

/-- A published debate has this id. -/
def Database.PublicDebate (db : Database) (debateId : Int) : Prop :=
  ∃ d ∈ db.publicDebates, d.id = debateId

instance (db : Database) (debateId : Int) : Decidable (db.PublicDebate debateId) :=
  inferInstanceAs (Decidable (∃ d ∈ _, _))

/-- The accepted arguments of accepted debates. -/
def Database.publicArguments (db : Database) : List ArgumentRow :=
  db.arguments.rows.filter fun a => db.ArgumentAccepted a ∧ db.PublicDebate a.debateId

/-- The tickets of published debates and arguments. -/
def Database.publicTickets (db : Database) : List TicketRow :=
  db.tickets.rows.filter fun t =>
    (∃ d ∈ db.publicDebates, d.ticketId = t.id) ∨ ∃ a ∈ db.publicArguments, a.ticketId = some t.id

/-- Which tags published debates have. -/
def Database.publicDebateTags (db : Database) : List AssocDebateTagRow :=
  db.assocDebateTags.rows.filter fun x => db.PublicDebate x.debateId

/-- The states agree on the users, the tags and everything published. -/
structure SamePublic (db db' : Database) : Prop where
  users : db'.users.rows = db.users.rows
  debateTags : db'.debateTags.rows = db.debateTags.rows
  lower : db'.lower = db.lower
  debates : db'.publicDebates = db.publicDebates
  arguments : db'.publicArguments = db.publicArguments
  tickets : db'.publicTickets = db.publicTickets
  assocDebateTags : db'.publicDebateTags = db.publicDebateTags

/-- An argument that may be shown, or that nobody could have published: without users there are no
    tickets. -/
def Database.PublicArgument (db : Database) (argumentId : Int) : Prop :=
  (∃ a ∈ db.publicArguments, a.id = argumentId) ∨ db.users.rows = []

/-- The request does not ask by id for an unpublished debate, or for an argument of one. -/
def PublicRequest.AsksPublished (db : Database) : PublicRequest → Prop
  | .getAll _ => True
  | .getDebate id =>
    ∀ debateId n, parseIntPipe id = some debateId → int4 debateId = .ok n → db.PublicDebate n
  | .getDebateArgument debateId argumentId =>
    ∀ debateId' n argumentId' m, parseIntPipe debateId = some debateId' →
      int4 debateId' = .ok n → parseIntPipe argumentId = some argumentId' →
      int4 argumentId' = .ok m → db.PublicDebate n ∨ db.PublicArgument m

end DecentDebates

import DecentDebates.Lib.NonInterference
import DecentDebates.Linkage
import DecentDebates.Entities.DebatesQueries

set_option autoImplicit false

/-! # What a user reads of another user's drafts

The reads that go through the argument table, what they answer, and the two-run comparison: a
state is compared with the states that differ from it only in the text of one user's drafts. -/

namespace DecentDebates

open Relational

/-- The reads of the argument table, with the ids the reader passes. -/
inductive ArgumentRead where
  | getDebateArguments (debateId : JsNumber)
  | getDebateArgument (debateId argumentId : JsNumber)
  | getDebateArgumentAsModerator (debateId argumentId : JsNumber)
  | getDraft (debateId argumentId : JsNumber)
  | getArgumentAsUser (ticketId : JsNumber)
  | getArgumentAsModerator (ticketId : JsNumber)
  | getActivityArguments
  | getArgumentCards

inductive ReadAnswer where
  | debateArguments (result : Except ServiceError (List DebateArgument))
  | draft (result : Except ServiceError (Option DebateArgument))
  | argumentAsUser (result : Except ServiceError (Option ArgumentAsUser))
  | argumentAsModerator (result : Except ServiceError (Option ArgumentAsModerator))
  | activityArguments (result : Except ServiceError (List UserActivityArgument))
  | argumentCards (result : Except ServiceError (List ModeratorActivityArgument))

def ArgumentRead.answer (r : ArgumentRead) (user : UserCookieData) (db : Database) : ReadAnswer :=
  match r with
  | .getDebateArguments debateId => .debateArguments (DecentDebates.getDebateArguments debateId db)
  | .getDebateArgument debateId argumentId =>
    .debateArguments (DecentDebates.getDebateArgument debateId argumentId db)
  | .getDebateArgumentAsModerator debateId argumentId =>
    .debateArguments (DecentDebates.getDebateArgumentAsModerator debateId argumentId db)
  | .getDraft debateId argumentId => .draft (DecentDebates.getDraft ⟨user, debateId, argumentId⟩ db)
  | .getArgumentAsUser ticketId =>
    .argumentAsUser (DecentDebates.getArgumentAsUser user ticketId db)
  | .getArgumentAsModerator ticketId =>
    .argumentAsModerator (DecentDebates.getArgumentAsModerator user ticketId db)
  | .getActivityArguments => .activityArguments (DecentDebates.getActivityArguments user db)
  | .getArgumentCards => .argumentCards (DecentDebates.getArgumentCards db)

/-- A draft of user `u`. -/
def ArgumentRow.isDraftOf (u : Int) (a : ArgumentRow) : Bool :=
  a.isDraft = some true && a.createdBy = u

/-- The database without the text of the drafts of user `u`. -/
def Database.redactDrafts (db : Database) (u : Int) : Database :=
  { db with
    arguments := db.arguments.updateWhere (ArgumentRow.isDraftOf u) fun a =>
      { a with title := "", content := "" } }

/-- The states differ at most in the title and content of drafts of user `u`. -/
def SameButDrafts (u : Int) (db db' : Database) : Prop := db.redactDrafts u = db'.redactDrafts u

/-- A submitted argument on a ticket, connected to the reader by `mine`, that names a draft of `u`
    as the argument it counters. -/
def Database.CitesDraft (db : Database) (u : Int) (mine : TicketRow → Prop) (ticketId : JsNumber) :
    Prop :=
  ∃ t ∈ db.tickets.rows, int4 ticketId = .ok t.id ∧ mine t ∧
    ∃ a ∈ db.arguments.rows, a.ticketId = some t.id ∧
      ∃ draft ∈ db.arguments.rows, a.counterargumentTo = some draft.id ∧ draft.isDraftOf u = true

/-- The read shows the title of a draft of `u`: it asks for an argument of the reader's that names
    the draft as the one it counters. -/
def ArgumentRead.ShowsDraft (r : ArgumentRead) (u : Int) (user : UserCookieData) (db : Database) :
    Prop :=
  match r with
  | .getArgumentAsUser ticketId => db.CitesDraft u (fun t => t.createdBy = user.id) ticketId
  | .getArgumentAsModerator ticketId =>
    db.CitesDraft u (fun t => t.assignedTo = some user.id) ticketId
  | _ => False

end DecentDebates

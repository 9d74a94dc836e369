import DecentDebates.Linkage
import DecentDebates.Entities.DebatesQueries

set_option autoImplicit false

/-! # What is published

An argument or a debate is public while its ticket is ACCEPTED. The definitions compare what is
shown in two states, and say which call of an author can still touch a published argument. -/

namespace DecentDebates

open Relational

/-- The calls of the moderators' endpoints; every other call is open to any user. -/
def Call.byModerator : Call → Bool
  | .updateTicket .. => true
  | .approveTicket .. => true
  | _ => false

/-- The columns of an argument that readers see. -/
structure ArgumentRow.SameText (a a' : ArgumentRow) : Prop where
  id : a.id = a'.id
  title : a.title = a'.title
  content : a.content = a'.content
  type : a.type = a'.type
  counterargumentTo : a.counterargumentTo = a'.counterargumentTo

/-- `getDebateArguments` lists the argument. -/
def Database.Lists (db : Database) (a : ArgumentRow) : Prop :=
  ∃ rows, getDebateArguments (.int a.debateId) db = .ok rows ∧
    ∃ r ∈ rows, r.argumentId = some a.id

/-- The call leaves every published argument in place, with all its columns, and every published
    debate; a call on drafts leaves every other argument in place as well. -/
structure Database.Freezes (db : Database) (c : Call) : Prop where
  argument : ∀ a ∈ db.arguments.rows, db.ArgumentAccepted a →
    a ∈ (step db c).arguments.rows ∧ (step db c).Lists a
  debate : ∀ x ∈ db.debates.rows, db.DebateAccepted x → x ∈ (step db c).debates.rows
  draft : (∃ d, c = .updateDraft d ∨ c = .submitDraft d) → ∀ a ∈ db.arguments.rows,
    a.isDraft ≠ some true → a ∈ (step db c).arguments.rows

/-- A storable submission of an argument of the caller's own that is no longer a draft. -/
def Database.ResubmitsArgument (db : Database) (c : Call) : Prop :=
  ∃ d cols draftId debateId, c = .submitDraft d ∧ d.Storable db cols draftId debateId ∧
    ∃ a ∈ db.arguments.rows, (submitDraftWhere draftId debateId d.user.id a).holds = true ∧
      a.isDraft ≠ some true

end DecentDebates

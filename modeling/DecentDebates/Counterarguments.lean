import DecentDebates.Lib.Forest
import DecentDebates.Linkage

set_option autoImplicit false

/-! # Counterarguments

An argument may answer another one: `counterargument_to` is the id of the argument that it rebuts.
The column has no foreign key. The form of a new argument offers the published arguments of its
debate that have the other type; the services store whatever number they are given. -/

namespace DecentDebates

def ArgumentType.opposite : ArgumentType → ArgumentType
  | .pro => .con
  | .con => .pro

/-- The argument may be a counterargument to `b`: they are on opposite sides of one debate, and `b`
    is no draft. -/
structure ArgumentRow.MayAnswer (a b : ArgumentRow) : Prop where
  debateId : b.debateId = a.debateId
  isDraft : b.isDraft ≠ some true
  type : ∃ type, a.type = some type ∧ b.type = some type.opposite

/-- The argument that the one with this id answers. -/
def Database.counterargumentTo (db : Database) (argumentId : Int) : Option Int :=
  (db.arguments.find? argumentId).bind ArgumentRow.counterargumentTo

/-- **Counterarguments form a forest inside each debate**: what is answered may be answered, and
    following `counterargument_to` from any argument comes to NULL. -/
structure Database.CounterargumentForest (db : Database) : Prop where
  mayAnswer : ∀ a ∈ db.arguments.rows, ∀ p, a.counterargumentTo = some p →
    ∃ b ∈ db.arguments.rows, b.id = p ∧ a.MayAnswer b
  ends : ∀ a ∈ db.arguments.rows, Forest.Ends db.counterargumentTo a.id

/-! ## What the form checks and the services do not -/

/-- What the server stores of a new argument, when it can store it. -/
structure CreateArgumentData.Storable (d : CreateArgumentData) (db : Database)
    (c : ArgumentColumns) (debateId : Int) : Prop where
  columns : d.argumentDetails.columns = .ok c
  sequence : db.arguments.next ≤ int4Max
  debate : ∃ x ∈ db.debates.rows, x.id = debateId
  user : ∃ u ∈ db.users.rows, u.id = d.user.id
  debateId : int4 d.debateId = .ok debateId

/-- The argument that a payload refers to, if it refers to one, may be answered in this debate by an
    argument of the payload's type. -/
def ArgumentColumns.AnswersIn (c : ArgumentColumns) (db : Database) (debateId : Int) : Prop :=
  ∀ p, c.counterargumentTo = some p → ∃ b ∈ db.arguments.rows, b.id = p ∧
    b.debateId = debateId ∧ b.isDraft ≠ some true ∧ b.type = some c.type.opposite

/-- The call stores no link that the form would not offer. A submission of an argument that is no
    draft any more must not close a circle, nor change sides under its counterarguments. -/
def Database.LinksWell (db : Database) : Call → Prop
  | .createArgument _ d => ∀ c debateId, d.Storable db c debateId → db.tickets.next ≤ int4Max →
    c.AnswersIn db debateId
  | .saveArgumentAsDraft _ d => ∀ c debateId, d.Storable db c debateId → c.AnswersIn db debateId
  | .updateDraft d => ∀ c debateId draftId, d.draftData.columns = .ok c →
    int4 d.debateId = .ok debateId → int4 d.draftId = .ok draftId →
    ∀ a ∈ db.arguments.rows, (updateDraftWhere debateId d.user.id draftId a).holds = true →
      c.AnswersIn db debateId
  | .submitDraft d => ∀ c draftId debateId, d.Storable db c draftId debateId →
    ∀ a ∈ db.arguments.rows, (submitDraftWhere draftId debateId d.user.id a).holds = true →
      c.AnswersIn db debateId ∧
      (∀ p, c.counterargumentTo = some p → ¬ Forest.Above db.counterargumentTo a.id p) ∧
      ∀ b ∈ db.arguments.rows, b.counterargumentTo = some a.id → b.type = some c.type.opposite
  | _ => True

end DecentDebates

import DecentDebates.ProposalTransactions

set_option autoImplicit false

/-! # The tags of a new debate

A proposal asks for tags in two ways: by the ids of stored tags, and by names, which its author has
typed. `createDebate` stores the names that no stored tag has and links the debate to what it has
stored and to the ids of the request. -/

namespace DecentDebates

open Relational

/-- The ids of the tags that the debate is associated with. -/
def Database.tagsIdsOf (db : Database) (debateId : Int) : List Int :=
  (db.assocDebateTags.rows.filter fun x => x.debateId = debateId).map AssocDebateTagRow.tagId

/-- The names of the tags to be created. -/
def CreateDebateDTO.names (d : CreateDebateDTO) : List String := d.createdTags.getD []

/-- The tag with this id is stored and has the name, up to the spaces around it and to case. -/
def Database.Names (db : Database) (name : String) (id : Int) : Prop :=
  ∃ g ∈ db.debateTags.rows, g.id = id ∧ db.tagKey g.name = db.tagKey name

/-- The debate has the tags that the proposal asks for, and no other. -/
structure Database.CarriesTags (db : Database) (debateId : Int) (d : CreateDebateDTO) : Prop where
  tagsIds : ∀ id, .int id ∈ d.tagsIds → id ∈ db.tagsIdsOf debateId
  createdTags : ∀ name ∈ d.names, ∃ id ∈ db.tagsIdsOf debateId, db.Names name id
  only : ∀ id ∈ db.tagsIdsOf debateId, .int id ∈ d.tagsIds ∨ ∃ name ∈ d.names, db.Names name id

/-- A name that the anti-join finds stored is also asked for by id. -/
def CreateDebateDTO.SelectsStored (d : CreateDebateDTO) (db : Database) : Prop :=
  ∀ name ∈ d.names, (∃ g ∈ db.debateTags.rows, db.lower g.name = db.tagKey name) →
    ∃ id, .int id ∈ d.tagsIds ∧ db.Names name id

end DecentDebates

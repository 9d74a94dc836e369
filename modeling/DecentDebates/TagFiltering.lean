import DecentDebates.System
import DecentDebates.Entities.DebatesController

set_option autoImplicit false

/-! # Filtering the list of debates by tags

The list of debates can be narrowed to those with some of the requested tags (ANY), or to those
whose tags are the requested ones (ALL). Both are relations of sets of ids. -/

namespace DecentDebates

/-- The ids of the debate's tags, as far as these tags are stored. -/
def Database.tagIds (db : Database) (d : DebateRow) : Set Int :=
  {id | ∃ g ∈ db.tagsOf d, g.id = id}

/-- How the tags of a debate are related to the requested ones. -/
def TagsMatchingStrategy.Relates : TagsMatchingStrategy → Set Int → Set Int → Prop
  | .any, tagIds, requested => (tagIds ∩ requested).Nonempty
  | .all, tagIds, requested => tagIds = requested

/-- The title matches the pattern `%queryStr%`, if a query string is given. -/
def Database.TitleMatches (db : Database) (queryStr : Option String) (d : DebateRow) : Prop :=
  ∀ q ∈ queryStr, q ≠ "" → ilike db.lower d.title ("%" ++ q ++ "%") = true

/-- The filter for requested tags: their ids, joined by commas. -/
def tagFilters (requested : List Int) (strategy : TagsMatchingStrategy) : TagFilters :=
  ⟨some (",".intercalate (requested.map fun id => toString id)), some strategy⟩

/-- The debate is public, has a tag, and its tags and its title are as requested. -/
structure Database.Requested (db : Database) (queryStr : Option String) (requested : List Int)
    (strategy : TagsMatchingStrategy) (d : DebateRow) : Prop where
  stored : d ∈ db.debates.rows
  accepted : db.DebateAccepted d
  tagged : db.tagsOf d ≠ []
  tags : strategy.Relates (db.tagIds d) {id | id ∈ requested}
  title : db.TitleMatches queryStr d

end DecentDebates

import DecentDebates.DebateCache

set_option autoImplicit false

/-! # Looking up one debate

`GET /debates/:id` learns from one list of rows whether there is such a debate, what it is called
and which arguments it has. -/

namespace DecentDebates

/-- The request for the id is answered as the tables have it: with 404 when there is no such debate,
    and else with its title and its ACCEPTED arguments, each once and in the order of their rows. -/
structure Database.LooksUp (db : Database) (id : Int) : Prop where
  missing : (∃ message, DebatesController.getDebate (toString id) db = .error 404 message) ↔
    ∀ d ∈ db.debates.rows, d.id ≠ id
  found : ∀ d ∈ db.debates.rows, d.id = id → ∃ rows : List DebateArgument,
    getDebateArguments (.int id) db = .ok (rows ++ [.sentinel id (some d.title)]) ∧
      DebatesController.getDebate (toString id) db =
        .ok ⟨some ⟨id, d.title⟩, rows.map DebateArgument.argData⟩ ∧
      rows.map DebateArgument.argumentId = (db.acceptedIn id).map some ∧
      (rows.map DebateArgument.argumentId).Nodup

/-- The condition of the two defects: the id is out of the range of the column, or the debate has an
    empty title. -/
def Database.Titled (db : Database) (id : Int) : Prop :=
  IsInt4 id ∧ ∀ d ∈ db.debates.rows, d.id = id → d.title ≠ ""

end DecentDebates

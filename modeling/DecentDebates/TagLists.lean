import DecentDebates.System
import DecentDebates.Entities.ActivityControllers

set_option autoImplicit false

/-! # Tag lists between the server and its clients

The tags of a debate leave the database as two comma-separated texts, one of names and one of ids,
and five endpoints rebuild the list from them. -/

namespace DecentDebates

/-- The tags of a debate as a client should see them. -/
def Database.tagPairs (db : Database) (d : DebateRow) : List DebateTag :=
  (db.tagsOf d).map fun g => ⟨some (toString g.id), g.name⟩

/-- Some request for the debate is answered with this list of tags. -/
inductive Database.Shows (db : Database) (d : DebateRow) : List DebateTag → Prop where
  | debates {filters : Except ServiceError (Option Filters)} {debates : List ListedDebate}
      {debate : ListedDebate} (answer : DebatesController.getAll filters db = .ok debates)
      (mem : debate ∈ debates) (id : debate.id = d.id) : db.Shows d debate.tags
  | moderatorActivity {lists : List BoardCards} {list : BoardCards} {debate : ModeratorDebateCard}
      (answer : ModeratorController.getActivity db = .ok lists) (board : list ∈ lists)
      (mem : .debate debate ∈ list.cards) (id : debate.debateId = some d.id) :
      db.Shows d debate.tags
  | userActivity {user : UserCookieData} {cards : List UserCard} {debate : UserDebateCard}
      (answer : UserController.getActivity user db = .ok cards) (mem : .debate debate ∈ cards)
      (id : debate.debateId = d.id) : db.Shows d debate.tags
  | reviewAsModerator {user : UserCookieData} {ticketId : String} {debate : DebateAsModerator}
      (answer : ReviewController.getDebateAsModerator user ticketId db = .ok debate)
      (id : debate.id = d.id) : db.Shows d debate.debateTags
  | reviewAsUser {user : UserCookieData} {ticketId : String} {debate : DebateAsUser}
      (answer : ReviewController.getDebateAsUser user ticketId db = .ok debate)
      (id : debate.id = d.id) : db.Shows d debate.tags

end DecentDebates

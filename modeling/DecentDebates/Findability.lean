import DecentDebates.System
import DecentDebates.Entities.DebateActivity

set_option autoImplicit false

/-! # Finding a proposed debate

A proposed debate is of use only if a moderator sees it on the boards, its author sees it among
their own debates, and everybody sees it once it is accepted. -/

namespace DecentDebates

open Relational

/-- The debate, whose ticket is `t`, is listed once in every place where it has to be found: on the
    boards under the list of its ticket, in the activity of its ticket's creator and, when the
    ticket is ACCEPTED, among the public debates. -/
structure Database.Listed (db : Database) (d : DebateRow) (t : TicketRow) : Prop where
  cards : ∃ cards, getDebateCards db = .ok cards ∧
    (cards.filter fun card => card.debateId = some d.id).map (fun card => some card.boardList) =
      [t.boardList]
  activity : ∀ user : UserCookieData, user.id = t.createdBy →
    ∃ debates, getActivityDebates user db = .ok debates ∧
      debates.countP (fun x => x.debateId = d.id) = 1
  published : t.boardList = some .accepted →
    ∃ debates, getAll none db = .ok debates ∧ debates.countP (fun x => x.id = d.id) = 1

/-- Every debate has a ticket and is found. -/
def Database.NoneLost (db : Database) : Prop :=
  ∀ d ∈ db.debates.rows, ∃ t ∈ db.tickets.rows, t.id = d.ticketId ∧ db.Listed d t

/-- One of the debate's tag ids is the id of a stored tag. -/
def Database.Tagged (db : Database) (d : DebateRow) : Prop :=
  ∃ adt ∈ db.assocDebateTags.rows, adt.debateId = d.id ∧ ∃ g ∈ db.debateTags.rows, g.id = adt.tagId

/-- What the server stores of a proposal that brings no new tag, when it can store it: the title
    fits the column, the tag ids are ids and differ, the author has an account and the sequences
    are not used up. -/
structure CreateDebateDTO.Storable (d : CreateDebateDTO) (user : UserCookieData) (db : Database)
    (title : String) (tagsIds : List Int) : Prop where
  title : varchar 80 d.title = .ok title
  ids : d.tagsIds.mapM int4 = .ok tagsIds
  nodup : tagsIds.Nodup
  tickets : db.tickets.next ≤ int4Max
  debates : db.debates.next ≤ int4Max
  user : ∃ u ∈ db.users.rows, u.id = user.id

/-- The names are texts, and tags with these names are stored already. -/
def Database.BringsNoTag (db : Database) (createdTags : Option (List String)) : Prop :=
  ∀ names, createdTags = some names → (∀ name ∈ names, IsText name) ∧ newTagNames db names = []

/-- A storable proposal of a debate without a tag: no tag id it has is that of a stored tag, and
    it brings no new tag. -/
def Database.ProposesUntagged (db : Database) (c : Call) : Prop :=
  ∃ now user d title tagsIds, c = .createDebate now user d ∧ d.Storable user db title tagsIds ∧
    (∀ g ∈ db.debateTags.rows, g.id ∉ tagsIds) ∧ db.BringsNoTag d.createdTags

end DecentDebates

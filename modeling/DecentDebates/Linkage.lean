import DecentDebates.System

set_option autoImplicit false

/-! # Submissions and their tickets

What a ticket is for: it stands for one submission, a proposed debate or an argument, while a
moderator decides on it. The schema says none of this. `ticket_id` has no foreign key and no
uniqueness, so the link is an invariant of the services (`Database.Linked`). -/

namespace DecentDebates

open Relational

inductive Submission where
  | debate (x : DebateRow)
  | argument (a : ArgumentRow)
deriving DecidableEq, Repr

def Submission.ticketId : Submission → Option Int
  | debate x => some x.ticketId
  | argument a => a.ticketId

def Submission.createdBy : Submission → Int
  | debate x => x.createdBy
  | argument a => a.createdBy

/-- The table a submission is stored in, and its id there. -/
def Submission.key : Submission → Int ⊕ Int
  | debate x => .inl x.id
  | argument a => .inr a.id

def Database.submissions (db : Database) : List Submission :=
  db.debates.rows.map .debate ++ db.arguments.rows.map .argument

@[simp] theorem mem_submissions_debate {db : Database} {x : DebateRow} :
    .debate x ∈ db.submissions ↔ x ∈ db.debates.rows := by
  simp [Database.submissions]

@[simp] theorem mem_submissions_argument {db : Database} {a : ArgumentRow} :
    .argument a ∈ db.submissions ↔ a ∈ db.arguments.rows := by
  simp [Database.submissions]

theorem Database.submission_eq_of_key {db : Database} {s s' : Submission} (hs : s ∈ db.submissions)
    (hs' : s' ∈ db.submissions) (h : s.key = s'.key) : s = s' := by
  cases s with
  | debate x =>
    cases s' with
    | debate x' =>
      rw [mem_submissions_debate] at hs hs'
      rw [SerialTable.eq_of_rowId_eq hs hs' (Sum.inl.inj h)]
    | argument a' => exact nomatch h
  | argument a =>
    cases s' with
    | debate x' => exact nomatch h
    | argument a' =>
      rw [mem_submissions_argument] at hs hs'
      rw [SerialTable.eq_of_rowId_eq hs hs' (Sum.inr.inj h)]

/-- **The linkage invariant.** Drafts are the arguments without a ticket; every other submission
    has a ticket of its own author's, which no second submission refers to. -/
structure Database.Linked (db : Database) : Prop where
  draft_iff : ∀ a ∈ db.arguments.rows, a.isDraft = some true ↔ a.ticketId = none
  owner : ∀ s ∈ db.submissions, ∀ k, s.ticketId = some k →
    ∃ t ∈ db.tickets.rows, t.id = k ∧ t.createdBy = s.createdBy
  unique : ∀ s ∈ db.submissions, ∀ s' ∈ db.submissions, ∀ k,
    s.ticketId = some k → s'.ticketId = some k → s = s'

/-- Every ticket stands for exactly one submission. -/
def Database.NoOrphans (db : Database) : Prop :=
  ∀ t ∈ db.tickets.rows, ∃ s ∈ db.submissions, s.ticketId = some t.id ∧
    ∀ s' ∈ db.submissions, s'.ticketId = some t.id → s' = s

instance (db : Database) : Decidable db.NoOrphans :=
  inferInstanceAs (Decidable (∀ t ∈ db.tickets.rows, ∃ s ∈ db.submissions, _ ∧ _))

/-! ## Submitting a draft -/

/-- What the server stores of a draft submission, when it can store it: the payload fits the
    columns, the ids are ids, the author has an account and the ticket sequence is not used up. -/
structure UpdateDraftData.Storable (d : SubmitDraftData) (db : Database) (c : ArgumentColumns)
    (draftId debateId : Int) : Prop where
  columns : d.draftData.columns = .ok c
  draftId : int4 d.draftId = .ok draftId
  debateId : int4 d.debateId = .ok debateId
  sequence : db.tickets.next ≤ int4Max
  user : ∃ u ∈ db.users.rows, u.id = d.user.id

/-- A storable submission that addresses no draft: no argument with this id, debate and author, or
    one that has been submitted before. -/
def Database.SubmitsNoDraft (db : Database) (call : Call) : Prop :=
  ∃ d c draftId debateId, call = .submitDraft d ∧ d.Storable db c draftId debateId ∧
    ¬ ∃ a ∈ db.arguments.rows, (submitDraftWhere draftId debateId d.user.id a).holds = true ∧
      a.isDraft = some true

/-! ## What every stored row satisfies -/

/-- Columns that the schema declares nullable or unchecked, and that the services nevertheless
    always fill. -/
structure Database.Stored (db : Database) : Prop where
  ticket_id : ∀ t ∈ db.tickets.rows, IsInt4 t.id
  ticket_board : ∀ t ∈ db.tickets.rows, t.boardList ≠ none
  debate_id : ∀ x ∈ db.debates.rows, IsInt4 x.id
  argument_id : ∀ a ∈ db.arguments.rows, IsInt4 a.id
  argument_draft : ∀ a ∈ db.arguments.rows, a.isDraft ≠ none
  argument_type : ∀ a ∈ db.arguments.rows, a.type ≠ none
  argument_debate : ∀ a ∈ db.arguments.rows, ∃ x ∈ db.debates.rows, x.id = a.debateId
  argument_counter : ∀ a ∈ db.arguments.rows, ∀ n, a.counterargumentTo = some n → IsInt4 n
  argument_user : ∀ a ∈ db.arguments.rows, ∃ u ∈ db.users.rows, u.id = a.createdBy
  ticket_user : ∀ t ∈ db.tickets.rows, ∃ u ∈ db.users.rows, u.id = t.createdBy

/-- The sequences behind the ids start at 1. -/
structure Database.PositiveIds (db : Database) : Prop where
  tickets : ∀ t ∈ db.tickets.rows, 0 < t.id
  debates : ∀ x ∈ db.debates.rows, 0 < x.id
  arguments : ∀ a ∈ db.arguments.rows, 0 < a.id

end DecentDebates

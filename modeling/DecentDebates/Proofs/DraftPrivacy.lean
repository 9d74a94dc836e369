import DecentDebates.DraftPrivacy
import DecentDebates.Proofs.Linkage

set_option autoImplicit false

/-! # What a user reads of another user's drafts: proofs

A draft has no ticket, so a query that joins an argument with its ticket never sees one, and the
remaining queries ask for the reader's own rows. The two queries that join the argument table a
second time, for the title of the argument that is countered, ask neither. -/

namespace DecentDebates

open Relational Transition Information

variable {db : Database} {u : Int}

/-- One row of `redactDrafts`. -/
def ArgumentRow.redact (u : Int) (a : ArgumentRow) : ArgumentRow :=
  if a.isDraftOf u then { a with title := "", content := "" } else a

theorem isDraftOf_iff {a : ArgumentRow} :
    a.isDraftOf u = true ↔ a.isDraft = some true ∧ a.createdBy = u := by
  simp [ArgumentRow.isDraftOf]

@[simp] theorem redactDrafts_arguments (db : Database) (u : Int) :
    (db.redactDrafts u).arguments.rows = db.arguments.rows.map (ArgumentRow.redact u) := rfl

@[simp] theorem redactDrafts_tickets (db : Database) (u : Int) :
    (db.redactDrafts u).tickets = db.tickets := rfl

@[simp] theorem redactDrafts_debates (db : Database) (u : Int) :
    (db.redactDrafts u).debates = db.debates := rfl

@[simp] theorem redactDrafts_users (db : Database) (u : Int) :
    (db.redactDrafts u).users = db.users := rfl

theorem redact_of_not {a : ArgumentRow} (h : ¬ a.isDraftOf u = true) : a.redact u = a := by
  rw [ArgumentRow.redact, if_neg h]

/-- Redaction changes the title and the content only. -/
theorem redact_ticketId (a : ArgumentRow) : (a.redact u).ticketId = a.ticketId := by
  unfold ArgumentRow.redact
  split <;> rfl

theorem redact_id (a : ArgumentRow) : (a.redact u).id = a.id := by
  unfold ArgumentRow.redact
  split <;> rfl

theorem redact_counterargumentTo (a : ArgumentRow) :
    (a.redact u).counterargumentTo = a.counterargumentTo := by
  unfold ArgumentRow.redact
  split <;> rfl

theorem redact_isDraftOf (a : ArgumentRow) : (a.redact u).isDraftOf u = a.isDraftOf u := by
  unfold ArgumentRow.redact
  split <;> rfl

theorem redact_createdBy (a : ArgumentRow) : (a.redact u).createdBy = a.createdBy := by
  unfold ArgumentRow.redact
  split <;> rfl

theorem find?_redactDrafts (db : Database) (u id : Int) :
    (db.redactDrafts u).arguments.find? id = (db.arguments.find? id).map (ArgumentRow.redact u) :=
  SerialTable.find?_updateWhere _ _ _ _

/-- A redacted row has no ticket. -/
theorem redact_eq_or_no_ticket (hL : db.Linked) {a : ArgumentRow} (ha : a ∈ db.arguments.rows) :
    a.redact u = a ∨ a.ticketId = none := by
  by_cases hd : a.isDraftOf u = true
  · exact Or.inr ((hL.draft_iff a ha).1 (isDraftOf_iff.1 hd).1)
  · exact Or.inl (redact_of_not hd)

/-! ## Queries that join an argument with its ticket -/

theorem joinedArguments_redact (hL : db.Linked) :
    joinedArguments (db.redactDrafts u) = joinedArguments db := by
  have hjoin : innerJoin (db.arguments.rows.map (ArgumentRow.redact u)) db.tickets.rows
      (fun a t => Truth.eq a.ticketId (some t.id)) =
      innerJoin db.arguments.rows db.tickets.rows
        (fun a t => Truth.eq a.ticketId (some t.id)) := by
    refine innerJoin_map_left fun a ha => ?_
    refine (redact_eq_or_no_ticket hL ha).imp_right fun hnone t => ?_
    simp [redact_ticketId, hnone]
  simp only [joinedArguments, redactDrafts_arguments, redactDrafts_tickets, redactDrafts_debates,
    redactDrafts_users, hjoin]

/-- Tickets with their arguments, which both review queries and the cards start from. -/
theorem ticketArguments_redact (hL : db.Linked) :
    innerJoin db.tickets.rows (db.arguments.rows.map (ArgumentRow.redact u))
      (fun t a => Truth.eq a.ticketId (some t.id)) =
    innerJoin db.tickets.rows db.arguments.rows (fun t a => Truth.eq a.ticketId (some t.id)) := by
  refine innerJoin_map_right fun a ha => ?_
  refine (redact_eq_or_no_ticket hL ha).imp_right fun hnone t => ?_
  simp [redact_ticketId, hnone]

theorem getDebateArguments_redact (hL : db.Linked) (debateId : JsNumber) :
    getDebateArguments debateId (db.redactDrafts u) = getDebateArguments debateId db := by
  simp only [getDebateArguments, joinedArguments_redact hL, redactDrafts_debates]

theorem getDebateArgument_redact (hL : db.Linked) (debateId argumentId : JsNumber) :
    getDebateArgument debateId argumentId (db.redactDrafts u) =
      getDebateArgument debateId argumentId db := by
  simp only [getDebateArgument, joinedArguments_redact hL]

theorem getDebateArgumentAsModerator_redact (hL : db.Linked) (debateId argumentId : JsNumber) :
    getDebateArgumentAsModerator debateId argumentId (db.redactDrafts u) =
      getDebateArgumentAsModerator debateId argumentId db := by
  simp only [getDebateArgumentAsModerator, joinedArguments_redact hL]

theorem getArgumentCards_redact (hL : db.Linked) :
    getArgumentCards (db.redactDrafts u) = getArgumentCards db := by
  simp only [getArgumentCards, argumentCards, redactDrafts_arguments, redactDrafts_tickets,
    redactDrafts_debates, redactDrafts_users, ticketArguments_redact hL]

/-! ## Queries for the reader's own rows -/

/-- The rows a reader selects by authorship are none of `u`'s drafts. -/
theorem selectWhere_own_redact {p : ArgumentRow → Truth} {rows : List ArgumentRow}
    (hp : ∀ a, a.createdBy = u → (p a).holds = false) :
    selectWhere p (rows.map (ArgumentRow.redact u)) = selectWhere p rows := by
  -- row by row: the condition drops a draft of `u` before and after redaction, and redaction keeps
  -- every other row
  induction rows with
  | nil => rfl
  | cons a rows ih =>
    simp only [selectWhere, List.map_cons, List.filter_cons] at ih ⊢
    rw [ih]
    by_cases hd : a.isDraftOf u = true
    · have ha := (isDraftOf_iff.1 hd).2
      simp [hp a ha, hp (a.redact u) ((redact_createdBy a).trans ha)]
    · rw [redact_of_not hd]

theorem selectWhere_joinedDrafts (db : Database) (p : ArgumentRow → Truth)
    (rows : List ArgumentRow) :
    selectWhere (fun q => p q.1.1) (joinedDrafts db rows) =
      joinedDrafts db (selectWhere p rows) := by
  unfold joinedDrafts
  rw [← selectWhere_innerJoin, ← selectWhere_innerJoin]

theorem selectWhere_joinedActivity (db : Database) (p : ArgumentRow → Truth)
    (rows : List ArgumentRow) :
    selectWhere (fun q => p q.1.1.1) (joinedActivity db rows) =
      joinedActivity db (selectWhere p rows) := by
  unfold joinedActivity
  rw [← selectWhere_leftJoin, ← selectWhere_innerJoin, ← selectWhere_leftJoin]

theorem getDraft_redact {d : GetDraftData} (hd : u ≠ d.user.id) :
    getDraft d (db.redactDrafts u) = getDraft d db := by
  have hrows : ∀ debateId argumentId, selectWhere (draftWhere debateId argumentId d.user.id)
        (joinedDrafts (db.redactDrafts u) (db.redactDrafts u).arguments.rows) =
      selectWhere (draftWhere debateId argumentId d.user.id)
        (joinedDrafts db db.arguments.rows) := by
    intro debateId argumentId
    let p : ArgumentRow → Truth := fun a =>
      ((Truth.eq (some a.debateId) (some debateId)).and
        (Truth.eq (some a.id) (some argumentId))).and (Truth.eq (some a.createdBy) (some d.user.id))
    have hp : ∀ a, a.createdBy = u → (p a).holds = false := by
      intro a ha
      simp [p, ha, hd]
    have hwhere : draftWhere debateId argumentId d.user.id = fun q => p q.1.1 := rfl
    rw [hwhere, selectWhere_joinedDrafts, selectWhere_joinedDrafts, redactDrafts_arguments,
      selectWhere_own_redact hp]
    rfl
  simp only [getDraft, hrows]

theorem getActivityArguments_redact {user : UserCookieData} (hu : u ≠ user.id) :
    getActivityArguments user (db.redactDrafts u) = getActivityArguments user db := by
  have hrows : selectWhere (activityWhere user.id)
        (joinedActivity (db.redactDrafts u) (db.redactDrafts u).arguments.rows) =
      selectWhere (activityWhere user.id) (joinedActivity db db.arguments.rows) := by
    let p : ArgumentRow → Truth := fun a => Truth.eq (some a.createdBy) (some user.id)
    have hp : ∀ a, a.createdBy = u → (p a).holds = false := by
      intro a ha
      simp [p, ha, hu]
    have hwhere : activityWhere user.id = fun q => p q.1.1.1 := rfl
    rw [hwhere, selectWhere_joinedActivity, selectWhere_joinedActivity, redactDrafts_arguments,
      selectWhere_own_redact hp]
    rfl
  simp only [getActivityArguments, hrows]

/-! ## The queries of the review pages -/

theorem joinedAsUser_redact (hL : db.Linked) :
    joinedAsUser (db.redactDrafts u) = joinedAsUser db := by
  simp only [joinedAsUser, redactDrafts_arguments, redactDrafts_tickets, redactDrafts_debates,
    redactDrafts_users, ticketArguments_redact hL]

theorem joinedAsModerator_redact (hL : db.Linked) :
    joinedAsModerator (db.redactDrafts u) = joinedAsModerator db := by
  simp only [joinedAsModerator, redactDrafts_arguments, redactDrafts_tickets, redactDrafts_debates,
    redactDrafts_users, ticketArguments_redact hL]

section Counterargument

/- Both review queries end in one more join with `argument`, for the title of the argument that is
   countered: `β` is the type of the rows before it and `arg` picks their argument. -/
variable {β : Type} (arg : β → ArgumentRow) (W : β → Truth) (base : List β)

/-- The last join is a lookup, after the condition has been tested. -/
theorem selectWhere_counterarg (db : Database) :
    selectWhere (fun q => W q.1) (leftJoin base db.arguments.rows fun x c =>
      Truth.eq (arg x).counterargumentTo (some c.id)) =
    (selectWhere W base).map fun x =>
      (x, (arg x).counterargumentTo.bind db.arguments.find?) := by
  rw [selectWhere_leftJoin]
  exact leftJoin_rowId _ db.arguments fun x => (arg x).counterargumentTo

theorem selectWhere_counterarg_redact {db : Database}
    (h : ∀ x ∈ selectWhere W base, ∀ draft ∈ db.arguments.rows,
      (arg x).counterargumentTo = some draft.id → ¬ draft.isDraftOf u = true) :
    selectWhere (fun q => W q.1) (leftJoin base (db.redactDrafts u).arguments.rows fun x c =>
      Truth.eq (arg x).counterargumentTo (some c.id)) =
    selectWhere (fun q => W q.1) (leftJoin base db.arguments.rows fun x c =>
      Truth.eq (arg x).counterargumentTo (some c.id)) := by
  rw [selectWhere_counterarg, selectWhere_counterarg]
  refine List.map_congr_left fun x hx => ?_
  congr 1
  cases hk : (arg x).counterargumentTo with
  | none => rfl
  | some k =>
    rw [Option.bind_some, Option.bind_some, find?_redactDrafts]
    cases hfind : db.arguments.find? k with
    | none => rfl
    | some draft =>
      obtain ⟨hdraft, rfl⟩ := SerialTable.find?_eq_some.1 hfind
      rw [Option.map_some, redact_of_not (h x hx draft hdraft hk)]

/-- Where all rows that meet the condition show one argument, and there is such a row, the first
    row of the answer shows the title of the argument it counters. -/
theorem head?_counterarg {γ : Type} {db : Database} {a draft : ArgumentRow}
    (hdraft : draft ∈ db.arguments.rows) (hk : a.counterargumentTo = some draft.id)
    (hall : ∀ x ∈ selectWhere W base, arg x = a) (hne : ∃ x, x ∈ selectWhere W base)
    (ofRow : β × Option ArgumentRow → γ) :
    ∃ x ∈ selectWhere W base, ((selectWhere (fun q => W q.1)
      (leftJoin base db.arguments.rows fun x c =>
        Truth.eq (arg x).counterargumentTo (some c.id))).map ofRow).head? =
      some (ofRow (x, some draft)) := by
  rw [selectWhere_counterarg]
  cases hsel : selectWhere W base with
  | nil =>
    obtain ⟨x, hx⟩ := hne
    simp [hsel] at hx
  | cons x rest =>
    have hx : arg x = a := hall x (hsel ▸ List.mem_cons_self ..)
    have hfind : db.arguments.find? draft.id = some draft :=
      SerialTable.find?_eq_some.2 ⟨hdraft, rfl⟩
    refine ⟨x, List.mem_cons_self .., ?_⟩
    simp [hx, hk, hfind]

end Counterargument

/-- The rows that both review queries start from. -/
theorem mem_joinedDebates {db : Database} {x : (TicketRow × ArgumentRow) × DebateRow}
    (hx : x ∈ innerJoin
      (innerJoin db.tickets.rows db.arguments.rows fun t a => Truth.eq a.ticketId (some t.id))
      db.debates.rows fun q d => Truth.eq (some q.2.debateId) (some d.id)) :
    x.1.1 ∈ db.tickets.rows ∧ x.1.2 ∈ db.arguments.rows ∧ x.1.2.ticketId = some x.1.1.id := by
  obtain ⟨hta, -, -⟩ := mem_innerJoin.1 hx
  obtain ⟨ht, ha, hon⟩ := mem_innerJoin.1 hta
  exact ⟨ht, ha, by simpa using hon⟩

/-- The join and the condition of a review query, but for the argument that is countered: it asks
    for the submitted argument of one of the reader's tickets. -/
structure ReviewQuery {γ : Type} (db : Database)
    (base : List (((TicketRow × ArgumentRow) × DebateRow) × γ))
    (W : Int → ((TicketRow × ArgumentRow) × DebateRow) × γ → Truth) (mine : TicketRow → Prop) :
    Prop where
  mem : ∀ x ∈ base, x.1.1.1 ∈ db.tickets.rows ∧ x.1.1.2 ∈ db.arguments.rows ∧
    x.1.1.2.ticketId = some x.1.1.1.id
  holds : ∀ k x, (W k x).holds = true ↔
    x.1.1.1.id = k ∧ x.1.1.2.isDraft = some false ∧ mine x.1.1.1

theorem reviewQuery_asUser (db : Database) (userId : Int) :
    ReviewQuery db (joinedAsUser db) (fun k => argumentAsUserWhere k userId)
      fun t => t.createdBy = userId where
  mem := fun _ hx => mem_joinedDebates (mem_of_mem_leftJoin hx)
  holds := fun k x => by simp [argumentAsUserWhere, and_assoc]

theorem reviewQuery_asModerator (db : Database) (userId : Int) :
    ReviewQuery db (joinedAsModerator db) (fun k => argumentAsModeratorWhere k userId)
      fun t => t.assignedTo = some userId where
  mem := fun _ hx => mem_joinedDebates (mem_innerJoin.1 hx).1
  holds := fun k x => by simp [argumentAsModeratorWhere, and_assoc]

section ReviewQuery

variable {γ : Type} {base : List (((TicketRow × ArgumentRow) × DebateRow) × γ)}
  {W : Int → ((TicketRow × ArgumentRow) × DebateRow) × γ → Truth} {mine : TicketRow → Prop}
  {ticketId : JsNumber} {k : Int}

theorem ReviewQuery.redact (hq : ReviewQuery db base W mine) (hid : int4 ticketId = .ok k)
    (h : ¬ db.CitesDraft u mine ticketId) :
    selectWhere (fun q => W k q.1) (leftJoin base (db.redactDrafts u).arguments.rows fun x c =>
      Truth.eq x.1.1.2.counterargumentTo (some c.id)) =
    selectWhere (fun q => W k q.1) (leftJoin base db.arguments.rows fun x c =>
      Truth.eq x.1.1.2.counterargumentTo (some c.id)) := by
  refine selectWhere_counterarg_redact
    (fun x : ((TicketRow × ArgumentRow) × DebateRow) × γ => x.1.1.2) _ _ ?_
  intro x hx draft hdraft hk hd
  obtain ⟨hx, hw⟩ := mem_selectWhere.1 hx
  obtain ⟨ht, ha, hticket⟩ := hq.mem x hx
  obtain ⟨rfl, -, hmine⟩ := (hq.holds k x).1 hw
  exact h ⟨x.1.1.1, ht, hid, hmine, x.1.1.2, ha, hticket, draft, hdraft, hk, hd⟩

end ReviewQuery

theorem getArgumentAsUser_redact (hL : db.Linked) {user : UserCookieData} {ticketId : JsNumber}
    (h : ¬ db.CitesDraft u (fun t => t.createdBy = user.id) ticketId) :
    getArgumentAsUser user ticketId (db.redactDrafts u) = getArgumentAsUser user ticketId db := by
  unfold getArgumentAsUser
  cases hid : int4 ticketId with
  | error e => rfl
  | ok k =>
    simp only [joinedAsUser_redact hL]
    exact congrArg (fun rows => Except.ok (rows.map ArgumentAsUser.ofRow).head?)
      ((reviewQuery_asUser db user.id).redact hid h)

theorem getArgumentAsModerator_redact (hL : db.Linked) {user : UserCookieData} {ticketId : JsNumber}
    (h : ¬ db.CitesDraft u (fun t => t.assignedTo = some user.id) ticketId) :
    getArgumentAsModerator user ticketId (db.redactDrafts u) =
      getArgumentAsModerator user ticketId db := by
  unfold getArgumentAsModerator
  cases hid : int4 ticketId with
  | error e => rfl
  | ok k =>
    simp only [joinedAsModerator_redact hL]
    exact congrArg (fun rows => Except.ok (rows.map ArgumentAsModerator.ofRow).head?)
      ((reviewQuery_asModerator db user.id).redact hid h)

/-- A read that shows no draft of `u` does not notice when the drafts of `u` are redacted. -/
theorem answer_redact (hL : db.Linked) {user : UserCookieData} (hu : u ≠ user.id)
    (r : ArgumentRead) (h : ¬ r.ShowsDraft u user db) :
    r.answer user (db.redactDrafts u) = r.answer user db := by
  cases r with
  | getDebateArguments debateId =>
    simp only [ArgumentRead.answer, getDebateArguments_redact hL]
  | getDebateArgument debateId argumentId =>
    simp only [ArgumentRead.answer, getDebateArgument_redact hL]
  | getDebateArgumentAsModerator debateId argumentId =>
    simp only [ArgumentRead.answer, getDebateArgumentAsModerator_redact hL]
  | getDraft debateId argumentId =>
    have hdraft : getDraft ⟨user, debateId, argumentId⟩ (db.redactDrafts u) =
        getDraft ⟨user, debateId, argumentId⟩ db := getDraft_redact hu
    simp only [ArgumentRead.answer, hdraft]
  | getArgumentAsUser ticketId => simp only [ArgumentRead.answer, getArgumentAsUser_redact hL h]
  | getArgumentAsModerator ticketId =>
    simp only [ArgumentRead.answer, getArgumentAsModerator_redact hL h]
  | getActivityArguments => simp only [ArgumentRead.answer, getActivityArguments_redact hu]
  | getArgumentCards => simp only [ArgumentRead.answer, getArgumentCards_redact hL]

/-- Whether a read shows a draft of `u` does not depend on what the drafts say. -/
theorem citesDraft_redact {mine : TicketRow → Prop} {ticketId : JsNumber} :
    (db.redactDrafts u).CitesDraft u mine ticketId ↔ db.CitesDraft u mine ticketId := by
  simp only [Database.CitesDraft, redactDrafts_arguments, redactDrafts_tickets, List.mem_map,
    exists_exists_and_eq_and, redact_ticketId, redact_counterargumentTo, redact_id,
    redact_isDraftOf]

theorem showsDraft_redact {r : ArgumentRead} {user : UserCookieData} :
    r.ShowsDraft u user (db.redactDrafts u) ↔ r.ShowsDraft u user db := by
  cases r with
  | getArgumentAsUser ticketId => exact citesDraft_redact
  | getArgumentAsModerator ticketId => exact citesDraft_redact
  | _ => exact Iff.rfl

/-! ## The draft that is shown -/

theorem Database.Linked.eq_of_ticketId (hL : db.Linked) {a a' : ArgumentRow} {k : Int}
    (ha : a ∈ db.arguments.rows) (ha' : a' ∈ db.arguments.rows) (hk : a.ticketId = some k)
    (hk' : a'.ticketId = some k) : a = a' := by
  have h := hL.unique (.argument a) (mem_submissions_argument.2 ha) (.argument a')
    (mem_submissions_argument.2 ha') k hk hk'
  exact Submission.argument.inj h

theorem submitted_isDraft (hL : db.Linked) (hS : db.Stored) {a : ArgumentRow}
    (ha : a ∈ db.arguments.rows) {k : Int} (hk : a.ticketId = some k) : a.isDraft = some false := by
  rcases hd : a.isDraft with _ | (_ | _)
  · exact absurd hd (hS.argument_draft a ha)
  · rfl
  · exact absurd (((hL.draft_iff a ha).1 hd).symm.trans hk) (by simp)

/-- A submitted argument on a ticket, with the argument it counters: what both review queries need
    to show the latter's title. -/
structure Database.Cites (db : Database) (mine : TicketRow → Prop) (ticketId : JsNumber)
    (t : TicketRow) (a counterarg : ArgumentRow) : Prop where
  mem_ticket : t ∈ db.tickets.rows
  int4_id : int4 ticketId = .ok t.id
  of_mine : mine t
  mem_argument : a ∈ db.arguments.rows
  on_ticket : a.ticketId = some t.id
  mem_counterarg : counterarg ∈ db.arguments.rows
  counters : a.counterargumentTo = some counterarg.id

section Shows

variable {t : TicketRow} {a counterarg : ArgumentRow} {ticketId : JsNumber} {user : UserCookieData}

/-- The ticket has one argument, so whichever row of the query comes first shows it. -/
theorem ReviewQuery.shows {γ β : Type} {base : List (((TicketRow × ArgumentRow) × DebateRow) × γ)}
    {W : Int → ((TicketRow × ArgumentRow) × DebateRow) × γ → Truth} {mine : TicketRow → Prop}
    (hq : ReviewQuery db base W mine) (hL : db.Linked) (hS : db.Stored)
    (h : db.Cites mine ticketId t a counterarg) {d : DebateRow} {y : γ}
    (hbase : (((t, a), d), y) ∈ base)
    (ofRow : (((TicketRow × ArgumentRow) × DebateRow) × γ) × Option ArgumentRow → β) :
    ∃ x, ((selectWhere (fun q => W t.id q.1) (leftJoin base db.arguments.rows fun x c =>
      Truth.eq x.1.1.2.counterargumentTo (some c.id))).map ofRow).head? =
        some (ofRow (x, some counterarg)) := by
  have hmem : (((t, a), d), y) ∈ selectWhere (W t.id) base :=
    mem_selectWhere.2 ⟨hbase, (hq.holds t.id _).2
      ⟨rfl, submitted_isDraft hL hS h.mem_argument h.on_ticket, h.of_mine⟩⟩
  have hall : ∀ x ∈ selectWhere (W t.id) base, x.1.1.2 = a := by
    intro x hx
    obtain ⟨hx, hw⟩ := mem_selectWhere.1 hx
    obtain ⟨-, hxa, hxt⟩ := hq.mem x hx
    rw [((hq.holds t.id x).1 hw).1] at hxt
    exact hL.eq_of_ticketId hxa h.mem_argument hxt h.on_ticket
  obtain ⟨x, -, hhead⟩ := head?_counterarg
    (fun x : ((TicketRow × ArgumentRow) × DebateRow) × γ => x.1.1.2) _ _
    h.mem_counterarg h.counters hall ⟨_, hmem⟩ ofRow
  exact ⟨x, hhead⟩

theorem getArgumentAsUser_shows (hL : db.Linked) (hS : db.Stored)
    (h : db.Cites (fun t => t.createdBy = user.id) ticketId t a counterarg) :
    ∃ r, getArgumentAsUser user ticketId db = .ok (some r) ∧
      r.counterargumentToTitle = some counterarg.title := by
  obtain ⟨d, hd, hdid⟩ := hS.argument_debate a h.mem_argument
  have hbase : ((t, a), d) ∈ innerJoin (innerJoin db.tickets.rows db.arguments.rows fun t a =>
      Truth.eq a.ticketId (some t.id)) db.debates.rows fun q d =>
        Truth.eq (some q.2.debateId) (some d.id) := by
    simp [h.mem_ticket, h.mem_argument, hd, h.on_ticket, hdid]
  obtain ⟨m, hm⟩ := exists_mem_leftJoin hbase db.users.rows fun q u =>
    Truth.eq q.1.1.assignedTo (some u.id)
  obtain ⟨x, hhead⟩ := (reviewQuery_asUser db user.id).shows hL hS h hm ArgumentAsUser.ofRow
  refine ⟨ArgumentAsUser.ofRow (x, some counterarg), ?_, rfl⟩
  simp only [getArgumentAsUser, h.int4_id]
  exact congrArg Except.ok hhead

theorem getArgumentAsModerator_shows (hL : db.Linked) (hS : db.Stored)
    (h : db.Cites (fun t => t.assignedTo = some user.id) ticketId t a counterarg) :
    ∃ r, getArgumentAsModerator user ticketId db = .ok (some r) ∧
      r.counterargumentToTitle = some counterarg.title := by
  obtain ⟨d, hd, hdid⟩ := hS.argument_debate a h.mem_argument
  obtain ⟨y, hy, hyid⟩ := hS.ticket_user t h.mem_ticket
  have hbase : (((t, a), d), y) ∈ joinedAsModerator db := by
    simp [joinedAsModerator, h.mem_ticket, h.mem_argument, hd, hy, h.on_ticket, hdid, hyid]
  obtain ⟨x, hhead⟩ :=
    (reviewQuery_asModerator db user.id).shows hL hS h hbase ArgumentAsModerator.ofRow
  refine ⟨ArgumentAsModerator.ofRow (x, some counterarg), ?_, rfl⟩
  simp only [getArgumentAsModerator, h.int4_id]
  exact congrArg Except.ok hhead

end Shows

/-! ## Another state with the same redaction -/

theorem nullableInt4_map {k : Option Int} (h : ∀ n, k = some n → IsInt4 n) :
    nullableInt4 (k.map JsNumber.int) = .ok k := by
  cases k with
  | none => rfl
  | some n => simp [nullableInt4, nullable, int4, h n rfl, Except.map]

theorem redrafted_arguments (db : Database) (userId : Int) (c : ArgumentColumns)
    (debateId draftId : Int) :
    (db.redrafted userId c debateId draftId).arguments.rows = db.arguments.rows.map fun a =>
      if (updateDraftWhere debateId userId draftId a).holds then a.setColumns c else a := rfl

/-- Redaction hides an update of a draft that keeps everything but its text. -/
theorem redactDrafts_redrafted {draft : ArgumentRow} {cols : ArgumentColumns}
    (hdraft : draft ∈ db.arguments.rows) (hd : draft.isDraftOf u = true)
    (hcounter : cols.counterargumentTo = draft.counterargumentTo)
    (htype : some cols.type = draft.type) :
    SameButDrafts u db (db.redrafted u cols draft.debateId draft.id) := by
  have hrow : (draft.setColumns cols).redact u = draft.redact u := by
    have hd' : (draft.setColumns cols).isDraftOf u = true := hd
    rw [ArgumentRow.redact, ArgumentRow.redact, if_pos hd, if_pos hd', ArgumentRow.setColumns,
      hcounter, htype]
  have hrows : (db.redactDrafts u).arguments.rows =
      ((db.redrafted u cols draft.debateId draft.id).redactDrafts u).arguments.rows := by
    rw [redactDrafts_arguments, redactDrafts_arguments, redrafted_arguments, List.map_map]
    refine List.map_congr_left fun a ha => ?_
    simp only [Function.comp_apply]
    split
    · next hw =>
      obtain rfl := SerialTable.eq_of_rowId_eq ha hdraft (updateDraftWhere_holds.1 hw).2.2.1
      exact hrow.symm
    · rfl
  have htable : (db.redactDrafts u).arguments =
      ((db.redrafted u cols draft.debateId draft.id).redactDrafts u).arguments :=
    SerialTable.ext hrows rfl
  unfold SameButDrafts
  rw [show db.redactDrafts u = { db with arguments := (db.redactDrafts u).arguments } from rfl,
    htable]
  rfl

/-- The author retitles a draft. -/
theorem exists_retitled (hS : db.Stored) {draft : ArgumentRow} (hdraft : draft ∈ db.arguments.rows)
    (hd : draft.isDraftOf u = true) :
    ∃ c, SameButDrafts u db (step db c) ∧ (step db c).tickets = db.tickets ∧
      (∃ draft' ∈ (step db c).arguments.rows, draft'.id = draft.id ∧ draft'.title ≠ draft.title) ∧
      ∀ a ∈ db.arguments.rows, a.isDraftOf u = false → a ∈ (step db c).arguments.rows := by
  obtain ⟨hisDraft, hby⟩ := isDraftOf_iff.1 hd
  obtain ⟨type, htype⟩ := Option.ne_none_iff_exists'.1 (hS.argument_type draft hdraft)
  obtain ⟨x, hx, hxid⟩ := hS.argument_debate draft hdraft
  have hdebate : IsInt4 draft.debateId := hxid ▸ hS.debate_id x hx
  have hid : IsInt4 draft.id := hS.argument_id draft hdraft
  -- the request repeats the type and the countered argument, which redaction would show
  let cols : ArgumentColumns := ⟨otherTitle draft.title, "", draft.counterargumentTo, type⟩
  let d : UpdateDraftData := ⟨⟨u, none, ""⟩, .int draft.debateId, .int draft.id,
    ⟨otherTitle draft.title, "", type.label, draft.counterargumentTo.map JsNumber.int⟩⟩
  have hcols : d.draftData.columns = .ok cols := CreateArgumentDTO.columns_eq_ok.2
    ⟨varchar_otherTitle _, rfl, nullableInt4_map (hS.argument_counter draft hdraft),
      argumentType_label type⟩
  have hstep : step db (.updateDraft d) = db.redrafted u cols draft.debateId draft.id :=
    step_updateDraft hcols (int4_int.2 ⟨hdebate, rfl⟩) (int4_int.2 ⟨hid, rfl⟩)
  refine ⟨.updateDraft d, ?_⟩
  rw [hstep]
  have hw : (updateDraftWhere draft.debateId u draft.id draft).holds = true :=
    updateDraftWhere_holds.2 ⟨rfl, hby, rfl, hisDraft⟩
  refine ⟨?_, rfl, ⟨_, SerialTable.updateWhere_mem hdraft hw, rfl, otherTitle_ne _⟩, ?_⟩
  · exact redactDrafts_redrafted hdraft hd rfl htype.symm
  · intro a ha hnot
    refine SerialTable.updateWhere_mem_of_not ha fun hwa => ?_
    obtain ⟨-, haby, -, hadraft⟩ := updateDraftWhere_holds.1 hwa
    exact absurd (isDraftOf_iff.2 ⟨hadraft, haby⟩) (by simp [hnot])

/-- Where a submitted argument cites a draft of `u`, some reachable state differs in drafts of `u`
    only and has another title for the cited draft. -/
theorem Database.CitesDraft.leaks (hr : db.Reachable) {mine : TicketRow → Prop}
    {ticketId : JsNumber} (h : db.CitesDraft u mine ticketId) :
    ∃ db' : Database, db'.Reachable ∧ SameButDrafts u db db' ∧
      ∃ t a draft draft', db.Cites mine ticketId t a draft ∧ db'.Cites mine ticketId t a draft' ∧
        draft'.title ≠ draft.title := by
  obtain ⟨t, ht, hid, hmine, a, ha, hticket, draft, hdraft, hk, hd⟩ := h
  obtain ⟨c, hsame, htickets, ⟨draft', hdraft', hdid, hne⟩, hkeep⟩ :=
    exists_retitled hr.stored hdraft hd
  have hnot : a.isDraftOf u = false := by
    have hsub := submitted_isDraft hr.linked hr.stored ha hticket
    simp [ArgumentRow.isDraftOf, hsub]
  refine ⟨step db c, hr.next c, hsame, t, a, draft, draft', ?_, ?_, hne⟩
  · exact ⟨ht, hid, hmine, ha, hticket, hdraft, hk⟩
  · exact ⟨htickets ▸ ht, hid, hmine, hkeep a ha hnot, hticket, hdraft',
      hk.trans (congrArg some hdid.symm)⟩

/-- **Whose drafts a read shows.** A read by somebody else answers the same in all reachable states
    that differ only in the text of drafts of `u` exactly when it does not ask for an argument that
    names a draft of `u` as the one it counters. -/
theorem drafts_private_iff (hr : db.Reachable) {user : UserCookieData} (hu : u ≠ user.id)
    (r : ArgumentRead) :
    Determined Database.Reachable (SameButDrafts u) (r.answer user) db ↔
      ¬ r.ShowsDraft u user db := by
  refine determined_iff (fun h db' hr' hsame => ?_) (fun h => ?_)
  · -- redaction changes neither the answers nor the condition
    have h' : ¬ r.ShowsDraft u user db' := by
      rwa [← showsDraft_redact, ← hsame, showsDraft_redact]
    exact observe_eq_of_erase (r.answer user) (fun s => s.redactDrafts u)
      (answer_redact hr.linked hu r h) (answer_redact hr'.linked hu r h') hsame
  · -- the author of the cited draft retitles it, and the answer shows the new title
    rw [not_not] at h
    cases r with
    | getArgumentAsUser ticketId =>
      obtain ⟨db', hr', hsame, t, a, draft, draft', hcites, hcites', hne⟩ :=
        Database.CitesDraft.leaks hr h
      obtain ⟨x, hx, hxt⟩ := getArgumentAsUser_shows hr.linked hr.stored hcites
      obtain ⟨y, hy, hyt⟩ := getArgumentAsUser_shows hr'.linked hr'.stored hcites'
      refine ⟨db', hr', hsame, fun heq => hne ?_⟩
      simp only [ArgumentRead.answer, hx, hy, ReadAnswer.argumentAsUser.injEq, Except.ok.injEq,
        Option.some.injEq] at heq
      rw [← Option.some_inj, ← hyt, ← hxt, heq]
    | getArgumentAsModerator ticketId =>
      obtain ⟨db', hr', hsame, t, a, draft, draft', hcites, hcites', hne⟩ :=
        Database.CitesDraft.leaks hr h
      obtain ⟨x, hx, hxt⟩ := getArgumentAsModerator_shows hr.linked hr.stored hcites
      obtain ⟨y, hy, hyt⟩ := getArgumentAsModerator_shows hr'.linked hr'.stored hcites'
      refine ⟨db', hr', hsame, fun heq => hne ?_⟩
      simp only [ArgumentRead.answer, hx, hy, ReadAnswer.argumentAsModerator.injEq, Except.ok.injEq,
        Option.some.injEq] at heq
      rw [← Option.some_inj, ← hyt, ← hxt, heq]
    | _ => exact h.elim

/-! ## A draft that is countered -/

def otherUser : UserCookieData := ⟨4, some .user, "other-user"⟩

/-- The user saves draft 1, and another user proposes an argument that counters it, on ticket 2. -/
def counterDraft (title : String) : List Call :=
  createUsers ++
    [.seedUser 0 ⟨"other-user@example.com", otherUser.username, "password"⟩ otherUser.role,
      proposeDebate,
      .saveArgumentAsDraft 2 ⟨testUser, .int 1, sampleArgument title⟩,
      .createArgument 3 ⟨otherUser, .int 1, sampleArgument "A reply" (some (.int 1))⟩]

theorem drafts_private_iff_sample :
    Determined Database.Reachable (SameButDrafts testUser.id)
        ((ArgumentRead.getArgumentAsUser (.int 2)).answer otherUser)
        (run step (.empty id) (counterDraft "Draft")) ↔
      ¬ (ArgumentRead.getArgumentAsUser (.int 2)).ShowsDraft testUser.id otherUser
        (run step (.empty id) (counterDraft "Draft")) :=
  drafts_private_iff (Database.reachable_run id (counterDraft "Draft")) (by decide) _

/-- The author of the reply reads the title of the draft. -/
theorem getArgumentAsUser_shows_draft :
    ¬ ∀ (db db' : Database) (u : Int) (user : UserCookieData) (r : ArgumentRead),
      db.Reachable → db'.Reachable → SameButDrafts u db db' → u ≠ user.id →
        r.answer user db' = r.answer user db := by
  intro h
  have hsame : SameButDrafts testUser.id (run step (.empty id) (counterDraft "Draft"))
      (run step (.empty id) (counterDraft "Another draft")) := rfl
  have heq := h _ _ _ otherUser (.getArgumentAsUser (.int 2))
    (Database.reachable_run id (counterDraft "Draft"))
    (Database.reachable_run id (counterDraft "Another draft")) hsame (by decide)
  simp only [ArgumentRead.answer, ReadAnswer.argumentAsUser.injEq] at heq
  exact absurd heq (by decide +kernel)

end DecentDebates

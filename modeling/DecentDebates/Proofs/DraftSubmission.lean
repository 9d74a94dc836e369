import DecentDebates.DraftSubmission
import DecentDebates.Proofs.Effects

set_option autoImplicit false

/-! # Submitting through a draft: proofs

The updates of a draft only change the columns that the submission overwrites, so the rows are those
of a direct submission. The jobs are not: nothing on the way through a draft enqueues one. -/

namespace DecentDebates

open Relational Transition

variable {db db' : Database}

/-! ## One call at a time -/

theorem step_saveArgumentAsDraft_of {now : Timestamp} {d : CreateArgumentData} {debateId : Int}
    {c : ArgumentColumns} (hid : int4 d.debateId = .ok debateId)
    (hc : d.argumentDetails.columns = .ok c) (hnext : db.arguments.next ≤ int4Max)
    (hdebate : ∃ x ∈ db.debates.rows, x.id = debateId)
    (huser : ∃ u ∈ db.users.rows, u.id = d.user.id) :
    step db (.saveArgumentAsDraft now d) =
      { db with arguments := db.arguments.insert (d.row now debateId c none true) } := by
  have hok : insertArgument now d none true db = .ok (db.arguments.next,
      { db with arguments := db.arguments.insert (d.row now debateId c none true) }) :=
    insertArgument_eq_ok.2 ⟨debateId, c, hid, hc, hnext, hdebate, huser, rfl, rfl⟩
  show (saveArgumentAsDraft now d db).db = _
  rw [saveArgumentAsDraft_commit, Sql.commit_of_ok hok]

theorem step_saveArgumentAsDraft_not {now : Timestamp} {d : CreateArgumentData}
    (h : ¬ d.argumentDetails.Fits db) : step db (.saveArgumentAsDraft now d) = db := by
  show (saveArgumentAsDraft now d db).db = db
  rw [saveArgumentAsDraft_commit]
  refine Sql.commit_rule (P := (· = db)) rfl fun id db' hok => ?_
  obtain ⟨_, c, -, hc, hnext, -⟩ := insertArgument_eq_ok.1 hok
  exact absurd ⟨⟨c, hc⟩, hnext⟩ h

theorem createArgument_of {now : Timestamp} {d : CreateArgumentData} {debateId : Int}
    {c : ArgumentColumns} (hid : int4 d.debateId = .ok debateId)
    (hc : d.argumentDetails.columns = .ok c) (hnext : db.arguments.next ≤ int4Max)
    (hticket : db.tickets.next ≤ int4Max) (hdebate : ∃ x ∈ db.debates.rows, x.id = debateId)
    (huser : ∃ u ∈ db.users.rows, u.id = d.user.id) :
    createArgument now d db = .resolve ()
      { db with
        tickets := db.tickets.insert fun id => ⟨id, d.user.id, none, some .pending⟩
        arguments := db.arguments.insert (d.row now debateId c (some db.tickets.next) false) }
      [.genericModerator "New argument proposed!"
        (.argumentTicketCreated db.tickets.next d.argumentDetails.title) .argument] := by
  have hok : createArgumentSql now d db = .ok (db.tickets.next, { db with
      tickets := db.tickets.insert fun id => ⟨id, d.user.id, none, some .pending⟩
      arguments := db.arguments.insert (d.row now debateId c (some db.tickets.next) false) }) :=
    createArgumentSql_eq_ok.2
      ⟨debateId, c, hid, hc, hticket, hnext, hdebate, huser, rfl, rfl⟩
  simp only [createArgument, Sql.commit_of_ok hok]
  rfl

theorem createArgument_not {now : Timestamp} {d : CreateArgumentData}
    (h : ¬ (d.argumentDetails.Fits db ∧ db.tickets.next ≤ int4Max)) :
    ∃ e, createArgument now d db = .reject e db := by
  unfold createArgument
  rcases Sql.commit_cases (createArgumentSql now d) db with
    ⟨ticketId, db', hok, -⟩ | ⟨e, -, hcommit⟩
  · obtain ⟨_, c, -, hc, hticket, hnext, -⟩ := createArgumentSql_eq_ok.1 hok
    exact absurd ⟨⟨⟨c, hc⟩, hnext⟩, hticket⟩ h
  · rw [hcommit]
    exact ⟨_, rfl⟩

/-- A submission that does not fit is rejected, whatever draft it is for. -/
theorem step_submitDraft_not {d : SubmitDraftData}
    (h : ¬ ((∃ c, d.draftData.columns = .ok c) ∧ (∃ n, int4 d.draftId = .ok n) ∧
      db.tickets.next ≤ int4Max)) : step db (.submitDraft d) = db := by
  show (submitDraft d db).db = db
  rw [submitDraft_commit]
  refine Sql.commit_rule (P := (· = db)) rfl fun u db' hok => ?_
  obtain ⟨c, draftId, debateId, hd, -⟩ := submitDraftSql_eq_ok.1 hok
  exact absurd ⟨⟨c, hd.columns⟩, ⟨draftId, hd.draftId⟩, hd.sequence⟩ h

/-! ## Updating a draft -/

/-- The columns that an update of a draft leaves alone. -/
def ArgumentRow.frame (a : ArgumentRow) : ArgumentRow :=
  { a with
    title := ""
    content := ""
    counterargumentTo := none
    type := none }

/-- Two states between which drafts have been updated. -/
structure Redrafted (db db' : Database) : Prop where
  users : db'.users = db.users
  tickets : db'.tickets = db.tickets
  next : db'.arguments.next = db.arguments.next
  frame : ∀ id, (db'.arguments.find? id).map ArgumentRow.frame =
    (db.arguments.find? id).map ArgumentRow.frame

theorem step_updateDraft_redrafted (db : Database) (d : UpdateDraftData) :
    Redrafted db (step db (.updateDraft d)) := by
  show Redrafted db (updateDraft d db).db
  rw [updateDraft_commit]
  refine Sql.commit_rule ⟨rfl, rfl, rfl, fun _ => rfl⟩ fun n db' hok => ?_
  obtain ⟨c, debateId, draftId, -, -, -, rfl, -⟩ := updateDraftSql_eq_ok.1 hok
  refine ⟨rfl, rfl, rfl, fun id => ?_⟩
  have hframe : ∀ a : ArgumentRow,
      (if (updateDraftWhere debateId d.user.id draftId a).holds then a.setColumns c
        else a).frame = a.frame := by
    intro a
    split <;> rfl
  have hfind : (db.redrafted d.user.id c debateId draftId).arguments.find? id =
      (db.arguments.find? id).map fun a =>
        if (updateDraftWhere debateId d.user.id draftId a).holds then a.setColumns c else a :=
    SerialTable.find?_updateWhere _ _ _ id
  rw [hfind, Option.map_map]
  exact Option.map_congr fun a _ => hframe a

theorem run_updateDraft_redrafted (db : Database) (updates : List UpdateDraftData) :
    Redrafted db (run step db (updates.map .updateDraft)) := by
  induction updates generalizing db with
  | nil => exact ⟨rfl, rfl, rfl, fun _ => rfl⟩
  | cons d updates ih =>
    have hone := step_updateDraft_redrafted db d
    have hrest := ih (step db (.updateDraft d))
    exact ⟨hrest.users.trans hone.users, hrest.tickets.trans hone.tickets,
      hrest.next.trans hone.next, fun id => (hrest.frame id).trans (hone.frame id)⟩

/-! ## The two ways -/

section Ways

variable {now now' : Timestamp} {user : UserCookieData} {debateId : JsNumber}
  {first d : CreateArgumentDTO} {updates : List UpdateDraftData}

/-- Nothing on the way through a draft enqueues a job. -/
theorem throughDraft_jobs :
    (db.proposal (db.throughDraft now user debateId first updates d)).jobs = [] := by
  have hnone : ∀ p ∈ steps step db (db.throughDraft now user debateId first updates d),
      enqueued p.1 p.2 = [] := by
    rintro ⟨x, c⟩ hp
    obtain ⟨pre, post, hcalls, -⟩ := mem_steps_iff.1 hp
    have hc : c ∈ db.throughDraft now user debateId first updates d := by
      rw [hcalls]
      simp
    refine enqueued_eq_nil x ?_
    simp only [Database.throughDraft, List.mem_cons, List.mem_append, List.mem_map,
      List.cons_append, List.not_mem_nil, or_false] at hc
    rcases hc with rfl | ⟨u, -, rfl⟩ | rfl <;> rfl
  simp only [Database.proposal, List.map_eq_nil_iff, List.flatMap_eq_nil_iff]
  exact hnone

theorem submitDraft_isSome (db : Database) (d : SubmitDraftData) (id : Int) :
    ((step db (.submitDraft d)).arguments.find? id).isSome = (db.arguments.find? id).isSome := by
  show ((submitDraft d db).db.arguments.find? id).isSome = _
  rw [submitDraft_commit]
  refine Sql.commit_rule
    (P := fun db' => (db'.arguments.find? id).isSome = (db.arguments.find? id).isSome) rfl
    fun u db' hok => ?_
  obtain ⟨c, draftId, debateId, hd, rfl⟩ := submitDraftSql_eq_ok.1 hok
  have hfind : (db.submitted d.user.id c draftId debateId).arguments.find? id =
      (db.arguments.find? id).map fun a =>
        if (submitDraftWhere draftId debateId d.user.id a).holds then a.submit c db.tickets.next
        else a :=
    SerialTable.find?_updateWhere _ _ _ id
  rw [hfind, Option.isSome_map]

theorem run_throughDraft (db : Database) :
    run step db (db.throughDraft now user debateId first updates d) =
      step (run step (step db (.saveArgumentAsDraft now ⟨user, debateId, first⟩))
        (updates.map .updateDraft)) (.submitDraft ⟨user, debateId, .int db.arguments.next, d⟩) := by
  simp only [Database.throughDraft, run_append, run_cons, run_nil]

theorem Redrafted.isSome (h : Redrafted db db') (id : Int) :
    (db'.arguments.find? id).isSome = (db.arguments.find? id).isSome := by
  have hframe := congrArg Option.isSome (h.frame id)
  simpa only [Option.isSome_map] using hframe

/-- The draft, once it has been saved. -/
theorem saved_draft {n : Int} {c : ArgumentColumns} (hn : int4 debateId = .ok n)
    (hc : first.columns = .ok c) (hnext : db.arguments.next ≤ int4Max)
    (hdebate : ∃ x ∈ db.debates.rows, x.id = n) (huser : ∃ u ∈ db.users.rows, u.id = user.id) :
    (step db (.saveArgumentAsDraft now ⟨user, debateId, first⟩)).users = db.users ∧
      (step db (.saveArgumentAsDraft now ⟨user, debateId, first⟩)).tickets = db.tickets ∧
      (step db (.saveArgumentAsDraft now ⟨user, debateId, first⟩)).arguments.find?
          db.arguments.next =
        some (CreateArgumentData.row ⟨user, debateId, first⟩ now n c none true
          db.arguments.next) := by
  let data : CreateArgumentData := ⟨user, debateId, first⟩
  have hsaved : step db (.saveArgumentAsDraft now data) =
      { db with arguments := db.arguments.insert (data.row now n c none true) } :=
    step_saveArgumentAsDraft_of hn hc hnext hdebate huser
  rw [hsaved]
  exact ⟨rfl, rfl, SerialTable.find?_insert_next _ _ fun _ => rfl⟩

/-- The draft, after any updates: only its columns may have changed. -/
theorem updated_draft {n : Int} {c : ArgumentColumns} {s : Database}
    (hs : s = run step (step db (.saveArgumentAsDraft now ⟨user, debateId, first⟩))
      (updates.map .updateDraft))
    (hn : int4 debateId = .ok n) (hc : first.columns = .ok c)
    (hnext : db.arguments.next ≤ int4Max) (hdebate : ∃ x ∈ db.debates.rows, x.id = n)
    (huser : ∃ u ∈ db.users.rows, u.id = user.id) :
    s.users = db.users ∧ s.tickets = db.tickets ∧
      ∃ a, s.arguments.find? db.arguments.next = some a ∧ a.id = db.arguments.next ∧
        a.debateId = n ∧ a.createdBy = user.id := by
  have hsaved : (step db (.saveArgumentAsDraft now ⟨user, debateId, first⟩)).users = db.users ∧ _ :=
    saved_draft hn hc hnext hdebate huser
  obtain ⟨husers, htickets, hfind⟩ := hsaved
  have hredrafted := run_updateDraft_redrafted
    (step db (.saveArgumentAsDraft now ⟨user, debateId, first⟩)) updates
  rw [← hs] at hredrafted
  have hframe := hredrafted.frame db.arguments.next
  rw [hfind, Option.map_some] at hframe
  obtain ⟨a, ha, haframe⟩ := Option.map_eq_some_iff.1 hframe
  exact ⟨hredrafted.users.trans husers, hredrafted.tickets.trans htickets, a, ha,
    congrArg ArgumentRow.id haframe, congrArg ArgumentRow.debateId haframe,
    congrArg ArgumentRow.createdBy haframe⟩

/-- The way through a draft leaves an argument behind if the draft could be saved at all. -/
theorem throughDraft_argument {n : Int} (hn : int4 debateId = .ok n)
    (hdebate : ∃ x ∈ db.debates.rows, x.id = n) (huser : ∃ u ∈ db.users.rows, u.id = user.id) :
    (db.proposal (db.throughDraft now user debateId first updates d)).argument.isSome = true ↔
      first.Fits db := by
  have hredrafted := run_updateDraft_redrafted
    (step db (.saveArgumentAsDraft now ⟨user, debateId, first⟩)) updates
  simp only [Database.proposal, Option.isSome_map, run_throughDraft, submitDraft_isSome,
    hredrafted.isSome]
  constructor
  · intro h
    by_contra hfits
    have hrejected : step db (.saveArgumentAsDraft now ⟨user, debateId, first⟩) = db :=
      step_saveArgumentAsDraft_not hfits
    rw [hrejected, SerialTable.find?_next] at h
    exact Bool.noConfusion h
  · rintro ⟨⟨c, hc⟩, hnext⟩
    rw [(saved_draft hn hc hnext hdebate huser).2.2]
    rfl

theorem directly_not (h : ¬ (d.Fits db ∧ db.tickets.next ≤ int4Max)) :
    db.proposal [.createArgument now ⟨user, debateId, d⟩] = ⟨none, none, []⟩ := by
  obtain ⟨e, he⟩ : ∃ e, createArgument now ⟨user, debateId, d⟩ db = .reject e db :=
    createArgument_not h
  simp [Database.proposal, steps, step, enqueued, he]

/-- The rows of an argument with these columns, once it has been proposed. -/
def proposed (n userId : Int) (c : ArgumentColumns) : ArgumentRow × TicketRow :=
  (⟨0, n, some 0, c.title, c.content, c.counterargumentTo, userId, 0, some c.type, some false⟩,
    ⟨0, userId, none, some .pending⟩)

theorem directly_of {n : Int} {c : ArgumentColumns} (hn : int4 debateId = .ok n)
    (hc : d.columns = .ok c) (hnext : db.arguments.next ≤ int4Max)
    (hticket : db.tickets.next ≤ int4Max) (hdebate : ∃ x ∈ db.debates.rows, x.id = n)
    (huser : ∃ u ∈ db.users.rows, u.id = user.id) :
    db.proposal [.createArgument now ⟨user, debateId, d⟩] =
      ⟨some (proposed n user.id c).1, some (proposed n user.id c).2,
        [.genericModerator "New argument proposed!" (.argumentTicketCreated 0 d.title)
          .argument]⟩ := by
  let o := createArgument now ⟨user, debateId, d⟩ db
  have hcreated : o = .resolve ()
      { db with
        tickets := db.tickets.insert fun id => ⟨id, user.id, none, some .pending⟩
        arguments := db.arguments.insert
          (CreateArgumentData.row ⟨user, debateId, d⟩ now n c (some db.tickets.next) false) }
      [.genericModerator "New argument proposed!"
        (.argumentTicketCreated db.tickets.next d.title) .argument] :=
    createArgument_of hn hc hnext hticket hdebate huser
  have hargument : o.db.arguments.find? db.arguments.next = some
      (CreateArgumentData.row ⟨user, debateId, d⟩ now n c (some db.tickets.next) false
        db.arguments.next) := by
    rw [hcreated]
    exact SerialTable.find?_insert_next _ _ fun _ => rfl
  have hrow : o.db.tickets.find? db.tickets.next =
      some ⟨db.tickets.next, user.id, none, some .pending⟩ := by
    rw [hcreated]
    exact SerialTable.find?_insert_next _ _ fun _ => rfl
  have hjobs : o.jobs = [.genericModerator "New argument proposed!"
      (.argumentTicketCreated db.tickets.next d.title) .argument] := by
    rw [hcreated]
    rfl
  show Proposal.mk ((o.db.arguments.find? db.arguments.next).map _)
    ((o.db.tickets.find? db.tickets.next).map _) ((o.jobs ++ []).map _) = _
  rw [hargument, hrow, hjobs]
  rfl

/-- The rows that a draft leaves behind that is saved, updated and submitted. -/
theorem throughDraft_of {n : Int} {c₀ c : ArgumentColumns} (hn : int4 debateId = .ok n)
    (hc₀ : first.columns = .ok c₀) (hc : d.columns = .ok c) (hnext : db.arguments.next ≤ int4Max)
    (hticket : db.tickets.next ≤ int4Max) (hdebate : ∃ x ∈ db.debates.rows, x.id = n)
    (huser : ∃ u ∈ db.users.rows, u.id = user.id) :
    db.proposal (db.throughDraft now user debateId first updates d) =
      ⟨some (proposed n user.id c).1, some (proposed n user.id c).2, []⟩ := by
  obtain ⟨s, hs⟩ : ∃ s, s = run step (step db (.saveArgumentAsDraft now ⟨user, debateId, first⟩))
    (updates.map .updateDraft) := ⟨_, rfl⟩
  obtain ⟨husers, htickets, a, hfind, hid, hdebateId, hauthor⟩ :=
    updated_draft hs hn hc₀ hnext hdebate huser
  have hint4 : IsInt4 db.arguments.next := by
    have hpos := db.arguments.pos
    exact ⟨by unfold int4Min; omega, hnext⟩
  have hstorable : UpdateDraftData.Storable ⟨user, debateId, .int db.arguments.next, d⟩ s c
      db.arguments.next n :=
    ⟨hc, int4_int.2 ⟨hint4, rfl⟩, hn, htickets ▸ hticket, husers ▸ huser⟩
  have hrun : run step db (db.throughDraft now user debateId first updates d) =
      s.submitted user.id c db.arguments.next n := by
    rw [run_throughDraft, ← hs]
    exact step_submitDraft hstorable
  have hargument : (s.submitted user.id c db.arguments.next n).arguments.find?
      db.arguments.next = some (a.submit c db.tickets.next) := by
    have h : (s.submitted user.id c db.arguments.next n).arguments.find? db.arguments.next =
        (s.arguments.find? db.arguments.next).map fun a =>
          if (submitDraftWhere db.arguments.next n user.id a).holds then
            a.submit c s.tickets.next
          else a :=
      SerialTable.find?_updateWhere _ _ _ _
    rw [h, hfind, Option.map_some, if_pos (submitDraftWhere_holds.2 ⟨hid, hdebateId, hauthor⟩),
      htickets]
  have hrow : (s.submitted user.id c db.arguments.next n).tickets.find? db.tickets.next =
      some ⟨db.tickets.next, user.id, none, some .pending⟩ := by
    rw [← htickets]
    exact SerialTable.find?_insert_next _ _ fun _ => rfl
  have hanonymous : (a.submit c db.tickets.next).anonymous = (proposed n user.id c).1 := by
    rw [← hdebateId, ← hauthor]
    rfl
  have hjobs : (db.proposal (db.throughDraft now user debateId first updates d)).jobs = [] :=
    throughDraft_jobs
  have hparts : db.proposal (db.throughDraft now user debateId first updates d) =
      ⟨((s.submitted user.id c db.arguments.next n).arguments.find? db.arguments.next).map
          ArgumentRow.anonymous,
        ((s.submitted user.id c db.arguments.next n).tickets.find? db.tickets.next).map
          TicketRow.anonymous, []⟩ := by
    rw [← hjobs, ← hrun]
    rfl
  rw [hparts, hargument, hrow, Option.map_some, Option.map_some, hanonymous]
  rfl

/-- Neither a draft nor a submission: nothing is left behind. -/
theorem throughDraft_not (hfirst : ¬ first.Fits db)
    (h : ¬ (d.Fits db ∧ db.tickets.next ≤ int4Max)) :
    db.proposal (db.throughDraft now user debateId first updates d) = ⟨none, none, []⟩ := by
  have hrejected : step db (.saveArgumentAsDraft now ⟨user, debateId, first⟩) = db :=
    step_saveArgumentAsDraft_not hfirst
  have hredrafted := run_updateDraft_redrafted db updates
  have hrun : run step db (db.throughDraft now user debateId first updates d) =
      run step db (updates.map .updateDraft) := by
    rw [run_throughDraft, hrejected]
    refine step_submitDraft_not fun ⟨hc, ⟨m, hm⟩, hticket⟩ => h ⟨⟨hc, ?_⟩, ?_⟩
    · obtain ⟨⟨-, hle⟩, -⟩ := int4_int.1 hm
      exact hle
    · rwa [hredrafted.tickets] at hticket
  have hargument : (run step db (updates.map .updateDraft)).arguments.find?
      db.arguments.next = none := by
    have hsome := hredrafted.isSome db.arguments.next
    rwa [SerialTable.find?_next, Option.isSome_none, Option.isSome_eq_false_iff,
      Option.isNone_iff_eq_none] at hsome
  have hjobs : (db.proposal (db.throughDraft now user debateId first updates d)).jobs = [] :=
    throughDraft_jobs
  have hparts : db.proposal (db.throughDraft now user debateId first updates d) =
      ⟨((run step db (updates.map .updateDraft)).arguments.find? db.arguments.next).map
          ArgumentRow.anonymous,
        ((run step db (updates.map .updateDraft)).tickets.find? db.tickets.next).map
          TicketRow.anonymous, []⟩ := by
    rw [← hjobs, ← hrun]
    rfl
  rw [hparts, hargument, hredrafted.tickets, SerialTable.find?_next]
  rfl

/-- **Through a draft, or at once.** For a user with an account and an existing debate the two ways
    leave the same behind only when they leave nothing, because neither content can be stored. Once
    there is a draft they never do: where both end in an argument and a ticket, these are the same,
    but only the direct way enqueues the job that tells the moderators. -/
theorem draft_submission_iff {n : Int} (hn : int4 debateId = .ok n)
    (hdebate : ∃ x ∈ db.debates.rows, x.id = n) (huser : ∃ u ∈ db.users.rows, u.id = user.id) :
    (db.proposal (db.throughDraft now user debateId first updates d) =
        db.proposal [.createArgument now' ⟨user, debateId, d⟩] ↔
      ¬ first.Fits db ∧ ¬ (d.Fits db ∧ db.tickets.next ≤ int4Max)) ∧
    (first.Fits db → d.Fits db → db.tickets.next ≤ int4Max →
      (db.proposal (db.throughDraft now user debateId first updates d)).argument =
          (db.proposal [.createArgument now' ⟨user, debateId, d⟩]).argument ∧
        (db.proposal (db.throughDraft now user debateId first updates d)).ticket =
          (db.proposal [.createArgument now' ⟨user, debateId, d⟩]).ticket ∧
        (db.proposal (db.throughDraft now user debateId first updates d)).jobs = [] ∧
        (db.proposal [.createArgument now' ⟨user, debateId, d⟩]).jobs =
          [.genericModerator "New argument proposed!" (.argumentTicketCreated 0 d.title)
            .argument]) := by
  have hjobs : (db.proposal (db.throughDraft now user debateId first updates d)).jobs = [] :=
    throughDraft_jobs
  -- a direct submission that is stored is announced, and then the jobs differ
  have hnever : d.Fits db ∧ db.tickets.next ≤ int4Max →
      db.proposal (db.throughDraft now user debateId first updates d) ≠
        db.proposal [.createArgument now' ⟨user, debateId, d⟩] := by
    rintro ⟨⟨⟨c, hc⟩, hnext⟩, hticket⟩ h
    rw [h, directly_of hn hc hnext hticket hdebate huser] at hjobs
    exact absurd hjobs (by simp)
  refine ⟨⟨fun h => ⟨fun hfirst => ?_, fun hd => hnever hd h⟩, fun ⟨hfirst, hd⟩ => ?_⟩,
    fun ⟨⟨c₀, hc₀⟩, hnext⟩ ⟨⟨c, hc⟩, _⟩ hticket => ?_⟩
  · by_cases hd : d.Fits db ∧ db.tickets.next ≤ int4Max
    · exact hnever hd h
    · have hargument : (db.proposal
          (db.throughDraft now user debateId first updates d)).argument.isSome = true :=
        (throughDraft_argument hn hdebate huser).2 hfirst
      rw [h, directly_not hd] at hargument
      exact Bool.noConfusion hargument
  · rw [throughDraft_not hfirst hd, directly_not hd]
  · rw [throughDraft_of hn hc₀ hc hnext hticket hdebate huser,
      directly_of hn hc hnext hticket hdebate huser]
    exact ⟨rfl, rfl, rfl, rfl⟩

end Ways

/-- A debate to argue in. -/
def oneDebate : Database := run step (Database.empty id) (createUsers ++ [proposeDebate])

theorem oneDebate_eq : oneDebate = run step (Database.withUsers id) [proposeDebate] :=
  run_createUsers_append id _

/-- A draft is saved, updated once, and submitted. -/
def viaDraft : List Call :=
  oneDebate.throughDraft 2 testUser (.int 1) (sampleArgument "First thoughts")
    [⟨testUser, .int 1, .int 1, sampleArgument "Second thoughts"⟩] (sampleArgument "An argument")

theorem draft_submission_sample :
    (oneDebate.proposal viaDraft).argument =
        (oneDebate.proposal
          [.createArgument 3 ⟨testUser, .int 1, sampleArgument "An argument"⟩]).argument ∧
      (oneDebate.proposal viaDraft).jobs = [] := by
  have hfits : ∀ title, title = "First thoughts" ∨ title = "An argument" →
      (sampleArgument title).Fits oneDebate := by
    rintro title (rfl | rfl) <;> exact ⟨⟨_, rfl⟩, by rw [oneDebate_eq]; decide +kernel⟩
  have hid : int4 (.int 1) = .ok 1 := by decide
  obtain ⟨hdebate, huser, hticket⟩ : (∃ x ∈ oneDebate.debates.rows, x.id = 1) ∧
      (∃ u ∈ oneDebate.users.rows, u.id = testUser.id) ∧ oneDebate.tickets.next ≤ int4Max := by
    rw [oneDebate_eq]
    decide +kernel
  have hways : (oneDebate.proposal viaDraft).argument = (oneDebate.proposal
      [.createArgument 3 ⟨testUser, .int 1, sampleArgument "An argument"⟩]).argument ∧ _ :=
    (draft_submission_iff hid hdebate huser).2 (hfits _ (Or.inl rfl)) (hfits _ (Or.inr rfl)) hticket
  exact ⟨hways.1, hways.2.2.1⟩

/-- The same argument, but no job. -/
theorem submitDraft_enqueues_nothing :
    ¬ ∀ db : Database, db.Reachable → ∀ (now now' : Timestamp) (user : UserCookieData)
      (debateId : JsNumber) (first d : CreateArgumentDTO) (updates : List UpdateDraftData)
      (n : Int), int4 debateId = .ok n → (∃ x ∈ db.debates.rows, x.id = n) →
      (∃ u ∈ db.users.rows, u.id = user.id) →
      (saveArgumentAsDraft now ⟨user, debateId, first⟩ db).result = .ok () →
        db.proposal (db.throughDraft now user debateId first updates d) =
          db.proposal [.createArgument now' ⟨user, debateId, d⟩] := by
  intro h
  have hsame := h oneDebate (Database.reachable_run id _) 2 3 testUser (.int 1)
    (sampleArgument "First thoughts") (sampleArgument "An argument") [] 1 (by decide)
  rw [oneDebate_eq] at hsame
  exact absurd (hsame (by decide +kernel) (by decide +kernel) rfl) (by decide +kernel)

end DecentDebates

import DecentDebates.Proofs.Effects
import DecentDebates.Submissions

set_option autoImplicit false

/-! # Submissions are all-or-nothing

The statements between `BEGIN` and `COMMIT` do together what the transaction of `DebatesService`
does at once (`inner_refines`), so that the rules of `Atomic` say what a whole call does, whatever
fails (`run_submitting`). What is stored is read off the transaction's own lemmas. -/

namespace DecentDebates.Submissions

open Effects Atomic Relational

variable {env : Environment} {db db' : Database}

/-! ## Statements -/

theorem createTags_refines (createdTags : Option (List String)) :
    Refines env.driver (if createdTags.isSome then [.insertTagsSql] else [])
      (DebatesService.createTags env createdTags) (createTags createdTags) := by
  cases createdTags with
  | none => exact refines_pure []
  | some createdTags => exact refines_execute Statement.insertTagsSql (insertTags createdTags)

theorem debateStatements_refines (env : Environment) (now : Timestamp) (user : UserCookieData)
    (d : CreateDebateDTO) :
    Refines env.driver (Request.createDebate now user d).inner
      (DebatesService.debateStatements env now user d) (createDebateSql now user d) := by
  show Refines _ ((if d.createdTags.isSome then [Statement.insertTagsSql] else []) ++
    ([Statement.createTicketSqlStr] ++
      ([Statement.createDebateSql] ++ ([Statement.assocDebateTagSql] ++ [])))) _ _
  refine (createTags_refines d.createdTags).bind fun createdIds => ?_
  refine (refines_execute _ (insertTicket user.id)).bind fun ticketId => ?_
  refine (refines_execute _ (insertDebate now ticketId d.title user.id)).bind fun debateId => ?_
  exact (refines_execute _ (insertAssocDebateTags _ _)).bind fun _ => refines_pure ticketId

theorem argumentStatements_refines (env : Environment) (now : Timestamp) (d : CreateArgumentData) :
    Refines env.driver (Request.createArgument now d).inner
      (DebatesService.argumentStatements env now d) (createArgumentSql now d) := by
  show Refines _ ([Statement.createTicketSqlStr] ++ ([Statement.createArgumentSql] ++ [])) _ _
  refine (refines_execute _ (insertTicket d.user.id)).bind fun ticketId => ?_
  exact (refines_execute _ (insertArgument _ _ _ _)).bind fun _ => refines_pure ticketId

/-! ## Calls -/

/-- The notification never makes the call fail, and touches nothing but the queue and the log. -/
theorem run_notify (env : Environment) (payload : NotificationJobPayload) (s : ServiceState) :
    ∃ jobs logged, (notify env payload).run s = (.ok (), { s with jobs, logged }) ∧
      (env.getContent = .ok () → env.add = .ok () → jobs = s.jobs ++ [payload]) := by
  simp only [notify, Comp.run_tryCatch, Comp.run_bind, Comp.run_ofExcept, Comp.run_modify]
  cases hcontent : env.getContent with
  | error e => exact ⟨s.jobs, s.logged ++ [e], rfl, nofun⟩
  | ok _ =>
    cases hadd : env.add with
    | error e => exact ⟨s.jobs, s.logged ++ [e], rfl, nofun⟩
    | ok _ => exact ⟨s.jobs ++ [payload], s.logged, rfl, fun _ _ => rfl⟩

theorem run_onConnection {α : Type} {x : Comp ServiceError (Connection Database Statement) α}
    {s : ServiceState} {r : Except ServiceError α} {connection : Connection Database Statement}
    (h : x.run s.connection = (r, connection)) :
    (onConnection x).run s = (r, { s with connection }) := by
  rw [onConnection, Comp.run_zoom, h]

variable {names : List Statement}
  {statements : Comp ServiceError (Connection Database Statement) Int} {m : Sql Int}
  {payload : Int → NotificationJobPayload} {thrown : ServiceError → ServiceError}

/-- A call whose statements do what the transaction `m` does. -/
theorem run_submitting (h : Refines env.driver names statements m) (db : Database) :
    (∃ ticketId db' jobs logged, m db = .ok (ticketId, db') ∧
      (∀ n ∈ .BEGIN :: (names ++ [.COMMIT]), env.fault n = none) ∧
      (env.getContent = .ok () → env.add = .ok () → jobs = [payload ticketId]) ∧
      (submitting env statements payload thrown).run (.init db) =
        (.ok (), ⟨⟨db', [db], .none, []⟩, jobs, logged, 1⟩)) ∨
    ∃ e, ∃ n ∈ .BEGIN :: (names ++ [.COMMIT]), Fails env.driver n m db e ∧
      (submitting env statements payload thrown).run (.init db) =
        (.error (thrown e), ⟨⟨db, [], .none, [n]⟩, [], [e], 1⟩) := by
  rcases run_transaction h .BEGIN .COMMIT (c := .idle Statement db) rfl with
    ⟨ticketId, db', hm, hnames, hrun⟩ | ⟨e, n, hn, hfails, c', hrun, hdb, hpast, hfailed⟩
  · obtain ⟨jobs, logged, hnotify, hjobs⟩ := run_notify env (payload ticketId)
      ⟨⟨db', [db], .none, []⟩, [], [], 0⟩
    refine Or.inl ⟨ticketId, db', jobs, logged, hm, hnames, hjobs, ?_⟩
    have hsent : (onConnection (transaction env.driver .BEGIN .COMMIT statements)).run
        (.init db) = (.ok ticketId, ⟨⟨db', [db], .none, []⟩, [], [], 0⟩) := run_onConnection hrun
    simp only [submitting, Comp.run_tryFinally, Comp.run_tryCatch, Comp.run_bind_ok hsent, hnotify]
    rfl
  · refine Or.inr ⟨e, n, hn, hfails, ?_⟩
    have hsent : (onConnection (transaction env.driver .BEGIN .COMMIT statements)).run
        (.init db) = (.error e, ⟨c', [], [], 0⟩) := run_onConnection hrun
    simp only [submitting, Comp.run_tryFinally, Comp.run_tryCatch, Comp.run_bind_error hsent]
    -- the handler logs the error and ends the transaction
    have hhandler : (do logError e; onConnection rollback; throw (thrown e) : ServiceM Unit).run
        ⟨c', [], [], 0⟩ = (.error (thrown e), ⟨{ c' with transaction := .none }, [], [e], 0⟩) := rfl
    have hc' : { c' with transaction := .none } = ⟨db, [], .none, [n]⟩ := by
      obtain ⟨committed, past, transaction, failed⟩ := c'
      obtain rfl : committed = db := hdb
      obtain rfl : past = [] := hpast
      obtain rfl : failed = [n] := hfailed
      rfl
    rw [hhandler, hc']
    rfl

/-- A call does all of its transaction, or it does nothing and there is a statement to blame. -/
theorem settle_cases (env : Environment) (r : Request) (db : Database) :
    (∃ ticketId db' jobs logged, r.sql db = .ok (ticketId, db') ∧
      (∀ n ∈ r.statements, env.fault n = none) ∧
      (env.getContent = .ok () → env.add = .ok () → r.outcome db = ⟨.ok (), db', jobs⟩) ∧
      r.settle env db = (.ok (), ⟨⟨db', [db], .none, []⟩, jobs, logged, 1⟩)) ∨
    ∃ e err, ∃ n ∈ r.statements, (env.fault n = none → r.outcome db = .reject err db) ∧
      r.settle env db = (.error err, ⟨⟨db, [], .none, [n]⟩, [], [e], 1⟩) := by
  cases r with
  | createDebate now user d =>
    rcases run_submitting (debateStatements_refines env now user d) db with
      ⟨ticketId, db', jobs, logged, hsql, hnames, hjobs, hrun⟩ | ⟨e, n, hn, hfails, hrun⟩
    · refine Or.inl ⟨ticketId, db', jobs, logged, hsql, hnames, fun hcontent hadd => ?_, hrun⟩
      simp only [Request.outcome, createDebate, Sql.commit_of_ok hsql, Outcome.resolve,
        hjobs hcontent hadd]
    · refine Or.inr ⟨e, e, n, hn, fun hfault => ?_, hrun⟩
      obtain ⟨e', hsql, rfl⟩ := hfails.resolve_left (by simp [Environment.driver, hfault])
      simp only [Request.outcome, createDebate, Sql.commit_of_error hsql]
      rfl
  | createArgument now d =>
    rcases run_submitting (argumentStatements_refines env now d) db with
      ⟨ticketId, db', jobs, logged, hsql, hnames, hjobs, hrun⟩ | ⟨e, n, hn, hfails, hrun⟩
    · refine Or.inl ⟨ticketId, db', jobs, logged, hsql, hnames, fun hcontent hadd => ?_, hrun⟩
      simp only [Request.outcome, createArgument, Sql.commit_of_ok hsql, Outcome.resolve,
        hjobs hcontent hadd]
    · refine Or.inr ⟨e, _, n, hn, fun hfault => ?_, hrun⟩
      obtain ⟨e', hsql, rfl⟩ := hfails.resolve_left (by simp [Environment.driver, hfault])
      simp only [Request.outcome, createArgument, Sql.commit_of_error hsql]

/-- When nothing fails by accident, a call is the one step that the services are modelled by. -/
theorem settle_eq_outcome {r : Request} (hfault : ∀ n ∈ r.statements, env.fault n = none)
    (hcontent : env.getContent = .ok ()) (hadd : env.add = .ok ()) :
    r.outcome db = ⟨(r.settle env db).1, (r.settle env db).2.connection.committed,
      (r.settle env db).2.jobs⟩ := by
  rcases settle_cases env r db with ⟨_, db', jobs, _, -, -, houtcome, hsettle⟩ |
    ⟨e, err, n, hn, houtcome, hsettle⟩
  · rw [hsettle]
    exact houtcome hcontent hadd
  · rw [hsettle]
    exact houtcome (hfault n hn)

/-! ## What is stored -/

theorem stores_of_ok {r : Request} {ticketId : Int} (h : r.sql db = .ok (ticketId, db')) :
    r.Stores db db' := by
  cases r with
  | createDebate now user d =>
    obtain ⟨title, tags, assoc, -, -, -, -, -, rfl⟩ := createDebateSql_ok h
    exact ⟨_, rfl, rfl, rfl, rfl, ⟨_, rfl, rfl⟩, rfl⟩
  | createArgument now d =>
    obtain ⟨debateId, c, -, -, -, -, -, -, -, rfl⟩ := createArgumentSql_eq_ok.1 h
    exact ⟨_, rfl, rfl, rfl, rfl, ⟨_, rfl, rfl, rfl⟩, rfl, rfl, rfl⟩

/-- **All or nothing.** For every submission, every state of the tables, and every way in which its
    statements and its notification can fail. -/
theorem submissions_all_or_nothing (env : Environment) (r : Request) (db : Database) :
    r.AllOrNothing env db := by
  rcases settle_cases env r db with ⟨ticketId, db', jobs, _, hsql, hnames, -, hsettle⟩ |
    ⟨e, err, n, hn, -, hsettle⟩
  · refine ⟨?_, ?_, ?_⟩
    · rintro ⟨n, hn, hfault⟩
      exact absurd (hnames n hn) hfault
    · rw [hsettle]
      intro hfailed
      exact absurd rfl hfailed
    · rw [hsettle]
      intro _
      exact ⟨rfl, rfl, stores_of_ok hsql⟩
  · refine ⟨?_, ?_, ?_⟩
    · rw [hsettle]
      intro _
      exact List.cons_ne_nil _ _
    · rw [hsettle]
      intro _
      exact ⟨⟨err, rfl⟩, rfl, rfl, rfl⟩
    · rw [hsettle]
      intro hfailed
      exact absurd hfailed (List.cons_ne_nil _ _)

end DecentDebates.Submissions

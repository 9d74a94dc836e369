import DecentDebates.Approvals
import DecentDebates.Proofs.TicketWorkflow

set_option autoImplicit false

/-! # Approval notifications: proofs

One step at a time: `publishes_iff` says which tickets a request turns ACCEPTED and
`approvals_eq` how many approvals it announces. The two agree on every ticket exactly if the request
does not misreport, and the counts of a run agree if they agree on its steps. -/

namespace DecentDebates

open Relational Transition

variable {db db' : Database} {r : Request} {k : Int}

/-! ## Requests as calls -/

/-- The service call behind a request. -/
def Request.toCall : Request → Call
  | .call c _ => c
  | .updateTicket user id body => .updateTicket ⟨user.id, id, body.boardList⟩
  | .approveDebate user ticketId _ => .approveTicket user ticketId
  | .approveArgument user ticketId _ => .approveTicket user ticketId

theorem approve_db (event : Int → DomainEvent) (notificationEvent : NotificationEvents)
    (user : UserCookieData) (ticketId : Int) (db : Database) :
    (ModeratorController.approve event notificationEvent user ticketId db).db =
      (approveTicket user ticketId db).db := by
  unfold ModeratorController.approve
  simp only
  split <;> rfl

theorem requestStep_eq (db : Database) (r : Request) : requestStep db r = step db r.toCall := by
  cases r with
  | call c hc => rfl
  | updateTicket user id body => rfl
  | approveDebate user ticketId body => exact approve_db _ _ user ticketId db
  | approveArgument user ticketId body => exact approve_db _ _ user ticketId db

theorem stored_requestStep (db : Database) (r : Request) (hS : db.Stored) :
    (requestStep db r).Stored :=
  requestStep_eq db r ▸ stored_step db r.toCall hS

/-! ## What is published -/

/-- The request moves the ticket to ACCEPTED, wherever it is. -/
def Request.Accepts : Request → TicketRow → Prop
  | .call _ _, _ => False
  | .updateTicket user id body, t =>
    body.boardList = "ACCEPTED" ∧ (updateTicketWhere id user.id t).holds = true
  | .approveDebate user ticketId _, t => (approveTicketWhere ticketId user.id t).holds = true
  | .approveArgument user ticketId _, t => (approveTicketWhere ticketId user.id t).holds = true

theorem TicketChange.accepts {t t' : TicketRow} (h : TicketChange r.toCall t t')
    (hbefore : t.boardList ≠ some .accepted) (hafter : t'.boardList = some .accepted) :
    r.Accepts t := by
  cases r with
  | call c hc =>
    simp only [Request.toCall] at h
    cases h with
    | same => exact absurd hafter hbefore
    | moved => exact absurd hc (by simp [Call.byModerator])
    | approved => exact absurd hc (by simp [Call.byModerator])
  | updateTicket user id body =>
    cases h with
    | same => exact absurd hafter hbefore
    | moved hb hw =>
      cases hafter
      exact ⟨hb.symm, hw⟩
  | approveDebate user ticketId body =>
    cases h with
    | same => exact absurd hafter hbefore
    | approved hw => exact hw
  | approveArgument user ticketId body =>
    cases h with
    | same => exact absurd hafter hbefore
    | approved hw => exact hw

theorem Request.Accepts.onBoard (hS : db.Stored) {t : TicketRow} (ht : t ∈ db.tickets.rows)
    (h : r.Accepts t) : (requestStep db r).OnBoard t.id .accepted := by
  rw [requestStep_eq]
  have happrove : ∀ user ticketId, (approveTicketWhere ticketId user.id t).holds = true →
      (step db (.approveTicket user ticketId)).OnBoard t.id .accepted := by
    intro user ticketId hw
    rw [step_approveTicket ((approveTicketWhere_holds.1 hw).1 ▸ hS.ticket_id t ht)]
    exact ⟨_, SerialTable.updateWhere_mem ht hw (by intro; rfl), rfl, rfl⟩
  cases r with
  | call c hc => exact h.elim
  | updateTicket user id body =>
    obtain ⟨hb, hw⟩ := h
    have hb' : BoardList.accepted.label = body.boardList := hb.symm
    simp only [Request.toCall]
    rw [step_updateTicket hb' ((updateTicketWhere_holds.1 hw).1 ▸ hS.ticket_id t ht)]
    exact ⟨_, SerialTable.updateWhere_mem ht hw (by intro; rfl), rfl, rfl⟩
  | approveDebate user ticketId body => exact happrove user ticketId h
  | approveArgument user ticketId body => exact happrove user ticketId h

theorem publishes_iff (hS : db.Stored) :
    db.Publishes r k ↔
      ∃ t ∈ db.tickets.rows, t.id = k ∧ t.boardList ≠ some .accepted ∧ r.Accepts t := by
  constructor
  · rintro ⟨hbefore, t', ht', rfl, hacc⟩
    rw [requestStep_eq] at ht'
    rcases (step_effect db r.toCall).ticket_prev ht' with ⟨t, ht, hchange⟩ | hnew
    · have hne : t.boardList ≠ some .accepted := fun h => hbefore ⟨t, ht, hchange.id.symm, h⟩
      exact ⟨t, ht, hchange.id.symm, hne, hchange.accepts hne hacc⟩
    · rw [hnew.boardList] at hacc
      exact nomatch hacc
  · rintro ⟨t, ht, rfl, hne, haccepts⟩
    exact ⟨fun hon => hne ((db.onBoard_iff ht _).1 hon), haccepts.onBoard hS ht⟩

/-! ## What is announced -/

/-- The service calls themselves announce no approval. -/
theorem enqueued_approval (db : Database) (c : Call) :
    ∀ job ∈ enqueued db c, job.approval? = none := by
  cases c with
  | createDebate now user d =>
    simp only [enqueued, createDebate]
    split <;> simp [NotificationJobPayload.approval?]
  | createArgument now d =>
    simp only [enqueued, createArgument]
    split <;> simp [NotificationJobPayload.approval?]
  | _ =>
    rw [enqueued_eq_nil db rfl]
    simp

theorem approveTicket_rows {user : UserCookieData} {ticketId : Int} (hid : IsInt4 ticketId)
    {t : TicketRow} (ht : t ∈ db.tickets.rows)
    (hw : (approveTicketWhere ticketId user.id t).holds = true) :
    (approveTicket user ticketId db).result = .ok [t.createdBy] := by
  simp only [approveTicket, Sql.commit_of_ok (approveTicketSql_of db user hid),
    Outcome.result_resolve]
  have hids : ∀ y, (approveTicketWhere ticketId user.id y).holds = true → y.id = ticketId :=
    fun y hy => (approveTicketWhere_holds.1 hy).1
  rw [filter_single hids ht hw, List.map_singleton]

/-- Approving a ticket enqueues one job, for its author. -/
theorem approve_jobs (event : Int → DomainEvent) (notificationEvent : NotificationEvents)
    {user : UserCookieData} {ticketId : Int} (hS : db.Stored) {t : TicketRow}
    (ht : t ∈ db.tickets.rows) (hw : (approveTicketWhere ticketId user.id t).holds = true) :
    (ModeratorController.approve event notificationEvent user ticketId db).jobs =
      [.ticketParticipant (event t.createdBy).getTitle (event t.createdBy) notificationEvent
        (.int t.createdBy)] := by
  have hid : IsInt4 ticketId := (approveTicketWhere_holds.1 hw).1 ▸ hS.ticket_id t ht
  simp only [ModeratorController.approve, approveTicket_rows hid ht hw, Outcome.jobs_resolve]

theorem approve_no_jobs (event : Int → DomainEvent) (notificationEvent : NotificationEvents)
    {user : UserCookieData} {ticketId : Int}
    (hnone : ∀ t ∈ db.tickets.rows, ¬ (approveTicketWhere ticketId user.id t).holds = true) :
    (ModeratorController.approve event notificationEvent user ticketId db).jobs = [] := by
  by_cases hid : IsInt4 ticketId
  · simp only [ModeratorController.approve, approveTicket_nothing hid hnone, Outcome.jobs_reject]
  · have herror : ∃ e, (approveTicket user ticketId db).result = .error e := by
      rcases Sql.commit_cases (approveTicketSql user ticketId) db with
        ⟨rows, db', hok, -⟩ | ⟨e, -, hcommit⟩
      · exact absurd (approveTicketSql_eq_ok.1 hok).1 hid
      · exact ⟨_, by simp only [approveTicket, hcommit]; rfl⟩
    obtain ⟨e, herror⟩ := herror
    simp only [ModeratorController.approve, herror, Outcome.jobs_reject]

/-- For a request that approves a ticket: it announces the approval whether or not the ticket was
    published before. -/
theorem approve_agrees_iff {event : Int → DomainEvent} {notificationEvent : NotificationEvents}
    {user : UserCookieData} {ticketId : Int} (hS : db.Stored)
    (hjobs : (serve db r).2 =
      (ModeratorController.approve event notificationEvent user ticketId db).jobs)
    (haccepts : ∀ t, r.Accepts t ↔ (approveTicketWhere ticketId user.id t).holds = true)
    (hevent : ∀ title author, (NotificationJobPayload.ticketParticipant title (event author)
      notificationEvent (.int author)).approval? = some (ticketId, .int author)) :
    (∀ k, approvals k db r = publications k db r) ↔
      ¬ ∃ t ∈ db.tickets.rows, (approveTicketWhere ticketId user.id t).holds = true ∧
        t.boardList = some .accepted := by
  by_cases hex : ∃ t ∈ db.tickets.rows, (approveTicketWhere ticketId user.id t).holds = true
  · obtain ⟨t, ht, hw⟩ := hex
    have hid : t.id = ticketId := (approveTicketWhere_holds.1 hw).1
    have huniq : ∀ t' ∈ db.tickets.rows, t'.id = t.id → t' = t :=
      fun t' ht' h => SerialTable.eq_of_rowId_eq ht' ht h
    have happrovals : ∀ k, approvals k db r = if ticketId = k then 1 else 0 := by
      intro k
      unfold approvals
      rw [hjobs, approve_jobs event notificationEvent hS ht hw]
      simp [hevent, List.countP_cons]
    have hpublications : ∀ k, publications k db r =
        if ticketId = k ∧ t.boardList ≠ some .accepted then 1 else 0 := by
      intro k
      unfold publications
      refine if_congr ((publishes_iff hS).trans ?_) rfl rfl
      constructor
      · rintro ⟨t', ht', hk, hne, ha⟩
        have hsame : t' = t :=
          huniq t' ht' ((approveTicketWhere_holds.1 ((haccepts t').1 ha)).1.trans hid.symm)
        rw [hsame] at hk hne
        exact ⟨hid.symm.trans hk, hne⟩
      · rintro ⟨hk, hne⟩
        exact ⟨t, ht, hid.trans hk, hne, (haccepts t).2 hw⟩
    constructor
    · rintro h ⟨t', ht', hw', hacc⟩
      have hsame : t' = t := huniq t' ht' ((approveTicketWhere_holds.1 hw').1.trans hid.symm)
      have hboth := h ticketId
      rw [happrovals, hpublications, ← hsame, hacc] at hboth
      simp at hboth
    · intro hnot k
      have hne : t.boardList ≠ some .accepted := fun hacc => hnot ⟨t, ht, hw, hacc⟩
      simp [happrovals, hpublications, hne]
  · have hnone : ∀ t ∈ db.tickets.rows, ¬ (approveTicketWhere ticketId user.id t).holds = true :=
      fun t ht hw => hex ⟨t, ht, hw⟩
    have hpublishes : ∀ k, ¬ db.Publishes r k := fun k hk => by
      obtain ⟨t, ht, -, -, ha⟩ := (publishes_iff hS).1 hk
      exact hnone t ht ((haccepts t).1 ha)
    refine iff_of_true (fun k => ?_) fun ⟨t, ht, hw, _⟩ => hnone t ht hw
    unfold approvals publications
    rw [hjobs, approve_no_jobs event notificationEvent hnone, if_neg (hpublishes k)]
    rfl

/-- A request announces exactly what it publishes unless it misreports. -/
theorem approvals_eq_publications_iff (hS : db.Stored) (r : Request) :
    (∀ k, approvals k db r = publications k db r) ↔ ¬ db.Misreports r := by
  cases r with
  | call c hc =>
    refine iff_of_true (fun k => ?_) id
    have hpublishes : ¬ db.Publishes (.call c hc) k := fun hk => by
      obtain ⟨_, -, -, -, ha⟩ := (publishes_iff hS).1 hk
      exact ha
    unfold approvals publications
    rw [if_neg hpublishes, List.countP_eq_zero]
    intro job hjob
    simp [enqueued_approval db c job hjob]
  | updateTicket user id body =>
    have happrovals : ∀ k, approvals k db (.updateTicket user id body) = 0 := by
      intro k
      simp [approvals, serve, ModeratorController.updateTicket, updateTicket_jobs]
    constructor
    · rintro h ⟨hb, t, ht, hw, hne⟩
      have hpublishes : db.Publishes (.updateTicket user id body) t.id :=
        (publishes_iff hS).2 ⟨t, ht, rfl, hne, hb, hw⟩
      have hboth := h t.id
      rw [happrovals, publications, if_pos hpublishes] at hboth
      exact absurd hboth (by decide)
    · intro hnot k
      have hpublishes : ¬ db.Publishes (.updateTicket user id body) k := fun hk => by
        obtain ⟨t, ht, -, hne, hb, hw⟩ := (publishes_iff hS).1 hk
        exact hnot ⟨hb, t, ht, hw, hne⟩
      rw [happrovals, publications, if_neg hpublishes]
  | approveDebate user ticketId body =>
    exact approve_agrees_iff hS rfl (fun _ => .rfl) fun _ _ => rfl
  | approveArgument user ticketId body =>
    exact approve_agrees_iff hS rfl (fun _ => .rfl) fun _ _ => rfl

/-- Whatever is announced is announced to the author of the ticket. -/
theorem serve_goesToAuthor (hS : db.Stored) (r : Request) :
    ∀ job ∈ (serve db r).2, db.GoesToAuthor job := by
  have happrove : ∀ (event : Int → DomainEvent) (notificationEvent : NotificationEvents)
      (user : UserCookieData) (ticketId : Int),
      (∀ title author, (NotificationJobPayload.ticketParticipant title (event author)
        notificationEvent (.int author)).approval? = some (ticketId, .int author)) →
      ∀ job ∈ (ModeratorController.approve event notificationEvent user ticketId db).jobs,
        db.GoesToAuthor job := by
    intro event notificationEvent user ticketId hevent job hjob
    by_cases hex : ∃ t ∈ db.tickets.rows, (approveTicketWhere ticketId user.id t).holds = true
    · obtain ⟨t, ht, hw⟩ := hex
      rw [approve_jobs event notificationEvent hS ht hw, List.mem_singleton] at hjob
      subst hjob
      intro k recipientId h
      rw [hevent] at h
      cases h
      exact ⟨t, ht, (approveTicketWhere_holds.1 hw).1, rfl⟩
    · rw [approve_no_jobs event notificationEvent fun t ht hw => hex ⟨t, ht, hw⟩] at hjob
      exact nomatch hjob
  cases r with
  | call c hc =>
    intro job hjob k recipientId h
    rw [enqueued_approval db c job hjob] at h
    exact nomatch h
  | updateTicket user id body =>
    intro job hjob
    simp [serve, ModeratorController.updateTicket, updateTicket_jobs] at hjob
  | approveDebate user ticketId body => exact happrove _ _ user ticketId fun _ _ => rfl
  | approveArgument user ticketId body => exact happrove _ _ user ticketId fun _ _ => rfl

/-! ## Counting over runs -/

/-- **One notification for each publication.** At every moment of a run the approvals announced for
    each ticket, all of them to its author, are as many as the steps that turned it ACCEPTED,
    exactly if no step of the run misreports: no `updateTicket` turns a ticket ACCEPTED, and no
    ticket is approved that is ACCEPTED already. -/
theorem one_notification_per_publication_iff (lower : String → String) (rs : List Request) :
    ((∀ p ∈ steps requestStep (Database.empty lower) rs, ∀ job ∈ (serve p.1 p.2).2,
        p.1.GoesToAuthor job) ∧
      ∀ pre, pre <+: rs → ∀ k,
        total requestStep (approvals k) (Database.empty lower) pre =
          total requestStep (publications k) (Database.empty lower) pre) ↔
    ∀ p ∈ steps requestStep (Database.empty lower) rs, ¬ p.1.Misreports p.2 := by
  have hstored := steps_invariant stored_requestStep (.empty lower) rs
  have hauthor : ∀ p ∈ steps requestStep (Database.empty lower) rs, ∀ job ∈ (serve p.1 p.2).2,
      p.1.GoesToAuthor job := fun p hp => serve_goesToAuthor (hstored p hp) p.2
  rw [and_iff_right hauthor, total_eq_iff]
  exact steps_congr (P := fun db r => ∀ k, approvals k db r = publications k db r)
    stored_requestStep (fun _ r hS => approvals_eq_publications_iff hS r) (.empty lower) rs

theorem seedUser_byModerator (u : UserCookieData) :
    (Call.seedUser 0 ⟨u.username ++ "@example.com", u.username, "password"⟩
      u.role).byModerator = false := rfl

theorem proposeDebate_byModerator : proposeDebate.byModerator = false := rfl

/-- A user proposes a debate; a moderator takes its ticket and moves it to ACCEPTED. -/
def acceptedByUpdate : List Request :=
  let account := fun (u : UserCookieData) => ⟨u.username ++ "@example.com", u.username, "password"⟩
  [.call (.seedUser 0 (account testUser) testUser.role) (seedUser_byModerator testUser),
    .call (.seedUser 0 (account moderatorOne) moderatorOne.role)
      (seedUser_byModerator moderatorOne),
    .call proposeDebate proposeDebate_byModerator,
    .updateTicket moderatorOne 1 ⟨"IN REVIEW"⟩, .updateTicket moderatorOne 1 ⟨"ACCEPTED"⟩]

theorem updateTicket_publishes_silently :
    ¬ ∀ (lower : String → String) (rs : List Request) (k : Int),
      total requestStep (approvals k) (Database.empty lower) rs =
        total requestStep (publications k) (Database.empty lower) rs := by
  intro h
  exact absurd (h id acceptedByUpdate 1) (by decide +kernel)

end DecentDebates

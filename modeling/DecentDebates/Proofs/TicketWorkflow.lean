import DecentDebates.TicketWorkflow
import DecentDebates.Proofs.Linkage

set_option autoImplicit false

/-! # The review workflow of a ticket: proofs

A held ticket is frozen for everyone but its holder, whatever the order of the requests. What the
two endpoints do beyond the workflow of the moderator's page is characterised exactly: which calls
accept a ticket outside review, and which call breaks the correspondence between PENDING and
being unassigned. -/

namespace DecentDebates

open Relational Transition

variable {db db' : Database} {c : Call} {k m : Int}

/-! ## The statements as steps -/

theorem updateTicketSql_of (db : Database) {d : UpdateTicketData} {b : BoardList}
    (hb : b.label = d.boardList) (hid : IsInt4 d.ticketId) :
    updateTicketSql d db = .ok (db.tickets.rows.countP fun t =>
      (updateTicketWhere d.ticketId d.userId t).holds, db.moved d b) :=
  updateTicketSql_eq_ok.2 ⟨b, hb, hid, rfl, rfl⟩

theorem approveTicketSql_of (db : Database) (user : UserCookieData) {ticketId : Int}
    (hid : IsInt4 ticketId) :
    approveTicketSql user ticketId db = .ok ((db.tickets.rows.filter fun t =>
      (approveTicketWhere ticketId user.id t).holds).map TicketRow.createdBy,
      db.approved user.id ticketId) :=
  approveTicketSql_eq_ok.2 ⟨hid, rfl, rfl⟩

theorem step_updateTicket {d : UpdateTicketData} {b : BoardList} (hb : b.label = d.boardList)
    (hid : IsInt4 d.ticketId) : step db (.updateTicket d) = db.moved d b := by
  simp only [step, updateTicket, Sql.commit_of_ok (updateTicketSql_of db hb hid)]
  split <;> rfl

theorem step_approveTicket {user : UserCookieData} {ticketId : Int} (hid : IsInt4 ticketId) :
    step db (.approveTicket user ticketId) = db.approved user.id ticketId := by
  simp only [step, approveTicket, Sql.commit_of_ok (approveTicketSql_of db user hid),
    Outcome.db_resolve]

theorem updateTicket_rejects {d : UpdateTicketData} {b : BoardList} (hb : b.label = d.boardList)
    (hid : IsInt4 d.ticketId)
    (hnone : ∀ t ∈ db.tickets.rows, ¬ (updateTicketWhere d.ticketId d.userId t).holds = true) :
    (updateTicket d db).result = .error (.entityNotFound "ticket") := by
  have hzero : (db.tickets.rows.countP fun t =>
      (updateTicketWhere d.ticketId d.userId t).holds) = 0 := by
    rw [List.countP_eq_zero]
    exact hnone
  simp only [updateTicket, Sql.commit_of_ok (updateTicketSql_of db hb hid), hzero, if_pos,
    Outcome.result_reject]

theorem approveTicket_nothing {user : UserCookieData} {ticketId : Int} (hid : IsInt4 ticketId)
    (hnone : ∀ t ∈ db.tickets.rows, ¬ (approveTicketWhere ticketId user.id t).holds = true) :
    (approveTicket user ticketId db).result = .ok [] := by
  simp only [approveTicket, Sql.commit_of_ok (approveTicketSql_of db user hid),
    Outcome.result_resolve]
  rw [List.filter_eq_nil_iff.2 hnone, List.map_nil]

/-! ## Holding a ticket -/

theorem Database.HeldBy.not_pending (h : db.HeldBy k m) : ¬ db.OnBoard k .pending := by
  obtain ⟨t, ht, rfl, -, -, hp⟩ := h
  rwa [Database.onBoard_iff ht]

/-- The guard of `updateTicket` lets only the assignee at a ticket that is off PENDING. -/
theorem updateTicketWhere_off_pending {ticketId userId : Int} {t : TicketRow}
    (hp : t.boardList ≠ some .pending) (h : (updateTicketWhere ticketId userId t).holds = true) :
    t.id = ticketId ∧ t.assignedTo = some userId := by
  obtain ⟨hid, hpend | ⟨-, hassigned⟩⟩ := updateTicketWhere_holds.1 h
  · exact absurd hpend hp
  · exact ⟨hid, hassigned⟩

/-- The assignee that `updateTicket` writes on a ticket off PENDING. -/
theorem moveTo_assignedTo_off_pending {b : BoardList} {request : String} {userId : Int}
    {t : TicketRow} (hp : t.boardList ≠ some .pending) :
    (t.moveTo b request userId).assignedTo =
      if request = "PENDING" then none else t.assignedTo := by
  simp [TicketRow.moveTo, hp]

theorem moveTo_assignedTo_pending {b : BoardList} {request : String} {userId : Int} {t : TicketRow}
    (hp : t.boardList = some .pending) : (t.moveTo b request userId).assignedTo = some userId := by
  simp [TicketRow.moveTo, hp]

/-- A held ticket stays with its holder, or the holder gives it back. -/
theorem Database.HeldBy.step_or (h : db.HeldBy k m) :
    (step db c).HeldBy k m ∨ c.GivesBack m k ∧ (step db c).OnBoard k .pending := by
  obtain ⟨t, ht, rfl, hm, hn, hp⟩ := h
  obtain ⟨t', ht', htc⟩ := (step_effect db c).ticket_next ht
  have hid := htc.id
  cases htc with
  | same => exact Or.inl ⟨_, ht', rfl, hm, hn, hp⟩
  | @moved d b _ hb hw =>
    obtain ⟨hdid, hassigned⟩ := updateTicketWhere_off_pending hp hw
    -- off PENDING only the holder is let in, and only a request for PENDING drops the assignee
    have hme : d.userId = m := Option.some.inj (hassigned.symm.trans hm)
    by_cases hr : d.boardList = "PENDING"
    · have hbp : b = .pending := label_eq_pending.1 (hb.trans hr)
      exact Or.inr ⟨⟨d, rfl, hme, hdid.symm, hr⟩, _, ht', hid, congrArg some hbp⟩
    · refine Or.inl ⟨_, ht', hid, ?_, nofun, ?_⟩
      · rw [moveTo_assignedTo_off_pending hp, if_neg hr, hm]
      · intro hb'
        exact hr (hb.symm.trans (label_eq_pending.2 (Option.some.inj hb')))
  | approved hw => exact Or.inl ⟨_, ht', hid, hm, nofun, nofun⟩

theorem Database.HeldBy.step (h : db.HeldBy k m) (hc : ¬ c.GivesBack m k) :
    (step db c).HeldBy k m := by
  rcases h.step_or with h' | ⟨hback, -⟩
  · exact h'
  · exact absurd hback hc

theorem Database.HeldBy.step_of_not_returns (h : db.HeldBy k m) (hc : ¬ db.Returns c k) :
    (DecentDebates.step db c).HeldBy k m := by
  rcases h.step_or with h' | ⟨-, hpend⟩
  · exact h'
  · exact absurd ⟨h.not_pending, hpend⟩ hc

theorem Database.HeldBy.run (h : db.HeldBy k m) {calls : List Call}
    (hc : ∀ c ∈ calls, ¬ c.GivesBack m k) : (run DecentDebates.step db calls).HeldBy k m := by
  induction calls generalizing db with
  | nil => exact h
  | cons c calls ih =>
    rw [List.forall_mem_cons] at hc
    exact ih (h.step hc.1) hc.2

/-- Nobody else changes a held ticket. -/
theorem held_ticket_frozen {t : TicketRow} (ht : t ∈ db.tickets.rows) (hm : t.assignedTo = some m)
    (hp : t.boardList ≠ some .pending) (hc : c.actor ≠ some m) : t ∈ (step db c).tickets.rows := by
  obtain ⟨t', ht', htc⟩ := (step_effect db c).ticket_next ht
  cases htc with
  | same => exact ht'
  | moved hb hw =>
    obtain ⟨-, hassigned⟩ := updateTicketWhere_off_pending hp hw
    exact absurd (hassigned.symm.trans hm) hc
  | approved hw => exact absurd ((approveTicketWhere_holds.1 hw).2.symm.trans hm) hc

/-- Nobody else's request for a held ticket is granted. -/
theorem Database.HeldBy.rejects (h : db.HeldBy k m) (hS : db.Stored) {d : UpdateTicketData}
    {b : BoardList} (hb : b.label = d.boardList) (hid : d.ticketId = k) (hd : d.userId ≠ m) :
    (updateTicket d db).result = .error (.entityNotFound "ticket") := by
  obtain ⟨t, ht, rfl, hm, -, hp⟩ := h
  refine updateTicket_rejects hb (hid ▸ hS.ticket_id t ht) fun t' ht' hw => ?_
  have hsame := hid.symm.trans (updateTicketWhere_holds.1 hw).1.symm
  obtain rfl := SerialTable.eq_of_rowId_eq ht ht' hsame
  obtain ⟨-, hassigned⟩ := updateTicketWhere_off_pending hp hw
  exact hd (Option.some.inj (hassigned.symm.trans hm))

theorem Database.HeldBy.approves_nothing (h : db.HeldBy k m) (hS : db.Stored)
    {user : UserCookieData} (hu : user.id ≠ m) : (approveTicket user k db).result = .ok [] := by
  obtain ⟨t, ht, rfl, hm, -, -⟩ := h
  refine approveTicket_nothing (hS.ticket_id t ht) fun t' ht' hw => ?_
  obtain ⟨hid, hassigned⟩ := approveTicketWhere_holds.1 hw
  obtain rfl := SerialTable.eq_of_rowId_eq ht ht' hid.symm
  exact hu (Option.some.inj (hassigned.symm.trans hm))

/-! ## Taking a ticket -/

/-- Whoever moves a ticket out of PENDING holds it. -/
theorem Database.TakesOut.held (h : db.TakesOut c k m) : (step db c).HeldBy k m := by
  obtain ⟨hactor, ⟨t, ht, rfl, hp⟩, hout⟩ := h
  obtain ⟨t', ht', htc⟩ := (step_effect db c).ticket_next ht
  have hp' : t'.boardList ≠ some .pending := by
    intro hp'
    exact hout ⟨t', ht', htc.id, hp'⟩
  refine ⟨t', ht', htc.id, ?_, ?_, hp'⟩
  · cases htc with
    | same => exact absurd hp hp'
    | moved => rw [moveTo_assignedTo_pending hp, ← hactor, Call.actor]
    | approved hw => exact (approveTicketWhere_holds.1 hw).2.trans hactor
  · cases htc with
    | same => exact absurd hp hp'
    | moved => exact nofun
    | approved => exact nofun

/-- A ticket leaves PENDING only through a call that somebody makes. -/
theorem exists_takesOut (hp : db.OnBoard k .pending) (hout : ¬ (step db c).OnBoard k .pending) :
    ∃ m, db.TakesOut c k m := by
  obtain ⟨t, ht, hid, hpend⟩ := hp
  obtain ⟨t', ht', htc⟩ := (step_effect db c).ticket_next ht
  cases htc with
  | same => exact absurd ⟨t, ht', hid, hpend⟩ hout
  | @moved d => exact ⟨d.userId, rfl, ⟨t, ht, hid, hpend⟩, hout⟩
  | @approved user => exact ⟨user.id, rfl, ⟨t, ht, hid, hpend⟩, hout⟩

/-- A request to take a PENDING ticket is granted. -/
theorem UpdateTicketData.Takes.takesOut {d : UpdateTicketData} (h : d.Takes k) (hS : db.Stored)
    (hp : db.OnBoard k .pending) : db.TakesOut (.updateTicket d) k d.userId := by
  obtain ⟨rfl, b, hb, hne⟩ := h
  obtain ⟨t, ht, hid, hpend⟩ := hp
  refine ⟨rfl, ⟨t, ht, hid, hpend⟩, ?_⟩
  rw [step_updateTicket hb (hid ▸ hS.ticket_id t ht)]
  have hw : (updateTicketWhere d.ticketId d.userId t).holds = true :=
    updateTicketWhere_holds.2 ⟨hid, Or.inl hpend⟩
  have hmem : t.moveTo b d.boardList d.userId ∈ (db.moved d b).tickets.rows :=
    SerialTable.updateWhere_mem ht hw
  rw [← hid, show t.id = (t.moveTo b d.boardList d.userId).id from rfl, Database.onBoard_iff hmem]
  intro hb'
  exact hne (Option.some.inj hb')

/-- In a run from a PENDING ticket that nobody moves back, the ticket stays on PENDING or exactly
    one moderator takes it, and every other request for it is rejected from then on. -/
theorem taken_at_most_once (hS : db.Stored) {calls : List Call} (hp : db.OnBoard k .pending)
    (hc : ∀ p ∈ steps step db calls, ¬ p.1.Returns p.2 k) :
    (∀ p ∈ steps step db calls, p.1.OnBoard k .pending ∧ (step p.1 p.2).OnBoard k .pending) ∨
    ∃ m, (∃ p ∈ steps step db calls, p.1.TakesOut p.2 k m) ∧
      (∀ p ∈ steps step db calls, ∀ m', p.1.TakesOut p.2 k m' → m' = m) ∧
      ∀ p ∈ steps step db calls, ∀ d, p.2 = .updateTicket d → d.Takes k → d.userId ≠ m →
        (updateTicket d p.1).result = .error (.entityNotFound "ticket") := by
  induction calls generalizing db with
  | nil => exact Or.inl (by simp [steps])
  | cons c calls ih =>
    simp only [steps, List.forall_mem_cons] at hc
    have hS' := stored_step db c hS
    by_cases hp' : (step db c).OnBoard k .pending
    · -- `c` leaves the ticket on PENDING, so it is no request to take it
      rcases ih hS' hp' hc.2 with hstay | ⟨m, ⟨p, hpm, hm⟩, hunique, hreject⟩
      · left
        simp only [steps, List.forall_mem_cons]
        exact ⟨⟨hp, hp'⟩, hstay⟩
      · refine Or.inr ⟨m, ⟨p, List.mem_cons_of_mem _ hpm, hm⟩, ?_, ?_⟩
        · intro p hpm m' hm'
          rcases List.mem_cons.1 hpm with rfl | hpm
          · exact absurd hp' hm'.2.2
          · exact hunique p hpm m' hm'
        · intro p hpm d hd htakes hne
          rcases List.mem_cons.1 hpm with rfl | hpm
          · obtain rfl : c = .updateTicket d := hd
            exact absurd hp' (htakes.takesOut hS hp).2.2
          · exact hreject p hpm d hd htakes hne
    · -- `c` takes the ticket, and its caller holds it from here on
      obtain ⟨m, hm⟩ := exists_takesOut hp hp'
      have hkeep : ∀ (s : Database) (c : Call), s.HeldBy k m → ¬ s.Returns c k →
          (step s c).HeldBy k m := fun s c h => h.step_of_not_returns
      have hheld : ∀ p ∈ steps step (step db c) calls, p.1.HeldBy k m :=
        steps_invariant_of_steps hkeep hm.held hc.2
      have hstored := steps_invariant stored_step hS' calls
      refine Or.inr ⟨m, ⟨(db, c), List.mem_cons_self .., hm⟩, ?_, ?_⟩
      · intro p hpm m' hm'
        rcases List.mem_cons.1 hpm with rfl | hpm
        · exact Option.some.inj (hm'.1.symm.trans hm.1)
        · exact absurd hm'.2.1 (hheld p hpm).not_pending
      · intro p hpm d hd htakes hne
        rcases List.mem_cons.1 hpm with rfl | hpm
        · obtain rfl : c = .updateTicket d := hd
          exact absurd (Option.some.inj hm.1) hne
        · obtain ⟨hid, b, hb, -⟩ := htakes
          exact (hheld p hpm).rejects (hstored p hpm) hb hid hne

/-- **Exclusive review.** From the moment moderator `d.userId` moves a PENDING ticket to another
    list until the same moderator moves it back, the ticket is assigned to them, no other user's
    call changes it, and every other request for it is rejected or approves nothing. Of any
    moderators that race for a PENDING ticket, in a run in which nobody moves it back, exactly one
    takes it. -/
theorem exclusive_review (h : db.Reachable) {t : TicketRow} (ht : t ∈ db.tickets.rows)
    (hp : t.boardList = some .pending) :
    (∀ (d : UpdateTicketData) (calls : List Call), d.Takes t.id →
      (∀ c ∈ calls, ¬ c.GivesBack d.userId t.id) →
      let now := run step (step db (.updateTicket d)) calls
      ∃ t' ∈ now.tickets.rows, t'.id = t.id ∧ t'.assignedTo = some d.userId ∧
        (∀ c : Call, c.actor ≠ some d.userId → t' ∈ (step now c).tickets.rows) ∧
        (∀ (e : UpdateTicketData) (b : BoardList), e.userId ≠ d.userId → e.ticketId = t.id →
          b.label = e.boardList → (updateTicket e now).result = .error (.entityNotFound "ticket")) ∧
        ∀ user : UserCookieData, user.id ≠ d.userId →
          (approveTicket user t.id now).result = .ok []) ∧
    ∀ calls : List Call, (∃ d, .updateTicket d ∈ calls ∧ d.Takes t.id) →
      (∀ p ∈ steps step db calls, ¬ p.1.Returns p.2 t.id) →
      ∃ m, (∃ p ∈ steps step db calls, p.1.TakesOut p.2 t.id m) ∧
        (∀ p ∈ steps step db calls, ∀ m', p.1.TakesOut p.2 t.id m' → m' = m) ∧
        ∀ p ∈ steps step db calls, ∀ e, p.2 = .updateTicket e → e.Takes t.id → e.userId ≠ m →
          (updateTicket e p.1).result = .error (.entityNotFound "ticket") := by
  have hS := h.stored
  have hpend : db.OnBoard t.id .pending := ⟨t, ht, rfl, hp⟩
  constructor
  · intro d calls htakes hc
    have hheld := (htakes.takesOut hS hpend).held.run hc
    have hS' := ((h.next (.updateTicket d)).run calls).stored
    have hheld' := hheld
    obtain ⟨t', ht', hid, hm, -, hp'⟩ := hheld'
    refine ⟨t', ht', hid, hm, fun c hc => held_ticket_frozen ht' hm hp' hc, ?_, ?_⟩
    · intro e b hne hid hb
      exact hheld.rejects hS' hb hid hne
    · intro user hne
      exact hheld.approves_nothing hS' hne
  · intro calls hrace hc
    rcases taken_at_most_once hS hpend hc with hstay | htaken
    · obtain ⟨d, hd, htakes⟩ := hrace
      obtain ⟨p, hpm, hpd⟩ := exists_mem_steps hd
      have hout := htakes.takesOut (steps_invariant stored_step hS calls p hpm) (hstay p hpm).1
      rw [← hpd] at hout
      exact absurd (hstay p hpm).2 hout.2.2
    · exact htaken

/-- The ticket of the proposed debate, before a moderator has taken it. -/
theorem mem_tickets_proposeDebate (lower : String → String) : ⟨1, 1, none, some .pending⟩ ∈
    (run step (Database.empty lower) (createUsers ++ [proposeDebate])).tickets.rows := by
  rw [run_createUsers_append]
  exact List.mem_singleton_self _

/-- Moderator two neither moves nor approves the ticket moderator one has taken, and of two
    requests for the same PENDING ticket one is granted. -/
theorem exclusive_review_sample :
    let db := run step (Database.empty String.toLower) (createUsers ++ [proposeDebate])
    (approveTicket moderatorTwo 1 (run step (step db (.updateTicket ⟨2, 1, "IN REVIEW"⟩))
      [.updateTicket ⟨3, 1, "CANCELED"⟩])).result = .ok [] ∧
    ∃ m, ∃ p ∈ steps step db [.updateTicket ⟨3, 1, "IN REVIEW"⟩, .updateTicket ⟨2, 1, "CANCELED"⟩],
      p.1.TakesOut p.2 1 m := by
  intro db
  have hr : db.Reachable := Database.reachable_run _ _
  obtain ⟨hheld, hrace⟩ := @exclusive_review db hr _ (mem_tickets_proposeDebate _) rfl
  have htakes : UpdateTicketData.Takes ⟨2, 1, "IN REVIEW"⟩ 1 := ⟨rfl, .inReview, rfl, nofun⟩
  have htakes' : UpdateTicketData.Takes ⟨3, 1, "IN REVIEW"⟩ 1 := ⟨rfl, .inReview, rfl, nofun⟩
  constructor
  · have hback : ∀ c ∈ [Call.updateTicket ⟨3, 1, "CANCELED"⟩], ¬ c.GivesBack 2 1 := by
      rintro c hc ⟨d, rfl, hd, -⟩
      simp only [List.mem_singleton, Call.updateTicket.injEq] at hc
      exact absurd hd (by simp [hc])
    obtain ⟨t', -, -, -, -, -, happrove⟩ := hheld _ _ htakes hback
    exact happrove moderatorTwo (by decide)
  · obtain ⟨m, htaken, -⟩ :=
      hrace [.updateTicket ⟨3, 1, "IN REVIEW"⟩, .updateTicket ⟨2, 1, "CANCELED"⟩]
        ⟨⟨3, 1, "IN REVIEW"⟩, List.mem_cons_self .., htakes'⟩
        (by simp only [db, run_createUsers_append]; decide +kernel)
    exact ⟨m, htaken⟩

/-! ## Accepting a ticket -/

/-- A call outside review accepts a ticket that was PENDING or CANCELED. -/
theorem Database.AcceptsOutsideReview.accepts (h : db.AcceptsOutsideReview c) (hS : db.Stored) :
    ∃ t ∈ db.tickets.rows, (t.boardList = some .pending ∨ t.boardList = some .canceled) ∧
      (step db c).OnBoard t.id .accepted := by
  obtain ⟨t, ht, ⟨d, rfl, hid, hd, hguard⟩ | ⟨user, rfl, hassigned, hlist⟩⟩ := h
  · have hw : (updateTicketWhere d.ticketId d.userId t).holds = true := by
      rw [updateTicketWhere_holds]
      rcases hguard with hp | ⟨hcan, hassigned⟩
      · exact ⟨hid.symm, Or.inl hp⟩
      · exact ⟨hid.symm, Or.inr ⟨by simp [hcan], hassigned⟩⟩
    have hb : BoardList.accepted.label = d.boardList := hd.symm
    refine ⟨t, ht, hguard.imp id And.left, ?_⟩
    rw [step_updateTicket hb (hid ▸ hS.ticket_id t ht)]
    exact ⟨_, SerialTable.updateWhere_mem ht hw, rfl, rfl⟩
  · have hw : (approveTicketWhere t.id user.id t).holds = true :=
      approveTicketWhere_holds.2 ⟨rfl, hassigned⟩
    refine ⟨t, ht, hlist, ?_⟩
    rw [step_approveTicket (hS.ticket_id t ht)]
    exact ⟨_, SerialTable.updateWhere_mem ht hw, rfl, rfl⟩

theorem acceptsReviewed_iff (hS : db.Stored) (c : Call) :
    db.AcceptsReviewed c ↔ ¬ db.AcceptsOutsideReview c := by
  constructor
  · intro h hout
    obtain ⟨t, ht, hlist, hon⟩ := hout.accepts hS
    have hacc : t.boardList ≠ some .accepted := by
      rcases hlist with hp | hcan
      · simp [hp]
      · simp [hcan]
    obtain ⟨hrev, -⟩ := h t ht hacc hon
    rcases hlist with hp | hcan
    · exact nomatch hp.symm.trans hrev
    · exact nomatch hcan.symm.trans hrev
  · intro h t ht hacc hon
    obtain ⟨t', ht', htc⟩ := (step_effect db c).ticket_next ht
    rw [← htc.id, Database.onBoard_iff ht'] at hon
    have hnull := hS.ticket_board t ht
    -- both endpoints name the caller; neither looks at the list the ticket comes from
    cases htc with
    | same => exact absurd hon hacc
    | @moved d b _ hb hw =>
      obtain ⟨hid, hguard⟩ := updateTicketWhere_holds.1 hw
      have hb' : d.boardList = "ACCEPTED" := by
        rw [← hb]
        exact label_eq_accepted.2 (Option.some.inj hon)
      rcases hguard with hp | ⟨hoff, hassigned⟩
      · exact absurd ⟨t, ht, Or.inl ⟨d, rfl, hid.symm, hb', Or.inl hp⟩⟩ h
      · refine ⟨?_, d.userId, rfl, hassigned⟩
        rcases hlist : t.boardList with _ | (_ | _ | _ | _)
        · exact absurd hlist hnull
        · exact absurd hlist hoff.2
        · rfl
        · exact absurd ⟨t, ht, Or.inl ⟨d, rfl, hid.symm, hb', Or.inr ⟨hlist, hassigned⟩⟩⟩ h
        · exact absurd hlist hacc
    | @approved user ticketId _ hw =>
      obtain ⟨rfl, hassigned⟩ := approveTicketWhere_holds.1 hw
      refine ⟨?_, user.id, rfl, hassigned⟩
      rcases hlist : t.boardList with _ | (_ | _ | _ | _)
      · exact absurd hlist hnull
      · exact absurd ⟨t, ht, Or.inr ⟨user, rfl, hassigned, Or.inl hlist⟩⟩ h
      · rfl
      · exact absurd ⟨t, ht, Or.inr ⟨user, rfl, hassigned, Or.inr hlist⟩⟩ h
      · exact absurd hlist hacc

/-- **Accepting outside review.** In a run, every ticket that turns ACCEPTED was IN REVIEW with the
    caller exactly when no call accepts a ticket outside review. -/
theorem publication_after_review_iff (lower : String → String) (calls : List Call) :
    (∀ p ∈ steps step (Database.empty lower) calls, p.1.AcceptsReviewed p.2) ↔
      ∀ p ∈ steps step (Database.empty lower) calls, ¬ p.1.AcceptsOutsideReview p.2 :=
  steps_congr stored_step (fun _ c hS => acceptsReviewed_iff hS c) (.empty lower) calls

/-- `PATCH /moderator/activity/ticket/1` with `ACCEPTED` publishes a debate nobody has reviewed. -/
theorem updateTicket_accepts_pending :
    ¬ ∀ p ∈ steps step (Database.empty String.toLower)
        (createUsers ++ [proposeDebate, .updateTicket ⟨2, 1, "ACCEPTED"⟩]),
      p.1.AcceptsReviewed p.2 := by
  intro h
  have hlast := h (run step (Database.empty String.toLower) (createUsers ++ [proposeDebate]),
    .updateTicket ⟨2, 1, "ACCEPTED"⟩)
    (mem_steps_iff.2 ⟨createUsers ++ [proposeDebate], [], by simp, rfl⟩)
  obtain ⟨hrev, -⟩ := hlast _ (mem_tickets_proposeDebate _) (by decide)
    (by rw [run_createUsers_append]; decide +kernel)
  exact nomatch hrev

/-! ## The assignment invariant -/

theorem assigned_step_iff (hS : db.Stored) (hI : db.Assigned) (c : Call) :
    (step db c).Assigned ↔ ¬ db.RequestsPendingAgain c := by
  constructor
  · rintro h ⟨d, rfl, hd, t, ht, hid, hp⟩
    have hw : (updateTicketWhere d.ticketId d.userId t).holds = true :=
      updateTicketWhere_holds.2 ⟨hid, Or.inl hp⟩
    have hb : BoardList.pending.label = d.boardList := hd.symm
    rw [step_updateTicket hb (hid ▸ hS.ticket_id t ht)] at h
    -- the guard lets anyone at a PENDING ticket, and the CASE assigns it before it is looked at
    have hnone := (h _ (SerialTable.updateWhere_mem ht hw)).2 rfl
    rw [moveTo_assignedTo_pending hp] at hnone
    exact nomatch hnone
  · intro h t' ht'
    rcases (step_effect db c).ticket_prev ht' with ⟨t, ht, htc⟩ | hnew
    · have hiff := hI t ht
      cases htc with
      | same => exact hiff
      | @moved d b _ hb hw =>
        have hpending : (t.moveTo b d.boardList d.userId).boardList = some .pending ↔
            d.boardList = "PENDING" := by
          rw [← hb, label_eq_pending]
          exact Option.some_inj
        rw [hpending]
        by_cases hp : t.boardList = some .pending
        · -- taking the ticket: the request is for another list
          have hr : d.boardList ≠ "PENDING" := by
            intro hr
            exact h ⟨d, rfl, hr, t, ht, (updateTicketWhere_holds.1 hw).1, hp⟩
          simp [moveTo_assignedTo_pending hp, hr]
        · have hm := (updateTicketWhere_off_pending hp hw).2
          rw [moveTo_assignedTo_off_pending hp]
          by_cases hr : d.boardList = "PENDING"
          · simp [hr]
          · simp [hr, hm]
      | approved hw => simp [(approveTicketWhere_holds.1 hw).2]
    · simp [hnew.assignedTo, hnew.boardList]

/-- **Unassigned means PENDING.** All states of a run keep the correspondence exactly when no step
    requests PENDING for a ticket that is PENDING already. -/
theorem assignment_invariant_iff (lower : String → String) (calls : List Call) :
    (∀ db ∈ states step (Database.empty lower) calls, db.Assigned) ↔
      ∀ p ∈ steps step (Database.empty lower) calls, ¬ p.1.RequestsPendingAgain p.2 := by
  have hI : (Database.empty lower).Assigned := by simp [Database.Assigned, Database.empty]
  exact states_iff_steps stored_step (fun _ c hS hI => assigned_step_iff hS hI c)
    (Database.Stored.empty lower) hI calls

/-- Dropping a PENDING ticket on the PENDING list assigns it. -/
theorem pending_again_assigns :
    ¬ ∀ db ∈ states step (Database.empty String.toLower)
        (createUsers ++ [proposeDebate, .updateTicket ⟨2, 1, "PENDING"⟩]), db.Assigned := by
  intro h
  have hlast := h _ (run_mem_states _ _)
  rw [run_createUsers_append] at hlast
  exact absurd hlast (by decide +kernel)

end DecentDebates

import DecentDebates.Proofs.Rows

set_option autoImplicit false

/-! # Submissions and their tickets: proofs

`Linked` and `Stored` are invariants of every call, and so of every reachable state. That no
ticket is left without a submission is not: `submitDraft` inserts its ticket first and then links
it by an update that may match no draft, and the exact condition on the calls is found here. -/

namespace DecentDebates

open Relational Transition

variable {db db' : Database} {c : Call}

/-! ## Submissions through a call -/

/-- A submission that a call keeps, possibly with changed columns. -/
inductive SubmissionChange (db : Database) (c : Call) : Submission → Submission → Prop
  | debate {x x' : DebateRow} (h : DebateChange db c x x') :
      SubmissionChange db c (.debate x) (.debate x')
  | argument {a a' : ArgumentRow} (h : ArgumentChange db c a a') :
      SubmissionChange db c (.argument a) (.argument a')

theorem SubmissionChange.key {s s' : Submission} (h : SubmissionChange db c s s') :
    s'.key = s.key := by
  cases h with
  | debate h => exact congrArg Sum.inl h.id
  | argument h => exact congrArg Sum.inr h.id

theorem SubmissionChange.createdBy {s s' : Submission} (h : SubmissionChange db c s s') :
    s'.createdBy = s.createdBy := by
  cases h with
  | debate h => exact h.createdBy
  | argument h => exact h.createdBy

/-- A call keeps a submission's ticket or links it to the next one. -/
theorem SubmissionChange.ticketId {s s' : Submission} (h : SubmissionChange db c s s') :
    s'.ticketId = s.ticketId ∨ s'.ticketId = some db.tickets.next := by
  cases h with
  | debate h => exact Or.inl (congrArg some h.ticketId)
  | argument h =>
    cases h with
    | submitted => exact Or.inr rfl
    | _ => exact Or.inl rfl

theorem Effect.submission_prev (h : Effect db c db') {s' : Submission}
    (hs' : s' ∈ db'.submissions) :
    (∃ s ∈ db.submissions, SubmissionChange db c s s') ∨
      (s'.ticketId = some db.tickets.next ∨ s'.ticketId = none) := by
  cases s' with
  | debate x' =>
    rw [mem_submissions_debate] at hs'
    rcases h.debate_prev hs' with ⟨x, hx, hc⟩ | hnew
    · exact Or.inl ⟨.debate x, mem_submissions_debate.2 hx, .debate hc⟩
    · exact Or.inr (Or.inl (congrArg some hnew.ticketId))
  | argument a' =>
    rw [mem_submissions_argument] at hs'
    rcases h.argument_prev hs' with ⟨a, ha, hc⟩ | hnew
    · exact Or.inl ⟨.argument a, mem_submissions_argument.2 ha, .argument hc⟩
    · rcases hnew.kind with ⟨-, hk, -⟩ | ⟨-, hk, -⟩
      · exact Or.inr (Or.inl hk)
      · exact Or.inr (Or.inr hk)

theorem Effect.submission_next (h : Effect db c db') {s : Submission} (hs : s ∈ db.submissions) :
    ∃ s' ∈ db'.submissions, SubmissionChange db c s s' := by
  cases s with
  | debate x =>
    obtain ⟨x', hx', hc⟩ := h.debate_next (mem_submissions_debate.1 hs)
    exact ⟨.debate x', mem_submissions_debate.2 hx', .debate hc⟩
  | argument a =>
    obtain ⟨a', ha', hc⟩ := h.argument_next (mem_submissions_argument.1 hs)
    exact ⟨.argument a', mem_submissions_argument.2 ha', .argument hc⟩

/-- No submission refers to a ticket that has not been inserted yet. -/
theorem Database.Linked.ne_next (hL : db.Linked) {s : Submission} (hs : s ∈ db.submissions) :
    s.ticketId ≠ some db.tickets.next := by
  intro hk
  obtain ⟨t, ht, hid, -⟩ := hL.owner s hs _ hk
  exact SerialTable.ne_next ht hid

/-- The row a call links to the ticket it inserts. -/
def Database.linkKey (db : Database) : Call → Option (Int ⊕ Int)
  | .createDebate .. => some (.inl db.debates.next)
  | .createArgument .. => some (.inr db.arguments.next)
  | .submitDraft d => (int4 d.draftId).toOption.map .inr
  | _ => none

/-- A debate that refers to the ticket of a call is new. -/
theorem Effect.linked_debate (h : Effect db c db') (hL : db.Linked) {x' : DebateRow}
    (hx' : x' ∈ db'.debates.rows) (hk : x'.ticketId = db.tickets.next) : NewDebate db c x' := by
  rcases h.debate_prev hx' with ⟨x, hx, hc⟩ | hnew
  · have hold : (Submission.debate x).ticketId = some db.tickets.next :=
      congrArg some (hc.ticketId.symm.trans hk)
    exact absurd hold (hL.ne_next (mem_submissions_debate.2 hx))
  · exact hnew

/-- An argument that refers to the ticket of a call has been submitted by it, or is new. -/
theorem Effect.linked_argument (h : Effect db c db') (hL : db.Linked) {a' : ArgumentRow}
    (ha' : a' ∈ db'.arguments.rows) (hk : a'.ticketId = some db.tickets.next) :
    (∃ d, c = .submitDraft d ∧ int4 d.draftId = .ok a'.id ∧ d.user.id = a'.createdBy) ∨
      (∃ now d, c = .createArgument now d) ∧ NewArgument db c a' := by
  rcases h.argument_prev ha' with ⟨a, ha, hc⟩ | hnew
  · have hold := hL.ne_next (mem_submissions_argument.2 ha)
    cases hc with
    | @submitted d cols draftId debateId _ hd hw =>
      obtain ⟨hid, -, hauthor⟩ := submitDraftWhere_holds.1 hw
      exact Or.inl ⟨d, rfl, hid ▸ hd.draftId, hauthor.symm⟩
    -- no other statement writes the column, and no old row can hold the next ticket's id
    | _ => exact absurd hk hold
  · -- a new argument has a ticket only when it was not saved as a draft
    rcases hnew.kind with ⟨hcall, -, -⟩ | ⟨-, hnone, -⟩
    · exact Or.inr ⟨hcall, hnew⟩
    · exact absurd (hnone.symm.trans hk) (by simp)

/-- A call links at most one submission to the ticket it inserts. -/
theorem Effect.link_key (h : Effect db c db') (hL : db.Linked) {s : Submission}
    (hs : s ∈ db'.submissions) (hk : s.ticketId = some db.tickets.next) :
    db.linkKey c = some s.key := by
  cases s with
  | debate x' =>
    have hnew := h.linked_debate hL (mem_submissions_debate.1 hs) (Option.some.inj hk)
    obtain ⟨now, user, d, rfl⟩ := hnew.call
    simp only [Database.linkKey, Submission.key, hnew.id]
  | argument a' =>
    rcases h.linked_argument hL (mem_submissions_argument.1 hs) hk with
      ⟨d, rfl, hid, -⟩ | ⟨⟨now, d, rfl⟩, hnew⟩
    · simp only [Database.linkKey, hid]
      rfl
    · simp only [Database.linkKey, Submission.key, hnew.id]

/-- Only its author links a submission. -/
theorem Effect.link_actor (h : Effect db c db') (hL : db.Linked) {s : Submission}
    (hs : s ∈ db'.submissions) (hk : s.ticketId = some db.tickets.next) :
    c.actor = some s.createdBy := by
  cases s with
  | debate x' =>
    exact (h.linked_debate hL (mem_submissions_debate.1 hs) (Option.some.inj hk)).createdBy
  | argument a' =>
    rcases h.linked_argument hL (mem_submissions_argument.1 hs) hk with
      ⟨d, rfl, -, hauthor⟩ | ⟨-, hnew⟩
    · exact congrArg some hauthor
    · exact hnew.createdBy

theorem Effect.link_ticket (h : Effect db c db') (hL : db.Linked) {s : Submission}
    (hs : s ∈ db'.submissions) (hk : s.ticketId = some db.tickets.next) :
    ∃ t ∈ db'.tickets.rows, NewTicket db c t := by
  have hkey := h.link_key hL hs hk
  cases h with
  | rejected => exact absurd hk (hL.ne_next hs)
  | elsewhere husers htickets hnext hdebates harguments =>
    have hsub : db'.submissions = db.submissions := by
      rw [Database.submissions, hdebates, harguments, Database.submissions]
    exact absurd hk (hL.ne_next (hsub ▸ hs))
  | @createDebate now user d db' title huser hticket hnext husers htickets =>
    refine ⟨⟨db.tickets.next, user.id, none, some .pending⟩, ?_, rfl, hticket, rfl, huser, rfl, rfl⟩
    rw [htickets, SerialTable.mem_insert]
    exact Or.inr rfl
  | createArgument hc hticket hnext hdebate huser =>
    exact ⟨_, (SerialTable.mem_insert).2 (Or.inr rfl), rfl, hticket, rfl, huser, rfl, rfl⟩
  | submitDraft hd =>
    exact ⟨_, (SerialTable.mem_insert).2 (Or.inr rfl), rfl, hd.sequence, rfl, hd.user, rfl, rfl⟩
  | _ => cases hkey

/-! ## The invariants -/

theorem Database.Linked.empty (lower : String → String) : (Database.empty lower).Linked where
  draft_iff := by simp [Database.empty]
  owner := by simp [Database.empty, Database.submissions]
  unique := by simp [Database.empty, Database.submissions]

/-- A submission that keeps the ticket it had before a call, or gets the ticket the call inserts. -/
theorem Effect.submission_cases (h : Effect db c db') {s' : Submission} (hs' : s' ∈ db'.submissions)
    {k : Int} (hk : s'.ticketId = some k) :
    (∃ s ∈ db.submissions, SubmissionChange db c s s' ∧ s.ticketId = some k) ∨
      k = db.tickets.next := by
  rcases h.submission_prev hs' with ⟨s, hs, hc⟩ | hnew | hnew
  · rcases hc.ticketId with heq | heq
    · exact Or.inl ⟨s, hs, hc, heq.symm.trans hk⟩
    · exact Or.inr (Option.some.inj (hk.symm.trans heq))
  · exact Or.inr (Option.some.inj (hk.symm.trans hnew))
  · exact absurd (hnew.symm.trans hk) (by simp)

theorem Effect.linked (h : Effect db c db') (hL : db.Linked) : db'.Linked where
  draft_iff := by
    intro a' ha'
    rcases h.argument_prev ha' with ⟨a, ha, hc⟩ | hnew
    · have hiff := hL.draft_iff a ha
      cases hc with
      | submitted => simp [ArgumentRow.submit]
      | _ => exact hiff
    · rcases hnew.kind with ⟨-, hk, hd⟩ | ⟨-, hk, hd⟩ <;> simp [hk, hd]
  owner := by
    intro s' hs' k hk
    rcases h.submission_cases hs' hk with ⟨s, hs, hc, hsk⟩ | rfl
    · -- kept: the ticket is an old one, and calls keep ids and authors
      obtain ⟨t, ht, hid, hby⟩ := hL.owner s hs k hsk
      obtain ⟨t', ht', htc⟩ := h.ticket_next ht
      exact ⟨t', ht', htc.id.trans hid, by rw [htc.createdBy, hby, hc.createdBy]⟩
    · -- linked: the ticket is the one inserted by the same author's call
      obtain ⟨t, ht, hnew⟩ := h.link_ticket hL hs' hk
      have hby := h.link_actor hL hs' hk
      exact ⟨t, ht, hnew.id, Option.some.inj (hnew.createdBy.symm.trans hby)⟩
  unique := by
    intro s₁' hs₁' s₂' hs₂' k hk₁ hk₂
    -- two references to an old ticket come from one submission of the state before; two to the
    -- next ticket are both the row that `c` addresses
    refine db'.submission_eq_of_key hs₁' hs₂' ?_
    rcases h.submission_cases hs₁' hk₁ with ⟨s₁, hs₁, hc₁, hsk₁⟩ | rfl
    · rcases h.submission_cases hs₂' hk₂ with ⟨s₂, hs₂, hc₂, hsk₂⟩ | rfl
      · rw [hc₁.key, hc₂.key, hL.unique s₁ hs₁ s₂ hs₂ k hsk₁ hsk₂]
      · exact absurd hsk₁ (hL.ne_next hs₁)
    · have hkey₁ := h.link_key hL hs₁' hk₁
      have hkey₂ := h.link_key hL hs₂' hk₂
      exact Option.some.inj (hkey₁.symm.trans hkey₂)

theorem Database.Stored.empty (lower : String → String) : (Database.empty lower).Stored := by
  constructor <;> simp [Database.empty]

theorem isInt4_next {ρ : Type} [SerialRow ρ] (t : SerialTable ρ) (h : t.next ≤ int4Max) :
    IsInt4 t.next := by
  have := t.pos
  exact ⟨by unfold int4Min; omega, h⟩

/-- An account, a debate that exists before a call exists after it. -/
theorem Effect.exists_user (h : Effect db c db') {id : Int} (hu : ∃ u ∈ db.users.rows, u.id = id) :
    ∃ u ∈ db'.users.rows, u.id = id := by
  obtain ⟨u, hu, hid⟩ := hu
  exact ⟨u, h.user_next hu, hid⟩

theorem Effect.exists_debate (h : Effect db c db') {id : Int}
    (hx : ∃ x ∈ db.debates.rows, x.id = id) : ∃ x ∈ db'.debates.rows, x.id = id := by
  obtain ⟨x, hx, hid⟩ := hx
  obtain ⟨x', hx', hc⟩ := h.debate_next hx
  exact ⟨x', hx', hc.id.trans hid⟩

theorem Effect.stored (h : Effect db c db') (hS : db.Stored) : db'.Stored where
  ticket_id := by
    intro t' ht'
    rcases h.ticket_prev ht' with ⟨t, ht, hc⟩ | hnew
    · rw [hc.id]
      exact hS.ticket_id t ht
    · rw [hnew.id]
      exact isInt4_next _ hnew.bound
  ticket_board := by
    intro t' ht'
    rcases h.ticket_prev ht' with ⟨t, ht, hc⟩ | hnew
    · have hb := hS.ticket_board t ht
      cases hc with
      | same => exact hb
      | moved => exact nofun
      | approved => exact nofun
    · rw [hnew.boardList]
      exact nofun
  debate_id := by
    intro x' hx'
    rcases h.debate_prev hx' with ⟨x, hx, hc⟩ | hnew
    · rw [hc.id]
      exact hS.debate_id x hx
    · rw [hnew.id]
      exact isInt4_next _ hnew.bound
  argument_id := by
    intro a' ha'
    rcases h.argument_prev ha' with ⟨a, ha, hc⟩ | hnew
    · rw [hc.id]
      exact hS.argument_id a ha
    · rw [hnew.id]
      exact isInt4_next _ hnew.bound
  argument_draft := by
    intro a' ha'
    rcases h.argument_prev ha' with ⟨a, ha, hc⟩ | hnew
    · have hd := hS.argument_draft a ha
      cases hc with
      | submitted => exact nofun
      | _ => exact hd
    · rcases hnew.kind with ⟨-, -, hd⟩ | ⟨-, -, hd⟩ <;> simp [hd]
  argument_type := by
    intro a' ha'
    rcases h.argument_prev ha' with ⟨a, ha, hc⟩ | hnew
    · have ht := hS.argument_type a ha
      cases hc with
      | redrafted => exact nofun
      | submitted => exact nofun
      | _ => exact ht
    · exact hnew.type
  argument_debate := by
    intro a' ha'
    rcases h.argument_prev ha' with ⟨a, ha, hc⟩ | hnew
    · rw [hc.debateId]
      exact h.exists_debate (hS.argument_debate a ha)
    · exact h.exists_debate hnew.exists_debate
  argument_counter := by
    intro a' ha' n hn
    rcases h.argument_prev ha' with ⟨a, ha, hc⟩ | hnew
    · have hint4 := hS.argument_counter a ha n
      cases hc with
      | redrafted hcols => exact counterargumentTo_isInt4 hcols n hn
      | submitted hd => exact counterargumentTo_isInt4 hd.columns n hn
      | _ => exact hint4 hn
    · exact hnew.counterargumentTo n hn
  argument_user := by
    intro a' ha'
    rcases h.argument_prev ha' with ⟨a, ha, hc⟩ | hnew
    · rw [hc.createdBy]
      exact h.exists_user (hS.argument_user a ha)
    · exact h.exists_user hnew.exists_user
  ticket_user := by
    intro t' ht'
    rcases h.ticket_prev ht' with ⟨t, ht, hc⟩ | hnew
    · rw [hc.createdBy]
      exact h.exists_user (hS.ticket_user t ht)
    · exact h.exists_user hnew.exists_user

theorem linked_step (db : Database) (c : Call) (h : db.Linked) : (step db c).Linked :=
  (step_effect db c).linked h

theorem stored_step (db : Database) (c : Call) (h : db.Stored) : (step db c).Stored :=
  (step_effect db c).stored h

theorem Database.PositiveIds.empty (lower : String → String) :
    (Database.empty lower).PositiveIds := by
  constructor <;> simp [Database.empty]

theorem positiveIds_step (db : Database) (c : Call) (h : db.PositiveIds) :
    (step db c).PositiveIds where
  tickets := by
    intro t ht
    rcases (step_effect db c).ticket_prev ht with ⟨t₀, ht₀, hc⟩ | hnew
    · rw [hc.id]
      exact h.tickets t₀ ht₀
    · rw [hnew.id]
      exact db.tickets.pos
  debates := by
    intro x hx
    rcases (step_effect db c).debate_prev hx with ⟨x₀, hx₀, hc⟩ | hnew
    · rw [hc.id]
      exact h.debates x₀ hx₀
    · rw [hnew.id]
      exact db.debates.pos
  arguments := by
    intro a ha
    rcases (step_effect db c).argument_prev ha with ⟨a₀, ha₀, hc⟩ | hnew
    · rw [hc.id]
      exact h.arguments a₀ ha₀
    · rw [hnew.id]
      exact db.arguments.pos

theorem Database.Reachable.positiveIds (h : db.Reachable) : db.PositiveIds :=
  h.invariant .empty positiveIds_step

theorem Database.Reachable.linked (h : db.Reachable) : db.Linked :=
  h.invariant .empty linked_step

theorem Database.Reachable.stored (h : db.Reachable) : db.Stored :=
  h.invariant .empty stored_step

/-- **Submission linkage.** In every reachable state the drafts are the arguments without a ticket,
    every debate and every other argument refers to a ticket of its author's, and no two
    submissions refer to one ticket. -/
theorem submission_linkage (h : db.Reachable) :
    (∀ a ∈ db.arguments.rows, a.isDraft = some true ↔ a.ticketId = none) ∧
    (∀ x ∈ db.debates.rows, ∃ t ∈ db.tickets.rows, t.id = x.ticketId ∧ t.createdBy = x.createdBy) ∧
    (∀ a ∈ db.arguments.rows, a.isDraft ≠ some true →
      ∃ t ∈ db.tickets.rows, a.ticketId = some t.id ∧ t.createdBy = a.createdBy) ∧
    (∀ s ∈ db.submissions, ∀ s' ∈ db.submissions, ∀ k,
      s.ticketId = some k → s'.ticketId = some k → s = s') := by
  have hL := h.linked
  refine ⟨hL.draft_iff, fun x hx => ?_, fun a ha hd => ?_, hL.unique⟩
  · exact hL.owner (.debate x) (mem_submissions_debate.2 hx) _ rfl
  · obtain ⟨k, hk⟩ := Option.ne_none_iff_exists'.1 (mt (hL.draft_iff a ha).2 hd)
    obtain ⟨t, ht, hid, hby⟩ := hL.owner (.argument a) (mem_submissions_argument.2 ha) k hk
    exact ⟨t, ht, hid ▸ hk, hby⟩

/-- A proposed debate, a draft and a submitted argument. -/
theorem submission_linkage_sample :
    let db := run step (Database.empty String.toLower) (createUsers ++ [proposeDebate,
      .saveArgumentAsDraft 2 ⟨testUser, .int 1, sampleArgument "draft"⟩,
      .createArgument 3 ⟨testUser, .int 1, sampleArgument "argument"⟩])
    db.submissions.map Submission.ticketId = [some 1, none, some 2] ∧
      ∀ s ∈ db.submissions, ∀ s' ∈ db.submissions, ∀ k,
        s.ticketId = some k → s'.ticketId = some k → s = s' :=
  ⟨by decide, (submission_linkage (Database.reachable_run _ _)).2.2.2⟩

/-! ## Orphan tickets -/

/-- Where every link is unique, a ticket is an orphan only if nothing refers to it. -/
theorem Database.Linked.noOrphans_iff (hL : db.Linked) :
    db.NoOrphans ↔ ∀ t ∈ db.tickets.rows, ∃ s ∈ db.submissions, s.ticketId = some t.id := by
  constructor
  · intro h t ht
    obtain ⟨s, hs, hk, -⟩ := h t ht
    exact ⟨s, hs, hk⟩
  · intro h t ht
    obtain ⟨s, hs, hk⟩ := h t ht
    exact ⟨s, hs, hk, fun s' hs' hk' => hL.unique s' hs' s hs t.id hk' hk⟩

/-- A submission that addresses no draft leaves a ticket without a submission: its own when it
    addresses nothing, the argument's previous one when it re-links a submitted argument. -/
theorem Database.SubmitsNoDraft.orphans (h : db.SubmitsNoDraft c) (hL : db.Linked) :
    ¬ (step db c).NoOrphans := by
  obtain ⟨d, cols, draftId, debateId, rfl, hd, hnone⟩ := h
  have hL' := linked_step db (.submitDraft d) hL
  have heff : Effect db (.submitDraft d) (step db (.submitDraft d)) := step_effect _ _
  rw [step_submitDraft hd] at hL' heff ⊢
  rw [hL'.noOrphans_iff]
  intro hall
  -- the new ticket is referred to, so the update has matched: by an argument that is no draft
  obtain ⟨s', hs', hk'⟩ := hall _ ((SerialTable.mem_insert).2 (Or.inr rfl))
  cases s' with
  | debate x =>
    have hx := mem_submissions_debate.1 hs'
    exact hL.ne_next (mem_submissions_debate.2 hx) hk'
  | argument a' =>
    obtain ⟨a, ha, rfl⟩ := (SerialTable.mem_updateWhere).1 (mem_submissions_argument.1 hs')
    have haS : .argument a ∈ db.submissions := mem_submissions_argument.2 ha
    by_cases hw : (submitDraftWhere draftId debateId d.user.id a).holds = true
    · -- `a` was submitted before, and its ticket `k` loses it
      have hdraft : a.isDraft ≠ some true := fun hdraft => hnone ⟨a, ha, hw, hdraft⟩
      obtain ⟨k, hk⟩ := Option.ne_none_iff_exists'.1 (mt (hL.draft_iff a ha).2 hdraft)
      obtain ⟨t, ht, rfl, -⟩ := hL.owner _ haS k hk
      obtain ⟨s, hs, hsk⟩ := hall t ((SerialTable.mem_insert).2 (Or.inl ht))
      rcases heff.submission_cases hs hsk with ⟨s₀, hs₀, hc, hsk₀⟩ | hnext
      · obtain rfl := hL.unique s₀ hs₀ _ haS t.id hsk₀ hk
        have hsa : s = .argument (a.submit cols db.tickets.next) := by
          refine Database.submission_eq_of_key hs ?_ hc.key
          exact mem_submissions_argument.2 (SerialTable.updateWhere_mem ha hw)
        rw [hsa] at hsk
        exact SerialTable.ne_next ht (Option.some.inj hsk).symm
      · exact SerialTable.ne_next ht hnext
    · rw [if_neg hw] at hk'
      exact hL.ne_next haS hk'

/-- A call that inserts a ticket links a submission to it, unless it submits no draft. -/
theorem Effect.new_ticket_linked (heff : Effect db c db') (h : ¬ db.SubmitsNoDraft c)
    {t' : TicketRow} (ht' : t' ∈ db'.tickets.rows) (hid : t'.id = db.tickets.next) :
    ∃ s ∈ db'.submissions, s.ticketId = some db.tickets.next := by
  cases heff with
  | elsewhere husers htickets => exact absurd hid (SerialTable.ne_next (htickets ▸ ht'))
  | @createDebate now user d db' title huser hticket hnext husers htickets hdebates =>
    refine ⟨.debate ⟨db.debates.next, db.tickets.next, title, now, now, user.id⟩, ?_, rfl⟩
    rw [mem_submissions_debate, hdebates, SerialTable.mem_insert]
    exact Or.inr rfl
  | @createArgument now d debateId cols =>
    refine ⟨.argument (d.row now debateId cols (some db.tickets.next) false db.arguments.next), ?_,
      rfl⟩
    exact mem_submissions_argument.2 ((SerialTable.mem_insert).2 (Or.inr rfl))
  | @submitDraft d cols draftId debateId hd =>
    -- the ticket is inserted whatever the update matches; here it matches a draft
    have hdraft : ∃ a ∈ db.arguments.rows,
        (submitDraftWhere draftId debateId d.user.id a).holds = true ∧ a.isDraft = some true := by
      by_contra hnone
      exact h ⟨d, cols, draftId, debateId, rfl, hd, hnone⟩
    obtain ⟨a, ha, hw, -⟩ := hdraft
    refine ⟨.argument (a.submit cols db.tickets.next), ?_, rfl⟩
    exact mem_submissions_argument.2 (SerialTable.updateWhere_mem ha hw)
  | updateTicket =>
    obtain ⟨t, ht, rfl⟩ := (SerialTable.mem_updateWhere).1 ht'
    refine absurd ?_ (SerialTable.ne_next ht)
    rw [← hid]
    split <;> rfl
  | approveTicket =>
    obtain ⟨t, ht, rfl⟩ := (SerialTable.mem_updateWhere).1 ht'
    refine absurd ?_ (SerialTable.ne_next ht)
    rw [← hid]
    split <;> rfl
  | _ => exact absurd hid (SerialTable.ne_next ht')

theorem noOrphans_step (hL : db.Linked) (hI : db.NoOrphans) (h : ¬ db.SubmitsNoDraft c) :
    (step db c).NoOrphans := by
  have heff := step_effect db c
  have hL' := linked_step db c hL
  rw [hL'.noOrphans_iff]
  intro t' ht'
  rcases heff.ticket_prev ht' with ⟨t, ht, htc⟩ | hnew
  · -- an old ticket keeps its submission, which was no draft
    obtain ⟨s, hs, hk, -⟩ := hI t ht
    obtain ⟨s', hs', hc⟩ := heff.submission_next hs
    refine ⟨s', hs', ?_⟩
    rw [htc.id, ← hk]
    cases hc with
    | debate hx => exact congrArg some hx.ticketId
    | @argument a a' ha =>
      cases ha with
      | submitted hd hw =>
        -- it cannot be re-linked: `c` would address this argument and not a draft
        by_contra
        refine h ⟨_, _, _, _, rfl, hd, ?_⟩
        rintro ⟨b, hb, hwb, hdraft⟩
        have hid : b.id = a.id :=
          (submitDraftWhere_holds.1 hwb).1.trans (submitDraftWhere_holds.1 hw).1.symm
        obtain rfl := SerialTable.eq_of_rowId_eq hb (mem_submissions_argument.1 hs) hid
        exact absurd (((hL.draft_iff b hb).1 hdraft).symm.trans hk) (by simp)
      | _ => rfl
  · rw [hnew.id]
    exact heff.new_ticket_linked h ht' hnew.id

theorem Database.NoOrphans.empty (lower : String → String) : (Database.empty lower).NoOrphans := by
  simp [Database.NoOrphans, Database.empty]

/-- **Orphan tickets.** All states of a run are free of orphan tickets exactly when no step of it
    is a storable submission that addresses no draft. -/
theorem no_orphans_iff (lower : String → String) (calls : List Call) :
    (∀ db ∈ states step (Database.empty lower) calls, db.NoOrphans) ↔
      ∀ p ∈ steps step (Database.empty lower) calls, ¬ p.1.SubmitsNoDraft p.2 := by
  have hstep : ∀ (db : Database) (c : Call), db.Linked → db.NoOrphans →
      ((step db c).NoOrphans ↔ ¬ db.SubmitsNoDraft c) := by
    intro db c hL hI
    constructor
    · intro h hbad
      exact hbad.orphans hL h
    · exact noOrphans_step hL hI
  have hL := Database.Linked.empty lower
  have hI := Database.NoOrphans.empty lower
  exact states_iff_steps linked_step hstep hL hI calls

/-- Submitting one draft twice re-links the argument and leaves ticket 2 without a submission. -/
theorem submitDraft_twice_orphans :
    ¬ (run step (Database.empty String.toLower) (createUsers ++ [proposeDebate,
      .saveArgumentAsDraft 2 ⟨testUser, .int 1, sampleArgument "draft"⟩,
      .submitDraft ⟨testUser, .int 1, .int 1, sampleArgument "draft"⟩,
      .submitDraft ⟨testUser, .int 1, .int 1, sampleArgument "draft"⟩])).NoOrphans := by
  decide +kernel

end DecentDebates

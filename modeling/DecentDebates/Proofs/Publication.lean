import DecentDebates.Publication
import DecentDebates.Proofs.Linkage

set_option autoImplicit false

/-! # What is published: proofs

While a ticket is ACCEPTED, nothing links another argument to it and nothing rewrites the one it
has, so what readers see is what was accepted. The row itself is frozen for every caller but one:
`submitDraft` asks for the author and not for a draft. -/

namespace DecentDebates

open Relational Transition

variable {db db' : Database} {c : Call}

/-! ## Accepted rows under a call -/

/-- Only the moderators' endpoints move tickets. -/
theorem Effect.ticket_of_author (h : Effect db c db') (hc : c.byModerator = false) {t : TicketRow}
    (ht : t ∈ db.tickets.rows) : t ∈ db'.tickets.rows := by
  obtain ⟨t', ht', htc⟩ := h.ticket_next ht
  cases htc with
  | same => exact ht'
  | moved => exact nomatch hc
  | approved => exact nomatch hc

theorem Effect.onBoard_of_author (h : Effect db c db') (hc : c.byModerator = false) {k : Int}
    {b : BoardList} (hk : db.OnBoard k b) : db'.OnBoard k b := by
  obtain ⟨t, ht, hid, hb⟩ := hk
  exact ⟨t, h.ticket_of_author hc ht, hid, hb⟩

theorem ArgumentRow.SameText.refl (a : ArgumentRow) : a.SameText a := ⟨rfl, rfl, rfl, rfl, rfl⟩

/-- A published argument that a call of an author changes is one that its author submits again. -/
theorem published_argument_stays (hL : db.Linked) (hc : c.byModerator = false)
    (h : ¬ db.ResubmitsArgument c) {a : ArgumentRow} (ha : a ∈ db.arguments.rows)
    (hacc : db.ArgumentAccepted a) : a ∈ (step db c).arguments.rows := by
  obtain ⟨k, hk, t, ht, rfl, hb⟩ := hacc
  have hdraft : a.isDraft ≠ some true := by
    intro hd
    exact absurd (((hL.draft_iff a ha).1 hd).symm.trans hk) (by simp)
  obtain ⟨a', ha', hchange⟩ := (step_effect db c).argument_next ha
  cases hchange with
  | same => exact ha'
  | redrafted hcols hw => exact absurd (updateDraftWhere_holds.1 hw).2.2.2 hdraft
  -- the one statement whose WHERE asks neither for a draft nor for the ticket's list
  | submitted hd hw => exact absurd ⟨_, _, _, _, rfl, hd, a, ha, hw, hdraft⟩ h
  | edited title content ht' hw =>
    obtain ⟨-, -, ⟨-, hoff⟩, hticket⟩ := updateArgumentWhere_holds.1 hw
    have hid := Option.some.inj (hticket.symm.trans hk)
    obtain rfl := SerialTable.eq_of_rowId_eq ht' ht hid
    exact absurd hb hoff

theorem published_debate_stays {x : DebateRow} (hx : x ∈ db.debates.rows)
    (hacc : db.DebateAccepted x) : x ∈ (step db c).debates.rows := by
  obtain ⟨t, ht, hid, hb⟩ := hacc
  obtain ⟨x', hx', hchange⟩ := (step_effect db c).debate_next hx
  cases hchange with
  | same => exact hx'
  | retitled title ht' hw =>
    obtain ⟨-, -, hticket, -, hoff⟩ := updateDebateWhere_holds.1 hw
    obtain rfl := SerialTable.eq_of_rowId_eq ht ht' (hid.trans hticket)
    exact absurd hb hoff

/-- A call on drafts leaves every other argument in place, unless its author submits it again. -/
theorem submitted_argument_stays (h : ¬ db.ResubmitsArgument c)
    (hc : ∃ d, c = .updateDraft d ∨ c = .submitDraft d) {a : ArgumentRow}
    (ha : a ∈ db.arguments.rows) (hdraft : a.isDraft ≠ some true) :
    a ∈ (step db c).arguments.rows := by
  obtain ⟨a', ha', hchange⟩ := (step_effect db c).argument_next ha
  cases hchange with
  | same => exact ha'
  | redrafted hcols hw => exact absurd (updateDraftWhere_holds.1 hw).2.2.2 hdraft
  | submitted hd hw => exact absurd ⟨_, _, _, _, rfl, hd, a, ha, hw, hdraft⟩ h
  | edited =>
    obtain ⟨d, hd | hd⟩ := hc
    · exact nomatch hd
    · exact nomatch hd

/-- A published argument of a stored state is listed. -/
theorem Database.Stored.lists (hS : db.Stored) {a : ArgumentRow} (ha : a ∈ db.arguments.rows)
    (hacc : db.ArgumentAccepted a) : db.Lists a := by
  obtain ⟨k, hk, t, ht, rfl, hb⟩ := hacc
  obtain ⟨x, hx, hxid⟩ := hS.argument_debate a ha
  obtain ⟨u, hu, huid⟩ := hS.argument_user a ha
  have hint4 : int4 (.int a.debateId) = .ok a.debateId := int4_int.2 ⟨hxid ▸ hS.debate_id x hx, rfl⟩
  unfold Database.Lists getDebateArguments
  rw [hint4]
  refine ⟨_, rfl, { DebateArgument.ofRow a x u with title := some a.title }, ?_, rfl⟩
  refine List.mem_append_left _ (List.mem_map.2 ⟨(((a, t), x), u), ?_, rfl⟩)
  rw [mem_selectWhere]
  constructor
  · simp [joinedArguments, ha, ht, hx, hu, hk, hxid, huid]
  · simp [debateArgumentsWhere, hb]

theorem freezes_iff (hL : db.Linked) (hS : db.Stored) (c : Call) :
    (c.byModerator = false → db.Freezes c) ↔ ¬ db.ResubmitsArgument c := by
  constructor
  · -- frozen, the re-submitted argument would refer to the ticket that is yet to be inserted
    rintro h ⟨d, cols, draftId, debateId, rfl, hd, a, ha, hw, hdraft⟩
    have hstay := (h rfl).draft ⟨d, Or.inr rfl⟩ a ha hdraft
    rw [step_submitDraft hd] at hstay
    have hnew : a.submit cols db.tickets.next ∈
        (db.submitted d.user.id cols draftId debateId).arguments.rows :=
      SerialTable.updateWhere_mem ha hw
    have heq : a = a.submit cols db.tickets.next := SerialTable.eq_of_rowId_eq hstay hnew rfl
    have hnext : a.ticketId = some db.tickets.next := by
      rw [heq]
      rfl
    exact hL.ne_next (mem_submissions_argument.2 ha) hnext
  · intro h hc
    refine ⟨fun a ha hacc => ?_, fun x hx hacc => published_debate_stays hx hacc,
      fun hcall a ha hdraft => submitted_argument_stays h hcall ha hdraft⟩
    have hstay := published_argument_stays hL hc h ha hacc
    refine ⟨hstay, (stored_step db c hS).lists hstay ?_⟩
    obtain ⟨k, hk, hon⟩ := hacc
    exact ⟨k, hk, (step_effect db c).onBoard_of_author hc hon⟩

/-- **Frozen for their author.** In a run, no call but a moderator's changes or hides a published
    row, and calls on drafts change drafts only, exactly when no step submits again an argument
    that is no longer a draft. -/
theorem published_frozen_iff (lower : String → String) (calls : List Call) :
    (∀ p ∈ steps step (Database.empty lower) calls,
      p.2.byModerator = false → p.1.Freezes p.2) ↔
      ∀ p ∈ steps step (Database.empty lower) calls, ¬ p.1.ResubmitsArgument p.2 := by
  have hstep : ∀ (db : Database) (c : Call), db.Linked ∧ db.Stored →
      ((c.byModerator = false → db.Freezes c) ↔ ¬ db.ResubmitsArgument c) :=
    fun db c h => freezes_iff h.1 h.2 c
  have hinv : ∀ (db : Database) (c : Call), db.Linked ∧ db.Stored →
      (step db c).Linked ∧ (step db c).Stored :=
    fun db c h => ⟨linked_step db c h.1, stored_step db c h.2⟩
  exact steps_congr hinv hstep ⟨.empty lower, .empty lower⟩ calls

/-- Submitting a published argument again replaces its text and takes it off the debate's page. -/
theorem submitDraft_changes_published :
    ¬ ∀ p ∈ steps step (Database.empty String.toLower) (createUsers ++ [proposeDebate,
        .createArgument 2 ⟨testUser, .int 1, sampleArgument "argument"⟩,
        .updateTicket ⟨2, 2, "IN REVIEW"⟩, .approveTicket moderatorOne 2,
        .submitDraft ⟨testUser, .int 1, .int 1, sampleArgument "rewritten"⟩]),
      p.2.byModerator = false → p.1.Freezes p.2 := by
  intro h
  let pre : List Call := createUsers ++ [proposeDebate,
    .createArgument 2 ⟨testUser, .int 1, sampleArgument "argument"⟩,
    .updateTicket ⟨2, 2, "IN REVIEW"⟩, .approveTicket moderatorOne 2]
  let db := run step (Database.empty String.toLower) pre
  let a : ArgumentRow := ⟨1, 1, some 2, "argument", "Because.", none, 1, 2, some .pro, some false⟩
  have hlast := h (db, .submitDraft ⟨testUser, .int 1, .int 1, sampleArgument "rewritten"⟩)
    (mem_steps_iff.2 ⟨pre, [], rfl, rfl⟩) rfl
  have ha : a ∈ db.arguments.rows := by decide +kernel
  have hacc : db.ArgumentAccepted a := ⟨2, rfl, by decide +kernel⟩
  have hgone : a ∉ (step db (.submitDraft
      ⟨testUser, .int 1, .int 1, sampleArgument "rewritten"⟩)).arguments.rows := by
    decide +kernel
  exact hgone (hlast.argument a ha hacc).1

end DecentDebates

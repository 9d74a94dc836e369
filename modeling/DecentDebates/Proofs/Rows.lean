import DecentDebates.Proofs.Effects

set_option autoImplicit false

/-! # What one call can do to one row

The row-by-row reading of `Effect`: a row of the new state is an old row, changed in one of a few
ways, or a new row under the next id. `…_next` follows a row forwards through a call and `…_prev`
backwards; both directions name the call that made the change and the guard it passed. -/

namespace DecentDebates

open Relational

variable {db db' : Database}

/-! ## Tickets -/

/-- The ways a call changes a ticket. -/
inductive TicketChange : Call → TicketRow → TicketRow → Prop
  | same (c : Call) (t : TicketRow) : TicketChange c t t
  | moved {d : UpdateTicketData} {b : BoardList} {t : TicketRow} (hb : b.label = d.boardList)
      (hwhere : (updateTicketWhere d.ticketId d.userId t).holds = true) :
      TicketChange (.updateTicket d) t (t.moveTo b d.boardList d.userId)
  | approved {user : UserCookieData} {ticketId : Int} {t : TicketRow}
      (hwhere : (approveTicketWhere ticketId user.id t).holds = true) :
      TicketChange (.approveTicket user ticketId) t { t with boardList := some .accepted }

/-- A ticket that a call has inserted: unassigned and PENDING. -/
structure NewTicket (db : Database) (c : Call) (t : TicketRow) : Prop where
  id : t.id = db.tickets.next
  bound : db.tickets.next ≤ int4Max
  createdBy : c.actor = some t.createdBy
  exists_user : ∃ u ∈ db.users.rows, u.id = t.createdBy
  assignedTo : t.assignedTo = none
  boardList : t.boardList = some .pending

theorem TicketChange.id {c : Call} {t t' : TicketRow} (h : TicketChange c t t') : t'.id = t.id := by
  cases h <;> rfl

theorem TicketChange.createdBy {c : Call} {t t' : TicketRow} (h : TicketChange c t t') :
    t'.createdBy = t.createdBy := by
  cases h <;> rfl

theorem Effect.ticket_next {c : Call} (h : Effect db c db') {t : TicketRow}
    (ht : t ∈ db.tickets.rows) : ∃ t' ∈ db'.tickets.rows, TicketChange c t t' := by
  cases h with
  | rejected => exact ⟨t, ht, .same c t⟩
  | elsewhere _ htickets => exact ⟨t, htickets ▸ ht, .same c t⟩
  | createDebate title huser hticket hnext husers htickets =>
    refine ⟨t, ?_, .same _ t⟩
    rw [htickets, SerialTable.mem_insert]
    exact Or.inl ht
  | createArgument => exact ⟨t, (SerialTable.mem_insert).2 (Or.inl ht), .same _ t⟩
  | saveArgumentAsDraft => exact ⟨t, ht, .same _ t⟩
  | updateDraft => exact ⟨t, ht, .same _ t⟩
  | submitDraft => exact ⟨t, (SerialTable.mem_insert).2 (Or.inl ht), .same _ t⟩
  | updateArgument => exact ⟨t, ht, .same _ t⟩
  | updateDebate => exact ⟨t, ht, .same _ t⟩
  | @updateTicket d b hb hint4 =>
    by_cases hw : (updateTicketWhere d.ticketId d.userId t).holds = true
    · exact ⟨_, SerialTable.updateWhere_mem ht hw, .moved hb hw⟩
    · exact ⟨t, SerialTable.updateWhere_mem_of_not ht hw, .same _ t⟩
  | @approveTicket user ticketId hint4 =>
    by_cases hw : (approveTicketWhere ticketId user.id t).holds = true
    · exact ⟨_, SerialTable.updateWhere_mem ht hw, .approved hw⟩
    · exact ⟨t, SerialTable.updateWhere_mem_of_not ht hw, .same _ t⟩

theorem Effect.ticket_prev {c : Call} (h : Effect db c db') {t' : TicketRow}
    (ht' : t' ∈ db'.tickets.rows) :
    (∃ t ∈ db.tickets.rows, TicketChange c t t') ∨ NewTicket db c t' := by
  cases h with
  | rejected => exact Or.inl ⟨t', ht', .same c t'⟩
  | elsewhere _ htickets => exact Or.inl ⟨t', htickets ▸ ht', .same c t'⟩
  | createDebate title huser hticket hnext husers htickets =>
    rw [htickets, SerialTable.mem_insert] at ht'
    rcases ht' with ht' | rfl
    · exact Or.inl ⟨t', ht', .same _ t'⟩
    · exact Or.inr ⟨rfl, hticket, rfl, huser, rfl, rfl⟩
  | createArgument hc hticket hnext hdebate huser =>
    rcases (SerialTable.mem_insert).1 ht' with ht' | rfl
    · exact Or.inl ⟨t', ht', .same _ t'⟩
    · exact Or.inr ⟨rfl, hticket, rfl, huser, rfl, rfl⟩
  | saveArgumentAsDraft => exact Or.inl ⟨t', ht', .same _ t'⟩
  | updateDraft => exact Or.inl ⟨t', ht', .same _ t'⟩
  | submitDraft hd =>
    rcases (SerialTable.mem_insert).1 ht' with ht' | rfl
    · exact Or.inl ⟨t', ht', .same _ t'⟩
    · exact Or.inr ⟨rfl, hd.sequence, rfl, hd.user, rfl, rfl⟩
  | updateArgument => exact Or.inl ⟨t', ht', .same _ t'⟩
  | updateDebate => exact Or.inl ⟨t', ht', .same _ t'⟩
  | @updateTicket d b hb hint4 =>
    obtain ⟨t, ht, rfl⟩ := (SerialTable.mem_updateWhere).1 ht'
    split
    · exact Or.inl ⟨t, ht, .moved hb ‹_›⟩
    · exact Or.inl ⟨t, ht, .same _ t⟩
  | @approveTicket user ticketId hint4 =>
    obtain ⟨t, ht, rfl⟩ := (SerialTable.mem_updateWhere).1 ht'
    split
    · exact Or.inl ⟨t, ht, .approved ‹_›⟩
    · exact Or.inl ⟨t, ht, .same _ t⟩

/-! ## Debates -/

/-- The ways a call changes a debate. -/
inductive DebateChange (db : Database) : Call → DebateRow → DebateRow → Prop
  | same (c : Call) (x : DebateRow) : DebateChange db c x x
  | retitled {d : UpdateDebateData} {debateId : Int} {x : DebateRow} {t : TicketRow}
      (title : String) (ht : t ∈ db.tickets.rows)
      (hwhere : (updateDebateWhere debateId d.user.id x t).holds = true) :
      DebateChange db (.updateDebate d) x { x with title := title }

/-- A debate that a call has inserted, with the ticket inserted for it. -/
structure NewDebate (db : Database) (c : Call) (x : DebateRow) : Prop where
  call : ∃ now user d, c = .createDebate now user d
  id : x.id = db.debates.next
  bound : db.debates.next ≤ int4Max
  createdBy : c.actor = some x.createdBy
  ticketId : x.ticketId = db.tickets.next

theorem DebateChange.id {c : Call} {x x' : DebateRow} (h : DebateChange db c x x') :
    x'.id = x.id := by
  cases h <;> rfl

theorem DebateChange.ticketId {c : Call} {x x' : DebateRow} (h : DebateChange db c x x') :
    x'.ticketId = x.ticketId := by
  cases h <;> rfl

theorem DebateChange.createdBy {c : Call} {x x' : DebateRow} (h : DebateChange db c x x') :
    x'.createdBy = x.createdBy := by
  cases h <;> rfl

theorem Effect.debate_next {c : Call} (h : Effect db c db') {x : DebateRow}
    (hx : x ∈ db.debates.rows) : ∃ x' ∈ db'.debates.rows, DebateChange db c x x' := by
  cases h with
  | elsewhere _ _ _ hdebates => exact ⟨x, hdebates ▸ hx, .same c x⟩
  | createDebate title huser hticket hnext husers htickets hdebates =>
    refine ⟨x, ?_, .same _ x⟩
    rw [hdebates, SerialTable.mem_insert]
    exact Or.inl hx
  | @updateDebate d debateId title =>
    by_cases hw : (db.tickets.rows.any fun t =>
        (updateDebateWhere debateId d.user.id x t).holds) = true
    · obtain ⟨t, ht, hw'⟩ := List.any_eq_true.1 hw
      exact ⟨_, SerialTable.updateWhere_mem hx hw, .retitled title ht hw'⟩
    · exact ⟨x, SerialTable.updateWhere_mem_of_not hx hw, .same _ x⟩
  | _ => exact ⟨x, hx, .same _ x⟩

theorem Effect.debate_prev {c : Call} (h : Effect db c db') {x' : DebateRow}
    (hx' : x' ∈ db'.debates.rows) :
    (∃ x ∈ db.debates.rows, DebateChange db c x x') ∨ NewDebate db c x' := by
  cases h with
  | elsewhere _ _ _ hdebates => exact Or.inl ⟨x', hdebates ▸ hx', .same c x'⟩
  | createDebate title huser hticket hnext husers htickets hdebates =>
    rw [hdebates, SerialTable.mem_insert] at hx'
    rcases hx' with hx' | rfl
    · exact Or.inl ⟨x', hx', .same _ x'⟩
    · exact Or.inr ⟨⟨_, _, _, rfl⟩, rfl, hnext, rfl, rfl⟩
  | @updateDebate d debateId title =>
    obtain ⟨x, hx, rfl⟩ := (SerialTable.mem_updateWhere).1 hx'
    split
    · obtain ⟨t, ht, hw⟩ := List.any_eq_true.1 ‹_›
      exact Or.inl ⟨x, hx, .retitled title ht hw⟩
    · exact Or.inl ⟨x, hx, .same _ x⟩
  | _ => exact Or.inl ⟨x', hx', .same _ x'⟩

/-! ## Arguments -/

/-- A payload that can be stored refers to a number that fits the column, or to none. -/
theorem counterargumentTo_isInt4 {d : CreateArgumentDTO} {c : ArgumentColumns}
    (hc : d.columns = .ok c) : ∀ n, c.counterargumentTo = some n → IsInt4 n := by
  intro n hn
  obtain ⟨-, -, hk, -⟩ := CreateArgumentDTO.columns_eq_ok.1 hc
  exact (nullableInt4_eq_ok_some.1 (hn ▸ hk)).2

/-- The ways a call changes an argument. -/
inductive ArgumentChange (db : Database) : Call → ArgumentRow → ArgumentRow → Prop
  | same (c : Call) (a : ArgumentRow) : ArgumentChange db c a a
  | redrafted {d : UpdateDraftData} {c : ArgumentColumns} {debateId draftId : Int}
      {a : ArgumentRow} (hc : d.draftData.columns = .ok c)
      (hwhere : (updateDraftWhere debateId d.user.id draftId a).holds = true) :
      ArgumentChange db (.updateDraft d) a (a.setColumns c)
  | submitted {d : SubmitDraftData} {c : ArgumentColumns} {draftId debateId : Int}
      {a : ArgumentRow} (hd : d.Storable db c draftId debateId)
      (hwhere : (submitDraftWhere draftId debateId d.user.id a).holds = true) :
      ArgumentChange db (.submitDraft d) a (a.submit c db.tickets.next)
  | edited {d : UpdateArgumentData} {argumentId : Int} {a : ArgumentRow} {t : TicketRow}
      (title content : String) (ht : t ∈ db.tickets.rows)
      (hwhere : (updateArgumentWhere argumentId d.user.id a t).holds = true) :
      ArgumentChange db (.updateArgument d) a { a with title := title, content := content }

/-- An argument that a call has inserted: a submission with the ticket inserted for it, or a draft
    without one. -/
structure NewArgument (db : Database) (c : Call) (a : ArgumentRow) : Prop where
  id : a.id = db.arguments.next
  bound : db.arguments.next ≤ int4Max
  createdBy : c.actor = some a.createdBy
  exists_user : ∃ u ∈ db.users.rows, u.id = a.createdBy
  exists_debate : ∃ x ∈ db.debates.rows, x.id = a.debateId
  type : a.type ≠ none
  counterargumentTo : ∀ n, a.counterargumentTo = some n → IsInt4 n
  kind : (∃ now d, c = .createArgument now d) ∧ a.ticketId = some db.tickets.next ∧
      a.isDraft = some false ∨
    (∃ now d, c = .saveArgumentAsDraft now d) ∧ a.ticketId = none ∧ a.isDraft = some true

theorem ArgumentChange.id {c : Call} {a a' : ArgumentRow} (h : ArgumentChange db c a a') :
    a'.id = a.id := by
  cases h <;> rfl

theorem ArgumentChange.debateId {c : Call} {a a' : ArgumentRow} (h : ArgumentChange db c a a') :
    a'.debateId = a.debateId := by
  cases h <;> rfl

theorem ArgumentChange.createdBy {c : Call} {a a' : ArgumentRow} (h : ArgumentChange db c a a') :
    a'.createdBy = a.createdBy := by
  cases h <;> rfl

theorem Effect.argument_next {c : Call} (h : Effect db c db') {a : ArgumentRow}
    (ha : a ∈ db.arguments.rows) : ∃ a' ∈ db'.arguments.rows, ArgumentChange db c a a' := by
  cases h with
  | elsewhere _ _ _ _ harguments => exact ⟨a, harguments ▸ ha, .same c a⟩
  | createDebate title huser hticket hnext husers htickets hdebates harguments =>
    exact ⟨a, harguments ▸ ha, .same _ a⟩
  | createArgument => exact ⟨a, (SerialTable.mem_insert).2 (Or.inl ha), .same _ a⟩
  | saveArgumentAsDraft => exact ⟨a, (SerialTable.mem_insert).2 (Or.inl ha), .same _ a⟩
  | @updateDraft d c debateId draftId hc =>
    by_cases hw : (updateDraftWhere debateId d.user.id draftId a).holds = true
    · exact ⟨_, SerialTable.updateWhere_mem ha hw, .redrafted hc hw⟩
    · exact ⟨a, SerialTable.updateWhere_mem_of_not ha hw, .same _ a⟩
  | @submitDraft d c draftId debateId hd =>
    by_cases hw : (submitDraftWhere draftId debateId d.user.id a).holds = true
    · exact ⟨_, SerialTable.updateWhere_mem ha hw, .submitted hd hw⟩
    · exact ⟨a, SerialTable.updateWhere_mem_of_not ha hw, .same _ a⟩
  | @updateArgument d argumentId title content =>
    by_cases hw : (db.tickets.rows.any fun t =>
        (updateArgumentWhere argumentId d.user.id a t).holds) = true
    · obtain ⟨t, ht, hw'⟩ := List.any_eq_true.1 hw
      exact ⟨_, SerialTable.updateWhere_mem ha hw, .edited title content ht hw'⟩
    · exact ⟨a, SerialTable.updateWhere_mem_of_not ha hw, .same _ a⟩
  | _ => exact ⟨a, ha, .same _ a⟩

theorem Effect.argument_prev {c : Call} (h : Effect db c db') {a' : ArgumentRow}
    (ha' : a' ∈ db'.arguments.rows) :
    (∃ a ∈ db.arguments.rows, ArgumentChange db c a a') ∨ NewArgument db c a' := by
  cases h with
  | elsewhere _ _ _ _ harguments => exact Or.inl ⟨a', harguments ▸ ha', .same c a'⟩
  | createDebate title huser hticket hnext husers htickets hdebates harguments =>
    exact Or.inl ⟨a', harguments ▸ ha', .same _ a'⟩
  | createArgument hc hticket hnext hdebate huser =>
    rcases (SerialTable.mem_insert).1 ha' with ha' | rfl
    · exact Or.inl ⟨a', ha', .same _ a'⟩
    · exact Or.inr ⟨rfl, hnext, rfl, huser, hdebate, nofun, counterargumentTo_isInt4 hc,
        Or.inl ⟨⟨_, _, rfl⟩, rfl, rfl⟩⟩
  | saveArgumentAsDraft hc hnext hdebate huser =>
    rcases (SerialTable.mem_insert).1 ha' with ha' | rfl
    · exact Or.inl ⟨a', ha', .same _ a'⟩
    · exact Or.inr ⟨rfl, hnext, rfl, huser, hdebate, nofun, counterargumentTo_isInt4 hc,
        Or.inr ⟨⟨_, _, rfl⟩, rfl, rfl⟩⟩
  | @updateDraft d c debateId draftId hc =>
    obtain ⟨a, ha, rfl⟩ := (SerialTable.mem_updateWhere).1 ha'
    split
    · exact Or.inl ⟨a, ha, .redrafted hc ‹_›⟩
    · exact Or.inl ⟨a, ha, .same _ a⟩
  | @submitDraft d c draftId debateId hd =>
    obtain ⟨a, ha, rfl⟩ := (SerialTable.mem_updateWhere).1 ha'
    split
    · exact Or.inl ⟨a, ha, .submitted hd ‹_›⟩
    · exact Or.inl ⟨a, ha, .same _ a⟩
  | @updateArgument d argumentId title content =>
    obtain ⟨a, ha, rfl⟩ := (SerialTable.mem_updateWhere).1 ha'
    split
    · obtain ⟨t, ht, hw⟩ := List.any_eq_true.1 ‹_›
      exact Or.inl ⟨a, ha, .edited title content ht hw⟩
    · exact Or.inl ⟨a, ha, .same _ a⟩
  | _ => exact Or.inl ⟨a', ha', .same _ a'⟩

/-- Accounts are never removed. -/
theorem Effect.user_next {c : Call} (h : Effect db c db') {u : UserRow} (hu : u ∈ db.users.rows) :
    u ∈ db'.users.rows := by
  cases h with
  | elsewhere husers => exact husers u hu
  | createDebate title huser hticket hnext husers => exact husers ▸ hu
  | _ => exact hu

end DecentDebates

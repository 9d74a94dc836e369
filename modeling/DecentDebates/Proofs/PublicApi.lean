import DecentDebates.PublicApi
import DecentDebates.System
import Mathlib.Data.Fintype.EquivFin

set_option autoImplicit false

/-! # What the public may know: proofs

Every join on a primary key is a lookup, so a query is a lookup for each row of the table it starts
from. Under a condition that keeps published rows only, these lookups find published rows, which
agreeing states share. -/

namespace DecentDebates

open Relational Transition Information

variable {db db' : Database}

/-! ## Published rows -/

theorem mem_publicDebates {d : DebateRow} :
    d ∈ db.publicDebates ↔ d ∈ db.debates.rows ∧ db.DebateAccepted d := by
  simp [Database.publicDebates]

theorem mem_publicArguments {a : ArgumentRow} :
    a ∈ db.publicArguments ↔
      a ∈ db.arguments.rows ∧ db.ArgumentAccepted a ∧ db.PublicDebate a.debateId := by
  simp [Database.publicArguments]

theorem mem_publicTickets {t : TicketRow} :
    t ∈ db.publicTickets ↔ t ∈ db.tickets.rows ∧
      ((∃ d ∈ db.publicDebates, d.ticketId = t.id) ∨
        ∃ a ∈ db.publicArguments, a.ticketId = some t.id) := by
  simp [Database.publicTickets]

theorem find?_congr {ρ : Type} [SerialRow ρ] {t t' : SerialTable ρ} (h : t'.rows = t.rows) :
    t'.find? = t.find? := by
  funext id
  unfold SerialTable.find?
  rw [h]

namespace SamePublic

variable (h : SamePublic db db')

include h

theorem publicDebate (n : Int) : db'.PublicDebate n ↔ db.PublicDebate n := by
  unfold Database.PublicDebate
  rw [h.debates]

theorem publicArgument (m : Int) : db'.PublicArgument m ↔ db.PublicArgument m := by
  unfold Database.PublicArgument
  rw [h.arguments, h.users]

omit h in
theorem trans {db₁ db₂ db₃ : Database} (h : SamePublic db₁ db₂) (h' : SamePublic db₂ db₃) :
    SamePublic db₁ db₃ where
  users := h'.users.trans h.users
  debateTags := h'.debateTags.trans h.debateTags
  lower := h'.lower.trans h.lower
  debates := h'.debates.trans h.debates
  arguments := h'.arguments.trans h.arguments
  tickets := h'.tickets.trans h.tickets
  assocDebateTags := h'.assocDebateTags.trans h.assocDebateTags

theorem find?_ticket {t : TicketRow} (ht : t ∈ db.publicTickets) :
    db'.tickets.find? t.id = db.tickets.find? t.id := by
  have ht' := ht
  rw [← h.tickets] at ht'
  exact (SerialTable.find?_eq_some.2 ⟨(mem_publicTickets.1 ht').1, rfl⟩).trans
    (SerialTable.find?_eq_some.2 ⟨(mem_publicTickets.1 ht).1, rfl⟩).symm

theorem find?_debate {n : Int} (hn : db.PublicDebate n) :
    db'.debates.find? n = db.debates.find? n := by
  obtain ⟨d, hd, rfl⟩ := hn
  have hd' := hd
  rw [← h.debates] at hd'
  exact (SerialTable.find?_eq_some.2 ⟨(mem_publicDebates.1 hd').1, rfl⟩).trans
    (SerialTable.find?_eq_some.2 ⟨(mem_publicDebates.1 hd).1, rfl⟩).symm

end SamePublic

/-! ## Arguments of published debates -/

/-- The row of `joinedArguments` that an argument contributes. -/
def Database.joinedArgument (db : Database) (a : ArgumentRow) : Option JoinedArgument :=
  (a.ticketId.bind db.tickets.find?).bind fun t =>
    (db.debates.find? a.debateId).bind fun d =>
      (db.users.find? a.createdBy).map fun u => (((a, t), d), u)

theorem joinedArguments_eq (db : Database) :
    joinedArguments db = db.arguments.rows.filterMap db.joinedArgument := by
  have hticket := innerJoin_rowId db.arguments.rows db.tickets fun a => a.ticketId
  have hdebate := fun xs => innerJoin_rowId xs db.debates fun q : ArgumentRow × TicketRow =>
    some q.1.debateId
  have huser := fun xs => innerJoin_rowId xs db.users
    fun q : (ArgumentRow × TicketRow) × DebateRow => some q.1.1.createdBy
  unfold joinedArguments
  refine (huser _).trans ?_
  refine (congrArg _ ((hdebate _).trans (congrArg _ hticket))).trans ?_
  rw [List.filterMap_filterMap, List.filterMap_filterMap]
  refine List.filterMap_congr fun a _ => ?_
  unfold Database.joinedArgument
  cases a.ticketId.bind db.tickets.find? with
  | none => rfl
  | some t =>
    simp only [Option.map_some, Option.bind_some]
    cases db.debates.find? a.debateId <;> rfl

theorem joinedArgument_eq_some {a a' : ArgumentRow} {t : TicketRow} {d : DebateRow} {u : UserRow} :
    db.joinedArgument a = some (((a', t), d), u) ↔ a = a' ∧
      (t ∈ db.tickets.rows ∧ a.ticketId = some t.id) ∧
      (d ∈ db.debates.rows ∧ d.id = a.debateId) ∧ u ∈ db.users.rows ∧ u.id = a.createdBy := by
  simp only [Database.joinedArgument, Option.bind_eq_some_iff, Option.map_eq_some_iff,
    SerialTable.find?_eq_some, Prod.mk.injEq]
  constructor
  · rintro ⟨t, ⟨k, hk, ht, hid⟩, d, ⟨hd, hdid⟩, u, ⟨hu, huid⟩, ⟨⟨rfl, rfl⟩, rfl⟩, rfl⟩
    exact ⟨rfl, ⟨ht, hk.trans (congrArg some hid.symm)⟩, ⟨hd, hdid⟩, hu, huid⟩
  · rintro ⟨rfl, ⟨ht, hk⟩, ⟨hd, hdid⟩, hu, huid⟩
    exact ⟨t, ⟨t.id, hk, ht, rfl⟩, d, ⟨hd, hdid⟩, u, ⟨hu, huid⟩, ⟨⟨rfl, rfl⟩, rfl⟩, rfl⟩

/-- A condition that keeps accepted arguments of published debates only. -/
def OnlyPublic (db : Database) (p : JoinedArgument → Truth) : Prop :=
  ∀ a t d u, (p (((a, t), d), u)).holds = true →
    t.boardList = some .accepted ∧ db.PublicDebate a.debateId

theorem selectWhere_joinedArguments {p : JoinedArgument → Truth} (hp : OnlyPublic db p) :
    selectWhere p (joinedArguments db) =
      db.publicArguments.filterMap fun a => (db.joinedArgument a).filter fun q => (p q).holds := by
  rw [selectWhere, joinedArguments_eq, List.filter_filterMap, Database.publicArguments,
    List.filterMap_filter]
  refine List.filterMap_congr fun a _ => ?_
  split
  · rfl
  · next hnot =>
    rw [Option.filter_eq_none_iff]
    rintro ⟨⟨⟨a', t⟩, d⟩, u⟩ hq hpq
    obtain ⟨rfl, ⟨ht, hk⟩, -⟩ := joinedArgument_eq_some.1 hq
    obtain ⟨hboard, hdebate⟩ := hp _ _ _ _ hpq
    exact hnot (decide_eq_true ⟨⟨t.id, hk, t, ht, rfl, hboard⟩, hdebate⟩)

theorem SamePublic.joinedArgument (h : SamePublic db db') {a : ArgumentRow}
    (ha : a ∈ db.publicArguments) : db'.joinedArgument a = db.joinedArgument a := by
  obtain ⟨-, ⟨k, hk, t, ht, rfl, -⟩, hdebate⟩ := mem_publicArguments.1 ha
  have hpublic : t ∈ db.publicTickets := mem_publicTickets.2 ⟨ht, Or.inr ⟨a, ha, hk⟩⟩
  unfold Database.joinedArgument
  rw [hk, Option.bind_some, Option.bind_some, h.find?_ticket hpublic, h.find?_debate hdebate,
    find?_congr h.users]

theorem SamePublic.selectWhere_joinedArguments (h : SamePublic db db')
    {p : JoinedArgument → Truth} (hp : OnlyPublic db p) :
    selectWhere p (joinedArguments db') = selectWhere p (joinedArguments db) := by
  have hp' : OnlyPublic db' p := by
    intro a t d u hq
    rw [h.publicDebate]
    exact hp a t d u hq
  rw [DecentDebates.selectWhere_joinedArguments hp, DecentDebates.selectWhere_joinedArguments hp',
    h.arguments]
  exact List.filterMap_congr fun a ha => by rw [h.joinedArgument ha]

theorem onlyPublic_debateArguments {n : Int} (hn : db.PublicDebate n) :
    OnlyPublic db (debateArgumentsWhere n) := by
  intro a t d u hp
  simp only [debateArgumentsWhere, Truth.holds_and, Truth.holds_eq_some, Bool.and_eq_true,
    decide_eq_true_eq, Option.some.injEq] at hp
  obtain ⟨rfl, hboard⟩ := hp
  exact ⟨hboard, hn⟩

theorem debateArgumentWhere_holds {n m : Int} {a : ArgumentRow} {t : TicketRow} {d : DebateRow}
    {u : UserRow} : (debateArgumentWhere n m (((a, t), d), u)).holds = true ↔
      a.debateId = n ∧ t.boardList = some .accepted ∧ a.id = m := by
  simp [debateArgumentWhere, and_assoc]

theorem onlyPublic_debateArgument {n m : Int} (hn : db.PublicDebate n) :
    OnlyPublic db (debateArgumentWhere n m) := by
  intro a t d u hp
  obtain ⟨rfl, hboard, -⟩ := debateArgumentWhere_holds.1 hp
  exact ⟨hboard, hn⟩

/-- A published argument is not found under the id of an unpublished debate. -/
theorem debateArgument_eq_nil {n m : Int} (hn : ¬ db.PublicDebate n) (hm : db.PublicArgument m) :
    selectWhere (debateArgumentWhere n m) (joinedArguments db) = [] := by
  rw [List.eq_nil_iff_forall_not_mem]
  rintro ⟨⟨⟨a, t⟩, d⟩, u⟩ hq
  obtain ⟨hq, hw⟩ := mem_selectWhere.1 hq
  rw [joinedArguments_eq, List.mem_filterMap] at hq
  obtain ⟨a', ha, hrow⟩ := hq
  obtain ⟨rfl, -, -, hu, -⟩ := joinedArgument_eq_some.1 hrow
  obtain ⟨rfl, -, rfl⟩ := debateArgumentWhere_holds.1 hw
  rcases hm with ⟨b, hb, hid⟩ | hnone
  · obtain ⟨hmem, -, hdebate⟩ := mem_publicArguments.1 hb
    rw [SerialTable.eq_of_rowId_eq hmem ha hid] at hdebate
    exact hn hdebate
  · rw [hnone] at hu
    exact absurd hu List.not_mem_nil

/-! ## The list of published debates -/

instance : SerialRow DebatesTags := ⟨DebatesTags.debateId⟩

/-- The row of `debatesTags` for a debate that has tags. -/
def Database.debateTagsRow (db : Database) (d : DebateRow) : Option DebatesTags :=
  match db.tagsOf d with
  | [] => none
  | tags => some ⟨d.id, stringAgg (tags.map DebateTagRow.name),
      stringAgg (tags.map fun dt => toString dt.id)⟩

theorem debateTagsRow_debateId {d : DebateRow} {dts : DebatesTags}
    (h : db.debateTagsRow d = some dts) : dts.debateId = d.id := by
  unfold Database.debateTagsRow at h
  split at h
  · cases h
  · cases h
    rfl

theorem mem_debatesTags {dts : DebatesTags} :
    dts ∈ debatesTags db ↔ ∃ d ∈ db.debates.rows, db.debateTagsRow d = some dts :=
  List.mem_filterMap

theorem map_filterMap_debateTagsRow_sublist (db : Database) (ds : List DebateRow) :
    ((ds.filterMap db.debateTagsRow).map SerialRow.rowId).Sublist (ds.map SerialRow.rowId) := by
  induction ds with
  | nil => exact List.Sublist.slnil
  | cons d ds ih =>
    rw [List.filterMap_cons]
    cases h : db.debateTagsRow d with
    | none => exact ih.cons _
    | some dts =>
      have hid : SerialRow.rowId dts = SerialRow.rowId d := debateTagsRow_debateId h
      rw [List.map_cons, List.map_cons, hid]
      exact ih.cons_cons _

/-- `debates_tags` has one row for a debate, so it is keyed by the debate's id. -/
def Database.debatesTagsTable (db : Database) : SerialTable DebatesTags where
  rows := debatesTags db
  next := db.debates.next
  pos := db.debates.pos
  nodup := db.debates.nodup.sublist (map_filterMap_debateTagsRow_sublist db _)
  fresh := by
    intro dts hdts
    obtain ⟨d, hd, hrow⟩ := mem_debatesTags.1 hdts
    have hid : SerialRow.rowId dts = SerialRow.rowId d := debateTagsRow_debateId hrow
    rw [hid]
    exact db.debates.fresh d hd

theorem find?_debatesTagsTable {d : DebateRow} (hd : d ∈ db.debates.rows) :
    db.debatesTagsTable.find? d.id = db.debateTagsRow d := by
  cases h : db.debateTagsRow d with
  | some dts =>
    exact SerialTable.find?_eq_some.2 ⟨mem_debatesTags.2 ⟨d, hd, h⟩, debateTagsRow_debateId h⟩
  | none =>
    rw [SerialTable.find?_eq_none]
    intro dts hdts hid
    obtain ⟨d', hd', hrow⟩ := mem_debatesTags.1 hdts
    have hsame : d' = d :=
      SerialTable.eq_of_rowId_eq hd' hd ((debateTagsRow_debateId hrow).symm.trans hid)
    rw [hsame, h] at hrow
    cases hrow

/-- The row of `joinedDebates` that a debate contributes. -/
def Database.joinedDebate (db : Database) (d : DebateRow) :
    Option (((DebateRow × TicketRow) × UserRow) × DebatesTags) :=
  (db.tickets.find? d.ticketId).bind fun t =>
    (db.users.find? t.createdBy).bind fun u =>
      (db.debateTagsRow d).map fun dts => (((d, t), u), dts)

theorem joinedDebates_eq (db : Database) :
    joinedDebates db = db.debates.rows.filterMap db.joinedDebate := by
  have hticket := innerJoin_rowId db.debates.rows db.tickets fun d => some d.ticketId
  have huser := fun xs => innerJoin_rowId xs db.users fun q : DebateRow × TicketRow =>
    some q.2.createdBy
  have htags := fun xs => innerJoin_rowId xs db.debatesTagsTable
    fun q : (DebateRow × TicketRow) × UserRow => some q.1.1.id
  -- all three joins are on a primary key, so each is a lookup
  unfold joinedDebates
  refine (htags _).trans ?_
  refine (congrArg _ ((huser _).trans (congrArg _ hticket))).trans ?_
  rw [List.filterMap_filterMap, List.filterMap_filterMap]
  refine List.filterMap_congr fun d hd => ?_
  unfold Database.joinedDebate
  rw [Option.bind_some]
  cases db.tickets.find? d.ticketId with
  | none => rfl
  | some t =>
    simp only [Option.map_some, Option.bind_some]
    cases db.users.find? t.createdBy with
    | none => rfl
    | some u => simp only [Option.map_some, Option.bind_some, find?_debatesTagsTable hd]

theorem selectDebates_eq (db : Database) (filter : DebateRow → DebatesTags → Truth) :
    selectDebates db filter = (db.publicDebates.filterMap fun d =>
      (db.joinedDebate d).filter fun (((d, t), _), dts) =>
        ((Truth.eq t.boardList (some .accepted)).and (filter d dts)).holds).map Debate.ofRow := by
  unfold selectDebates
  rw [selectWhere, joinedDebates_eq, List.filter_filterMap, Database.publicDebates,
    List.filterMap_filter]
  refine congrArg _ (List.filterMap_congr fun d _ => ?_)
  split
  · rfl
  · next hnot =>
    rw [Option.filter_eq_none_iff]
    rintro ⟨⟨⟨d', t⟩, u⟩, dts⟩ hq hpq
    simp only [Database.joinedDebate, Option.bind_eq_some_iff, Option.map_eq_some_iff,
      SerialTable.find?_eq_some, Prod.mk.injEq] at hq
    obtain ⟨t', ⟨ht, hid⟩, u', -, dts', -, ⟨⟨-, rfl⟩, -⟩, -⟩ := hq
    simp only [Truth.holds_and, Truth.holds_eq_some, Bool.and_eq_true, decide_eq_true_eq] at hpq
    exact hnot (decide_eq_true ⟨t', ht, hid, hpq.1⟩)

theorem tagsOf_eq {d : DebateRow} (hd : d ∈ db.publicDebates) :
    db.tagsOf d = (innerJoin
      (innerJoin [d] db.publicDebateTags fun d adt => Truth.eq (some adt.debateId) (some d.id))
      db.debateTags.rows fun (_, adt) dt =>
        Truth.eq (some adt.tagId) (some dt.id)).map Prod.snd := by
  unfold Database.tagsOf Database.publicDebateTags
  rw [innerJoin_filter_right]
  intro x hx adt _ hon
  rw [List.mem_singleton.1 hx] at hon
  have hid : adt.debateId = d.id := by simpa using hon
  rw [hid]
  exact decide_eq_true ⟨d, hd, rfl⟩

theorem SamePublic.joinedDebate (h : SamePublic db db') {d : DebateRow}
    (hd : d ∈ db.publicDebates) : db'.joinedDebate d = db.joinedDebate d := by
  have hd' : d ∈ db'.publicDebates := h.debates.symm ▸ hd
  obtain ⟨-, t, ht, hid, -⟩ := mem_publicDebates.1 hd
  have hpublic : t ∈ db.publicTickets := mem_publicTickets.2 ⟨ht, Or.inl ⟨d, hd, hid.symm⟩⟩
  have htags : db'.debateTagsRow d = db.debateTagsRow d := by
    unfold Database.debateTagsRow
    rw [tagsOf_eq hd, tagsOf_eq hd', h.assocDebateTags, h.debateTags]
  unfold Database.joinedDebate
  rw [← hid, h.find?_ticket hpublic, find?_congr h.users, htags]

theorem SamePublic.selectDebates (h : SamePublic db db')
    (filter : DebateRow → DebatesTags → Truth) :
    selectDebates db' filter = selectDebates db filter := by
  rw [selectDebates_eq, selectDebates_eq, h.debates]
  exact congrArg _ (List.filterMap_congr fun d hd => by rw [h.joinedDebate hd])

theorem SamePublic.getAll (h : SamePublic db db') (filters : Option Filters) :
    getAll filters db' = getAll filters db := by
  unfold DecentDebates.getAll
  simp only [h.selectDebates, h.lower]

/-! ## Agreeing states answer alike -/

theorem SamePublic.getDebateArguments (h : SamePublic db db') {debateId : JsNumber}
    (hpublic : ∀ n, int4 debateId = .ok n → db.PublicDebate n) :
    getDebateArguments debateId db' = getDebateArguments debateId db := by
  unfold DecentDebates.getDebateArguments
  cases hn : int4 debateId with
  | error e => rfl
  | ok n =>
    have hd := hpublic n hn
    simp only [h.selectWhere_joinedArguments (onlyPublic_debateArguments hd), h.find?_debate hd]

theorem SamePublic.getDebateArgument (h : SamePublic db db') {debateId argumentId : JsNumber}
    (hpublic : ∀ n m, int4 debateId = .ok n → int4 argumentId = .ok m →
      db.PublicDebate n ∨ db.PublicArgument m) :
    getDebateArgument debateId argumentId db' = getDebateArgument debateId argumentId db := by
  unfold DecentDebates.getDebateArgument
  cases hn : int4 debateId with
  | error e => rfl
  | ok n =>
    cases hm : int4 argumentId with
    | error e => rfl
    | ok m =>
      -- of an unpublished debate no row is selected, in either state
      by_cases hd : db.PublicDebate n
      · simp only [h.selectWhere_joinedArguments (onlyPublic_debateArgument hd)]
      · have harg := (hpublic n m hn hm).resolve_left hd
        have hd' : ¬ db'.PublicDebate n := (h.publicDebate n).not.2 hd
        simp only [debateArgument_eq_nil hd harg,
          debateArgument_eq_nil hd' ((h.publicArgument m).2 harg)]

theorem SamePublic.respond (h : SamePublic db db') {r : PublicRequest}
    (hr : r.AsksPublished db) : r.respond db' = r.respond db := by
  cases r with
  | getAll filters => simp only [PublicRequest.respond, DebatesController.getAll, h.getAll]
  | getDebate id =>
    simp only [PublicRequest.respond, DebatesController.getDebate]
    cases hid : parseIntPipe id with
    | none => rfl
    | some debateId => simp only [h.getDebateArguments fun n => hr debateId n hid]
  | getDebateArgument debateId argumentId =>
    simp only [PublicRequest.respond, DebatesController.getDebateArgument]
    cases hd : parseIntPipe debateId with
    | none => rfl
    | some d =>
      cases ha : parseIntPipe argumentId with
      | none => rfl
      | some a => simp only [h.getDebateArgument fun n m hn hm => hr d n a m hd hn ha hm]

/-! ## Unpublished rows that no agreeing state shows -/

/-- The database after a debate is added or replaced. -/
def Database.withDebate (db : Database) (d : DebateRow) : Database :=
  { db with debates := db.debates.put d }

theorem samePublic_withDebate {d : DebateRow} (hold : ¬ db.PublicDebate d.id)
    (hnew : ¬ db.DebateAccepted d) : SamePublic db (db.withDebate d) := by
  have hdebates : (db.withDebate d).publicDebates = db.publicDebates := by
    refine SerialTable.filter_put (decide_eq_false hnew) (fun x hx hid => ?_) fun x _ _ => rfl
    refine decide_eq_false fun hacc => hold ?_
    exact ⟨x, mem_publicDebates.2 ⟨hx, hacc⟩, hid⟩
  have hiff : ∀ n, (db.withDebate d).PublicDebate n ↔ db.PublicDebate n := by
    intro n
    unfold Database.PublicDebate
    rw [hdebates]
  have harguments : (db.withDebate d).publicArguments = db.publicArguments :=
    List.filter_congr fun a _ => decide_eq_decide.2 (and_congr_right fun _ => hiff a.debateId)
  refine ⟨rfl, rfl, rfl, hdebates, harguments, ?_, ?_⟩
  · unfold Database.publicTickets
    rw [hdebates, harguments]
    rfl
  · exact List.filter_congr fun x _ => decide_eq_decide.2 (hiff x.debateId)

theorem Database.ForeignKeys.withDebate (h : db.ForeignKeys) (d : DebateRow) :
    (db.withDebate d).ForeignKeys where
  ticket_createdBy := h.ticket_createdBy
  assocDebateTag_debate := by
    intro x hx
    obtain ⟨d', hd', hid⟩ := h.assocDebateTag_debate x hx
    obtain ⟨y, hy, hyid⟩ := SerialTable.exists_mem_put (r := d) hd'
    exact ⟨y, hy, hyid.trans hid⟩
  argument_debate := by
    intro a ha
    obtain ⟨d', hd', hid⟩ := h.argument_debate a ha
    obtain ⟨y, hy, hyid⟩ := SerialTable.exists_mem_put (r := d) hd'
    exact ⟨y, hy, hyid.trans hid⟩
  argument_createdBy := h.argument_createdBy
  ticketComment_ticket := h.ticketComment_ticket
  ticketComment_commenter := h.ticketComment_commenter

/-- The database after an argument is added or replaced together with its ticket. -/
def Database.withArgument (db : Database) (t : TicketRow) (a : ArgumentRow) : Database :=
  { db with
    tickets := db.tickets.put t
    arguments := db.arguments.put a }

/-- No row mentions the ticket. -/
structure Database.FreshTicket (db : Database) (k : Int) : Prop where
  ticket : ∀ t ∈ db.tickets.rows, t.id ≠ k
  debate : ∀ d ∈ db.debates.rows, d.ticketId ≠ k
  argument : ∀ a ∈ db.arguments.rows, a.ticketId ≠ some k

theorem exists_freshTicket (db : Database) : ∃ k, db.FreshTicket k := by
  obtain ⟨k, hk⟩ := Infinite.exists_notMem_finset
    (db.tickets.rows.map TicketRow.id ++ db.debates.rows.map DebateRow.ticketId ++
      db.arguments.rows.filterMap ArgumentRow.ticketId).toFinset
  simp only [List.mem_toFinset, List.mem_append, List.mem_map, List.mem_filterMap, not_or,
    not_exists, not_and] at hk
  exact ⟨k, hk.1.1, hk.1.2, hk.2⟩

theorem onBoard_withArgument {t : TicketRow} {a : ArgumentRow} {k : Int} (hk : k ≠ t.id)
    (b : BoardList) : (db.withArgument t a).OnBoard k b ↔ db.OnBoard k b := by
  constructor
  · rintro ⟨t', ht', rfl, hb⟩
    rcases SerialTable.mem_put.1 ht' with ⟨hmem, -⟩ | rfl
    · exact ⟨t', hmem, rfl, hb⟩
    · exact absurd rfl hk
  · rintro ⟨t', ht', rfl, hb⟩
    exact ⟨t', SerialTable.mem_put.2 (Or.inl ⟨ht', hk⟩), rfl, hb⟩

theorem samePublic_withArgument {t : TicketRow} {a : ArgumentRow} (ht : db.FreshTicket t.id)
    (hold : ∀ b ∈ db.publicArguments, b.id ≠ a.id) (hnew : ¬ db.PublicDebate a.debateId) :
    SamePublic db (db.withArgument t a) := by
  have hdebates : (db.withArgument t a).publicDebates = db.publicDebates :=
    List.filter_congr fun d hd =>
      decide_eq_decide.2 (onBoard_withArgument (ht.debate d hd) .accepted)
  have hiff : ∀ n, (db.withArgument t a).PublicDebate n ↔ db.PublicDebate n := by
    intro n
    unfold Database.PublicDebate
    rw [hdebates]
  have harguments : (db.withArgument t a).publicArguments = db.publicArguments := by
    refine SerialTable.filter_put ?_ (fun x hx hid => ?_) fun x hx _ => ?_
    · exact decide_eq_false fun h => hnew ((hiff _).1 h.2)
    · exact decide_eq_false fun h => hold x (mem_publicArguments.2 ⟨hx, h⟩) hid
    · refine decide_eq_decide.2 (and_congr ?_ (hiff _))
      refine exists_congr fun k => and_congr_right fun hk => onBoard_withArgument ?_ .accepted
      rintro rfl
      exact ht.argument x hx hk
  refine ⟨rfl, rfl, rfl, hdebates, harguments, ?_, ?_⟩
  · unfold Database.publicTickets
    rw [hdebates, harguments]
    refine SerialTable.filter_put (decide_eq_false ?_) (fun x hx hid => ?_) fun x _ _ => rfl
    · rintro (⟨d, hd, hid⟩ | ⟨b, hb, hid⟩)
      · exact ht.debate d (mem_publicDebates.1 hd).1 hid
      · exact ht.argument b (mem_publicArguments.1 hb).1 hid
    · exact absurd hid (ht.ticket x hx)
  · exact List.filter_congr fun x _ => decide_eq_decide.2 (hiff x.debateId)

theorem Database.ForeignKeys.withArgument (h : db.ForeignKeys) {t : TicketRow} {a : ArgumentRow}
    (ht : ∃ u ∈ db.users.rows, u.id = t.createdBy) (ha : ∃ u ∈ db.users.rows, u.id = a.createdBy)
    (hd : ∃ d ∈ db.debates.rows, d.id = a.debateId) : (db.withArgument t a).ForeignKeys where
  ticket_createdBy := by
    intro x hx
    rcases SerialTable.mem_put.1 hx with ⟨hx, -⟩ | rfl
    · exact h.ticket_createdBy x hx
    · exact ht
  assocDebateTag_debate := h.assocDebateTag_debate
  argument_debate := by
    intro x hx
    rcases SerialTable.mem_put.1 hx with ⟨hx, -⟩ | rfl
    · exact h.argument_debate x hx
    · exact hd
  argument_createdBy := by
    intro x hx
    rcases SerialTable.mem_put.1 hx with ⟨hx, -⟩ | rfl
    · exact h.argument_createdBy x hx
    · exact ha
  ticketComment_ticket := by
    intro c hc
    obtain ⟨x, hx, hid⟩ := h.ticketComment_ticket c hc
    obtain ⟨y, hy, hyid⟩ := SerialTable.exists_mem_put (r := t) hx
    exact ⟨y, hy, hyid.trans hid⟩
  ticketComment_commenter := h.ticketComment_commenter

/-! ## What the answers show -/

theorem getDebatesReducer_ok (acc : DebateBody) {crt : DebateArgument} {title : String}
    (h : crt.debateTitle = some title) (hne : title ≠ "") :
    ∃ args, getDebatesReducer acc crt = .ok ⟨some ⟨crt.debateId, title⟩, args⟩ := by
  unfold getDebatesReducer
  rw [h, Option.filter_some_pos (by simpa using hne)]
  exact ⟨_, rfl⟩

theorem foldlM_getDebatesReducer_ok {rows : List DebateArgument} {title : String}
    (h : ∀ r ∈ rows, r.debateTitle = some title) (hne : title ≠ "") (acc : DebateBody) :
    ∃ body, rows.foldlM getDebatesReducer acc = .ok body := by
  induction rows generalizing acc with
  | nil => exact ⟨acc, rfl⟩
  | cons r rows ih =>
    rw [List.forall_mem_cons] at h
    obtain ⟨args, hr⟩ := getDebatesReducer_ok acc h.1 hne
    rw [List.foldlM_cons, hr]
    exact ih h.2 _

/-- All rows carry the title of the debate: it is found. -/
theorem getDebates_found {rows : List DebateArgument} (debateId : Int) {title : String}
    (h : ∀ r ∈ rows, r.debateTitle = some title) (hne : title ≠ "") :
    ∃ args, getDebates (rows ++ [.sentinel debateId (some title)]) =
      .ok ⟨some ⟨debateId, title⟩, args⟩ := by
  obtain ⟨body, hbody⟩ := foldlM_getDebatesReducer_ok h hne ⟨none, []⟩
  have htitle : (DebateArgument.sentinel debateId (some title)).debateTitle = some title := rfl
  obtain ⟨args, hlast⟩ := getDebatesReducer_ok body htitle hne
  refine ⟨args, ?_⟩
  unfold getDebates
  rw [List.foldlM_append, hbody]
  show (List.foldlM getDebatesReducer body [_]) = _
  rw [List.foldlM_cons, hlast]
  rfl

/-- The metadata are those of the last row. -/
theorem getDebates_metadata {rows : List DebateArgument} {debateId : Int} {title : Option String}
    {body : DebateBody} (h : getDebates (rows ++ [.sentinel debateId title]) = .ok body) :
    ∃ t, title = some t ∧ body.metadata = some ⟨debateId, t⟩ := by
  unfold getDebates at h
  rw [List.foldlM_append, except_bind_eq_ok] at h
  obtain ⟨acc, -, h⟩ := h
  rw [List.foldlM_cons, except_bind_eq_ok] at h
  obtain ⟨last, hlast, h⟩ := h
  cases h
  unfold getDebatesReducer at hlast
  split at hlast
  · cases hlast
  · next t ht =>
    cases hlast
    exact ⟨t, (Option.filter_eq_some_iff.1 ht).1, rfl⟩

section Answers

variable {id debateId argumentId : String} {x y : JsNumber} {n m : Int}

theorem getDebate_found {d : DebateRow} (hid : parseIntPipe id = some x) (hx : int4 x = .ok d.id)
    (hd : d ∈ db.debates.rows) (hne : d.title ≠ "") :
    ∃ args, DebatesController.getDebate id db = .ok ⟨some ⟨d.id, d.title⟩, args⟩ := by
  have hfind : db.debates.find? d.id = some d := SerialTable.find?_eq_some.2 ⟨hd, rfl⟩
  have hrows : ∀ r ∈ (selectWhere (debateArgumentsWhere d.id) (joinedArguments db)).map
      (fun q => { DebateArgument.ofRow q.1.1.1 q.1.2 q.2 with title := some q.1.1.1.title }),
      r.debateTitle = some d.title := by
    intro r hr
    obtain ⟨⟨⟨⟨a, t⟩, d'⟩, u⟩, hq, rfl⟩ := List.mem_map.1 hr
    obtain ⟨hq, hw⟩ := mem_selectWhere.1 hq
    rw [joinedArguments_eq, List.mem_filterMap] at hq
    obtain ⟨a', -, hrow⟩ := hq
    obtain ⟨rfl, -, ⟨hd', hdid⟩, -⟩ := joinedArgument_eq_some.1 hrow
    simp only [debateArgumentsWhere, Truth.holds_and, Truth.holds_eq_some, Bool.and_eq_true,
      decide_eq_true_eq, Option.some.injEq] at hw
    rw [SerialTable.eq_of_rowId_eq hd' hd (hdid.trans hw.1)]
    rfl
  -- the rows of `getDebateArguments` end in one that carries the title and no argument
  obtain ⟨args, hargs⟩ := getDebates_found d.id hrows hne
  refine ⟨args, ?_⟩
  simp only [DebatesController.getDebate, hid, getDebateArguments, hx, hfind, Option.map_some]
  split
  · next e he => cases he.symm.trans hargs
  · next data hdata => rw [Except.ok.inj (hdata.symm.trans hargs)]

theorem getDebate_metadata {body : DebateBody} (hid : parseIntPipe id = some x)
    (hx : int4 x = .ok n) (h : DebatesController.getDebate id db = .ok body) :
    ∃ d ∈ db.debates.rows, d.id = n ∧ body.metadata = some ⟨n, d.title⟩ := by
  simp only [DebatesController.getDebate, hid, getDebateArguments, hx] at h
  split at h
  · next e he => cases e <;> cases h
  · next data hdata =>
    cases h
    obtain ⟨t, ht, hmeta⟩ := getDebates_metadata hdata
    obtain ⟨d, hd, rfl⟩ := Option.map_eq_some_iff.1 ht
    obtain ⟨hmem, hdid⟩ := SerialTable.find?_eq_some.1 hd
    exact ⟨d, hmem, hdid, hmeta⟩

theorem getDebateArgument_title {arg : DebateArgument} (hd : parseIntPipe debateId = some x)
    (hx : int4 x = .ok n) (ha : parseIntPipe argumentId = some y) (hy : int4 y = .ok m)
    (h : DebatesController.getDebateArgument debateId argumentId db = .ok arg) :
    ∃ a ∈ db.arguments.rows, a.id = m ∧ arg.title = some a.title := by
  simp only [DebatesController.getDebateArgument, hd, ha, getDebateArgument, hx, hy] at h
  split at h
  · next e he => cases he
  · cases h
  · next r rows hrows =>
    obtain rfl := HttpResponse.ok.inj h
    have hmem : r ∈ r :: rows := List.mem_cons_self
    rw [← Except.ok.inj hrows] at hmem
    obtain ⟨⟨⟨⟨a, t⟩, d⟩, u⟩, hq, rfl⟩ := List.mem_map.1 hmem
    obtain ⟨hq, hw⟩ := mem_selectWhere.1 hq
    rw [joinedArguments_eq, List.mem_filterMap] at hq
    obtain ⟨a', ha', hrow⟩ := hq
    obtain ⟨rfl, -⟩ := joinedArgument_eq_some.1 hrow
    exact ⟨a', ha', (debateArgumentWhere_holds.1 hw).2.2, rfl⟩

theorem getDebateArgument_found {a : ArgumentRow} {t : TicketRow} {d : DebateRow} {u : UserRow}
    (hd : parseIntPipe debateId = some x) (hx : int4 x = .ok a.debateId)
    (harg : parseIntPipe argumentId = some y) (hy : int4 y = .ok a.id)
    (ha : a ∈ db.arguments.rows) (ht : t ∈ db.tickets.rows) (hticket : a.ticketId = some t.id)
    (hacc : t.boardList = some .accepted) (hdebate : d ∈ db.debates.rows) (hdid : d.id = a.debateId)
    (hu : u ∈ db.users.rows) (huid : u.id = a.createdBy) :
    ∃ arg, DebatesController.getDebateArgument debateId argumentId db = .ok arg ∧
      arg.title = some a.title := by
  have hmem : (((a, t), d), u) ∈
      selectWhere (debateArgumentWhere a.debateId a.id) (joinedArguments db) := by
    refine mem_selectWhere.2 ⟨?_, debateArgumentWhere_holds.2 ⟨rfl, hacc, rfl⟩⟩
    rw [joinedArguments_eq, List.mem_filterMap]
    exact ⟨a, ha, joinedArgument_eq_some.2 ⟨rfl, ⟨ht, hticket⟩, ⟨hdebate, hdid⟩, hu, huid⟩⟩
  obtain ⟨q, qs, hqs⟩ := List.exists_cons_of_ne_nil (List.ne_nil_of_mem hmem)
  have hok : ∃ arg, DebatesController.getDebateArgument debateId argumentId db = .ok arg := by
    simp only [DebatesController.getDebateArgument, hd, harg, getDebateArgument, hx, hy, hqs,
      List.map_cons]
    exact ⟨_, rfl⟩
  obtain ⟨arg, hok⟩ := hok
  obtain ⟨b, hb, hid, htitle⟩ := getDebateArgument_title hd hx harg hy hok
  rw [SerialTable.eq_of_rowId_eq hb ha hid] at htitle
  exact ⟨arg, hok, htitle⟩

end Answers

/-! ## The characterisation -/

theorem leak_getDebate (hfk : db.ForeignKeys) {id : String} {x : JsNumber} {n : Int}
    (hid : parseIntPipe id = some x) (hx : int4 x = .ok n) (hn : ¬ db.PublicDebate n) :
    ∃ db' : Database, db'.ForeignKeys ∧ SamePublic db db' ∧
      (PublicRequest.getDebate id).respond db' ≠ (PublicRequest.getDebate id).respond db := by
  -- a debate under a ticket that does not exist, titled other than the one that is answered now
  obtain ⟨k, hk⟩ := exists_freshTicket db
  let old : String := ((db.debates.find? n).map DebateRow.title).getD ""
  let d : DebateRow := ⟨n, k, otherTitle old, 0, 0, 0⟩
  have hnot : ¬ db.DebateAccepted d := fun ⟨t, ht, htid, _⟩ => hk.ticket t ht htid
  refine ⟨db.withDebate d, hfk.withDebate d, samePublic_withDebate hn hnot, fun heq => ?_⟩
  have hd : d ∈ (db.withDebate d).debates.rows := SerialTable.put_mem db.debates d
  obtain ⟨args, hnew⟩ := getDebate_found hid hx hd (otherTitle_ne_empty old)
  simp only [PublicRequest.respond, hnew, HttpResponse.map] at heq
  cases hold : DebatesController.getDebate id db with
  | error status message => simp [hold] at heq
  | ok body =>
    obtain ⟨d', hd', hdid, hmeta⟩ := getDebate_metadata hid hx hold
    have hfind : db.debates.find? n = some d' := SerialTable.find?_eq_some.2 ⟨hd', hdid⟩
    have htitle : old = d'.title := by simp [old, hfind]
    simp only [hold, HttpResponse.ok.injEq, PublicData.debate.injEq] at heq
    rw [← heq] at hmeta
    simp only [Option.some.injEq, DebateMetadata.mk.injEq] at hmeta
    exact otherTitle_ne old (hmeta.2.trans htitle.symm)

theorem leak_getDebateArgument (hfk : db.ForeignKeys) {debateId argumentId : String}
    {x y : JsNumber} {n m : Int} (hd : parseIntPipe debateId = some x) (hx : int4 x = .ok n)
    (ha : parseIntPipe argumentId = some y) (hy : int4 y = .ok m) (hn : ¬ db.PublicDebate n)
    (hm : ¬ db.PublicArgument m) :
    ∃ db' : Database, db'.ForeignKeys ∧ SamePublic db db' ∧
      (PublicRequest.getDebateArgument debateId argumentId).respond db' ≠
        (PublicRequest.getDebateArgument debateId argumentId).respond db := by
  obtain ⟨hpublic, husers⟩ := not_or.1 hm
  obtain ⟨u, hu⟩ := List.exists_mem_of_ne_nil _ husers
  -- first an unpublished debate, then an accepted argument of it
  obtain ⟨k, hk⟩ := exists_freshTicket db
  let d : DebateRow := ⟨n, k, "", 0, 0, 0⟩
  have hnot : ¬ db.DebateAccepted d := fun ⟨t, ht, htid, _⟩ => hk.ticket t ht htid
  have hsame := samePublic_withDebate (d := d) hn hnot
  obtain ⟨k', hk'⟩ := exists_freshTicket (db.withDebate d)
  let old : String := ((db.arguments.find? m).map ArgumentRow.title).getD ""
  let t : TicketRow := ⟨k', u.id, none, some .accepted⟩
  let a : ArgumentRow := ⟨m, n, some k', otherTitle old, "", none, u.id, 0, none, none⟩
  let db' := (db.withDebate d).withArgument t a
  have hd' : d ∈ db'.debates.rows := SerialTable.put_mem db.debates d
  have hsame' : SamePublic (db.withDebate d) db' := by
    refine samePublic_withArgument hk' (fun b hb hid => hpublic ⟨b, ?_, hid⟩) ?_
    · rwa [hsame.arguments] at hb
    · exact (hsame.publicDebate n).not.2 hn
  refine ⟨db', (hfk.withDebate d).withArgument ⟨u, hu, rfl⟩ ⟨u, hu, rfl⟩ ⟨d, hd', rfl⟩,
    hsame.trans hsame', fun heq => ?_⟩
  have ha' : a ∈ db'.arguments.rows := SerialTable.put_mem db.arguments a
  have ht' : t ∈ db'.tickets.rows := SerialTable.put_mem db.tickets t
  have hu' : u ∈ db'.users.rows := hu
  obtain ⟨arg, hnew, htitle⟩ :=
    getDebateArgument_found hd hx ha hy ha' ht' rfl rfl hd' rfl hu' rfl
  simp only [PublicRequest.respond, hnew, HttpResponse.map] at heq
  cases hold : DebatesController.getDebateArgument debateId argumentId db with
  | error status message => simp [hold] at heq
  | ok arg' =>
    obtain ⟨b, hb, hbid, htitle'⟩ := getDebateArgument_title hd hx ha hy hold
    have hfind : db.arguments.find? m = some b := SerialTable.find?_eq_some.2 ⟨hb, hbid⟩
    have hold' : old = b.title := by simp [old, hfind]
    simp only [hold, HttpResponse.ok.injEq, PublicData.argument.injEq] at heq
    rw [heq, htitle', Option.some.injEq] at htitle
    exact otherTitle_ne old (htitle.symm.trans hold'.symm)

/-- **Which public requests the published part decides.** All databases that agree on it answer
    the request alike exactly when it does not ask by id for an unpublished debate, or for an
    argument of one. -/
theorem public_requests_iff (hfk : db.ForeignKeys) (r : PublicRequest) :
    Determined Database.ForeignKeys SamePublic r.respond db ↔ r.AsksPublished db := by
  refine determined_iff (fun hr db' _ hsame => hsame.respond hr) fun hr => ?_
  cases r with
  | getAll filters => exact absurd trivial hr
  | getDebate id =>
    simp only [PublicRequest.AsksPublished, not_forall] at hr
    obtain ⟨x, n, hid, hx, hn⟩ := hr
    exact leak_getDebate hfk hid hx hn
  | getDebateArgument debateId argumentId =>
    simp only [PublicRequest.AsksPublished, not_forall, not_or] at hr
    obtain ⟨x, n, y, m, hd, hx, ha, hy, hn, hm⟩ := hr
    exact leak_getDebateArgument hfk hd hx ha hy hn hm

/-! ## A debate that nobody has reviewed -/

/-- The user proposes debate 1, whose ticket stays PENDING. -/
def pendingDebate (title : String) : Database :=
  run step (.empty id) (createUsers ++ [.createDebate 1 testUser ⟨title, [], none⟩])

theorem pendingDebate_eq (title : String) : pendingDebate title =
    run step (Database.withUsers id) [.createDebate 1 testUser ⟨title, [], none⟩] :=
  run_createUsers_append id _

theorem pendingDebate_foreignKeys : (pendingDebate "Title").ForeignKeys := by
  rw [pendingDebate_eq]
  decide +kernel

theorem public_requests_iff_sample :
    Determined Database.ForeignKeys SamePublic (PublicRequest.getDebate "1").respond
        (pendingDebate "Title") ↔
      (PublicRequest.getDebate "1").AsksPublished (pendingDebate "Title") :=
  public_requests_iff pendingDebate_foreignKeys _

/-- `GET /debates/1` shows the title of a PENDING debate. -/
theorem getDebate_shows_pending :
    ¬ ∀ db db' : Database, db.ForeignKeys → db'.ForeignKeys → SamePublic db db' →
      ∀ r : PublicRequest, r.respond db' = r.respond db := by
  intro h
  have hfk : (pendingDebate "Another title").ForeignKeys := by
    rw [pendingDebate_eq]
    decide +kernel
  have hsame : SamePublic (pendingDebate "Title") (pendingDebate "Another title") :=
    ⟨rfl, rfl, rfl, rfl, rfl, rfl, rfl⟩
  have heq := h _ _ pendingDebate_foreignKeys hfk hsame (.getDebate "1")
  rw [pendingDebate_eq, pendingDebate_eq] at heq
  exact absurd heq (by decide +kernel)

end DecentDebates

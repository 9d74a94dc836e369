import DecentDebates.Linkage

set_option autoImplicit false

/-! # What one call can do

`Effect db c db'` lists, constructor by constructor, every change a call can make to the tickets,
debates and arguments, with the guards under which it makes it and the values it writes.
`step_effect` proves the list complete. Every invariant and every frame property of the system is a
case analysis over it; the service functions are not unfolded again. -/

namespace DecentDebates

open Relational

variable {db db' : Database}

/-! ## Statements that commit -/

theorem insertTicket_eq_ok {createdBy id : Int} :
    insertTicket createdBy db = .ok (id, db') ↔
      db.tickets.next ≤ int4Max ∧ (∃ u ∈ db.users.rows, u.id = createdBy) ∧ id = db.tickets.next ∧
        db' = { db with
          tickets := db.tickets.insert fun id => ⟨id, createdBy, none, some .pending⟩ } := by
  simp only [insertTicket, PENDING_BOARD_LIST, Sql.bind_eq_ok, Sql.get_eq_ok, Sql.lift_eq_ok,
    Sql.check_eq_ok, boardListType_eq_ok, label_eq_pending, Sql.set_eq_ok, Sql.pure_eq_ok,
    List.any_eq_true, decide_eq_true_eq]
  constructor
  · rintro ⟨_, _, ⟨rfl, rfl⟩, _, _, ⟨rfl, rfl⟩, _, _, ⟨hn, rfl⟩, _, _, ⟨hu, rfl⟩, _, _, rfl, rfl,
      rfl⟩
    exact ⟨hn, hu, rfl, rfl⟩
  · rintro ⟨hn, hu, rfl, rfl⟩
    exact ⟨_, _, ⟨rfl, rfl⟩, _, _, ⟨rfl, rfl⟩, (), _, ⟨hn, rfl⟩, (), _, ⟨hu, rfl⟩, ⟨⟩, _, rfl,
      rfl, rfl⟩

theorem insertDebate_eq_ok {now : Timestamp} {ticketId createdBy id : Int} {title : String} :
    insertDebate now ticketId title createdBy db = .ok (id, db') ↔
      ∃ title', db.debates.next ≤ int4Max ∧ varchar 80 title = .ok title' ∧ id = db.debates.next ∧
        db' = { db with
          debates := db.debates.insert fun id => ⟨id, ticketId, title', now, now, createdBy⟩ } := by
  simp only [insertDebate, Sql.bind_eq_ok, Sql.get_eq_ok, Sql.lift_eq_ok, Sql.check_eq_ok,
    Sql.set_eq_ok, Sql.pure_eq_ok, decide_eq_true_eq]
  constructor
  · rintro ⟨_, _, ⟨rfl, rfl⟩, title', _, ⟨ht, rfl⟩, _, _, ⟨hn, rfl⟩, _, _, rfl, rfl, rfl⟩
    exact ⟨title', hn, ht, rfl, rfl⟩
  · rintro ⟨title', hn, ht, rfl, rfl⟩
    exact ⟨_, _, ⟨rfl, rfl⟩, title', _, ⟨ht, rfl⟩, (), _, ⟨hn, rfl⟩, ⟨⟩, _, rfl, rfl, rfl⟩

/-- The row the positional inserts write. -/
def CreateArgumentData.row (d : CreateArgumentData) (now : Timestamp) (debateId : Int)
    (c : ArgumentColumns) (ticketId : Option Int) (isDraft : Bool) (id : Int) : ArgumentRow :=
  ⟨id, debateId, ticketId, c.title, c.content, c.counterargumentTo, d.user.id, now, some c.type,
    some isDraft⟩

theorem insertArgument_eq_ok {now : Timestamp} {d : CreateArgumentData} {ticketId : Option Int}
    {isDraft : Bool} {id : Int} :
    insertArgument now d ticketId isDraft db = .ok (id, db') ↔
      ∃ debateId c, int4 d.debateId = .ok debateId ∧ d.argumentDetails.columns = .ok c ∧
        db.arguments.next ≤ int4Max ∧ (∃ x ∈ db.debates.rows, x.id = debateId) ∧
        (∃ u ∈ db.users.rows, u.id = d.user.id) ∧ id = db.arguments.next ∧
        db' = { db with
          arguments := db.arguments.insert (d.row now debateId c ticketId isDraft) } := by
  simp only [insertArgument, Sql.bind_eq_ok, Sql.get_eq_ok, Sql.lift_eq_ok, Sql.check_eq_ok,
    Sql.set_eq_ok, Sql.pure_eq_ok, List.any_eq_true, decide_eq_true_eq]
  constructor
  · rintro ⟨_, _, ⟨rfl, rfl⟩, debateId, _, ⟨hd, rfl⟩, c, _, ⟨hc, rfl⟩, _, _, ⟨hn, rfl⟩, _, _,
      ⟨hx, rfl⟩, _, _, ⟨hu, rfl⟩, _, _, rfl, rfl, rfl⟩
    exact ⟨debateId, c, hd, hc, hn, hx, hu, rfl, rfl⟩
  · rintro ⟨debateId, c, hd, hc, hn, hx, hu, rfl, rfl⟩
    exact ⟨_, _, ⟨rfl, rfl⟩, debateId, _, ⟨hd, rfl⟩, c, _, ⟨hc, rfl⟩, (), _, ⟨hn, rfl⟩, (), _,
      ⟨hx, rfl⟩, (), _, ⟨hu, rfl⟩, ⟨⟩, _, rfl, rfl, rfl⟩

theorem createArgumentSql_eq_ok {now : Timestamp} {d : CreateArgumentData} {ticketId : Int} :
    createArgumentSql now d db = .ok (ticketId, db') ↔
      ∃ debateId c, int4 d.debateId = .ok debateId ∧ d.argumentDetails.columns = .ok c ∧
        db.tickets.next ≤ int4Max ∧ db.arguments.next ≤ int4Max ∧
        (∃ x ∈ db.debates.rows, x.id = debateId) ∧ (∃ u ∈ db.users.rows, u.id = d.user.id) ∧
        ticketId = db.tickets.next ∧
        db' = { db with
          tickets := db.tickets.insert fun id => ⟨id, d.user.id, none, some .pending⟩
          arguments :=
            db.arguments.insert (d.row now debateId c (some db.tickets.next) false) } := by
  simp only [createArgumentSql, Sql.bind_eq_ok, insertTicket_eq_ok, insertArgument_eq_ok,
    Sql.pure_eq_ok]
  constructor
  · rintro ⟨_, _, ⟨ht, -, rfl, rfl⟩, _, _, ⟨debateId, c, hd, hc, hn, hx, hu, rfl, rfl⟩, rfl, rfl⟩
    exact ⟨debateId, c, hd, hc, ht, hn, hx, hu, rfl, rfl⟩
  · rintro ⟨debateId, c, hd, hc, ht, hn, hx, hu, rfl, rfl⟩
    exact ⟨_, _, ⟨ht, hu, rfl, rfl⟩, _, _, ⟨debateId, c, hd, hc, hn, hx, hu, rfl, rfl⟩, rfl, rfl⟩

/-- Inserting tags adds them to their table, one for each name, and touches no other. -/
theorem mapM_insertTag_ok {names : List String} {ids : List Int}
    (h : names.mapM insertTag db = .ok (ids, db')) :
    ∃ created tags, List.Forall₂ (fun name g => varchar 30 name = .ok g.name) names created ∧
      ids = created.map DebateTagRow.id ∧ tags.rows = db.debateTags.rows ++ created ∧
      (∀ g ∈ created, db.debateTags.next ≤ g.id) ∧ db.debateTags.next ≤ tags.next ∧
      db' = { db with debateTags := tags } := by
  induction names generalizing db ids with
  | nil =>
    simp only [List.mapM_nil, Sql.pure_eq_ok] at h
    obtain ⟨rfl, rfl⟩ := h
    exact ⟨[], db.debateTags, .nil, rfl, (List.append_nil _).symm, by simp, Int.le_refl _, rfl⟩
  | cons name names ih =>
    simp only [List.mapM_cons, Sql.bind_eq_ok, Sql.pure_eq_ok] at h
    obtain ⟨id, db₁, hone, ids', db₂, hrest, rfl, rfl⟩ := h
    simp only [insertTag, Sql.bind_eq_ok, Sql.get_eq_ok, Sql.lift_eq_ok, Sql.check_eq_ok,
      Sql.set_eq_ok, Sql.pure_eq_ok] at hone
    obtain ⟨_, _, ⟨rfl, rfl⟩, name', _, ⟨hname, rfl⟩, _, _, ⟨-, rfl⟩, _, _, rfl, rfl, rfl⟩ := hone
    obtain ⟨created, tags, hnames, rfl, hrows, hids, hnext, rfl⟩ := ih hrest
    rw [SerialTable.next_insert] at hids hnext
    refine ⟨⟨db.debateTags.next, name'⟩ :: created, tags, .cons hname hnames, rfl, ?_, ?_, by omega,
      rfl⟩
    · rw [hrows, SerialTable.rows_insert, List.append_assoc, List.singleton_append]
    · refine List.forall_mem_cons.2 ⟨Int.le_refl _, fun g hg => ?_⟩
      have := hids g hg
      omega

theorem mapM_text_ok {names names' : List String} (h : names.mapM text = .ok names') :
    names' = names ∧ ∀ name ∈ names, IsText name := by
  rw [mapM_eq_ok] at h
  induction h with
  | nil => simp
  | cons hname _ ih =>
    unfold text at hname
    split at hname
    · next htext =>
      obtain ⟨rfl, hall⟩ := ih
      obtain rfl := Except.ok.inj hname
      exact ⟨rfl, List.forall_mem_cons.2 ⟨htext, hall⟩⟩
    · cases hname

/-- The tags stored for a proposal are those of the names that are new. -/
theorem createTags_ok {createdTags : Option (List String)} {ids : List Int}
    (h : createTags createdTags db = .ok (ids, db')) :
    ∃ created tags, (∀ name ∈ createdTags.getD [], IsText name) ∧
      List.Forall₂ (fun name g => varchar 30 name = .ok g.name)
        (newTagNames db (createdTags.getD [])) created ∧
      ids = created.map DebateTagRow.id ∧ tags.rows = db.debateTags.rows ++ created ∧
      (∀ g ∈ created, db.debateTags.next ≤ g.id) ∧ db.debateTags.next ≤ tags.next ∧
      db' = { db with debateTags := tags } := by
  cases createdTags with
  | some names =>
    simp only [createTags, insertTags, Sql.bind_eq_ok, Sql.get_eq_ok, Sql.lift_eq_ok] at h
    obtain ⟨names', _, ⟨htext, rfl⟩, _, _, ⟨rfl, rfl⟩, h⟩ := h
    obtain ⟨rfl, hall⟩ := mapM_text_ok htext
    obtain ⟨created, tags, h⟩ := mapM_insertTag_ok h
    exact ⟨created, tags, hall, h⟩
  | none =>
    rw [createTags, Sql.pure_eq_ok] at h
    obtain ⟨rfl, rfl⟩ := h
    exact ⟨[], db.debateTags, by simp, .nil, rfl, (List.append_nil _).symm, by simp, Int.le_refl _,
      rfl⟩

theorem insertAssocDebateTags_eq_ok {debateId : Int} {tagsIds : List JsNumber} {u : Unit} :
    insertAssocDebateTags debateId tagsIds db = .ok (u, db') ↔
      ∃ ids assoc, tagsIds.mapM int4 = .ok ids ∧
        assoc.rows = db.assocDebateTags.rows ++ ids.map (fun id => ⟨debateId, id⟩) ∧
        db' = { db with assocDebateTags := assoc } := by
  simp only [insertAssocDebateTags, Sql.bind_eq_ok, Sql.get_eq_ok, Sql.lift_eq_ok]
  constructor
  · rintro ⟨_, _, ⟨rfl, rfl⟩, ids, _, ⟨hids, rfl⟩, h⟩
    split at h
    · exact ⟨ids, ⟨_, ‹_›⟩, hids, rfl, (Sql.set_eq_ok.1 h).symm⟩
    · rw [Sql.lift_eq_ok] at h
      exact absurd h.1 (by simp [throw, throwThe, MonadExceptOf.throw])
  · rintro ⟨ids, assoc, hids, hassoc, rfl⟩
    refine ⟨_, _, ⟨rfl, rfl⟩, ids, _, ⟨hids, rfl⟩, ?_⟩
    obtain ⟨rows, hnodup⟩ := assoc
    subst hassoc
    rw [dif_pos hnodup]
    exact Sql.set_eq_ok.2 rfl

/-! ## The rows a `WHERE` clause addresses -/

@[simp] theorem updateDraftWhere_holds {debateId userId draftId : Int} {a : ArgumentRow} :
    (updateDraftWhere debateId userId draftId a).holds = true ↔
      a.debateId = debateId ∧ a.createdBy = userId ∧ a.id = draftId ∧ a.isDraft = some true := by
  simp [updateDraftWhere, and_assoc]

@[simp] theorem submitDraftWhere_holds {draftId debateId userId : Int} {a : ArgumentRow} :
    (submitDraftWhere draftId debateId userId a).holds = true ↔
      a.id = draftId ∧ a.debateId = debateId ∧ a.createdBy = userId := by
  simp [submitDraftWhere, and_assoc]

@[simp] theorem updateArgumentWhere_holds {argumentId userId : Int} {a : ArgumentRow}
    {t : TicketRow} :
    (updateArgumentWhere argumentId userId a t).holds = true ↔
      a.id = argumentId ∧ a.createdBy = userId ∧
        (t.boardList ≠ none ∧ t.boardList ≠ some .accepted) ∧ a.ticketId = some t.id := by
  simp [updateArgumentWhere, and_assoc]

@[simp] theorem updateDebateWhere_holds {debateId userId : Int} {d : DebateRow} {t : TicketRow} :
    (updateDebateWhere debateId userId d t).holds = true ↔
      d.id = debateId ∧ d.createdBy = userId ∧ d.ticketId = t.id ∧
        (t.boardList ≠ none ∧ t.boardList ≠ some .accepted) := by
  simp [updateDebateWhere, and_assoc]

@[simp] theorem updateTicketWhere_holds {ticketId userId : Int} {t : TicketRow} :
    (updateTicketWhere ticketId userId t).holds = true ↔
      t.id = ticketId ∧ (t.boardList = some .pending ∨
        (t.boardList ≠ none ∧ t.boardList ≠ some .pending) ∧ t.assignedTo = some userId) := by
  simp [updateTicketWhere]

@[simp] theorem approveTicketWhere_holds {ticketId userId : Int} {t : TicketRow} :
    (approveTicketWhere ticketId userId t).holds = true ↔
      t.id = ticketId ∧ t.assignedTo = some userId := by
  simp [approveTicketWhere]

/-! ## The updates -/

theorem ArgumentRow.id_setColumns (c : ArgumentColumns) :
    ∀ a : ArgumentRow, SerialRow.rowId (a.setColumns c) = SerialRow.rowId a :=
  fun _ => rfl

/-- The database after an update of a draft that commits. -/
def Database.redrafted (db : Database) (userId : Int) (c : ArgumentColumns)
    (debateId draftId : Int) : Database :=
  { db with
    arguments := db.arguments.updateWhere
      (fun a => (updateDraftWhere debateId userId draftId a).holds) (.setColumns c)
      (ArgumentRow.id_setColumns c) }

theorem updateDraftSql_eq_ok {d : UpdateDraftData} {n : Nat} :
    updateDraftSql d db = .ok (n, db') ↔
      ∃ c debateId draftId, d.draftData.columns = .ok c ∧ int4 d.debateId = .ok debateId ∧
        int4 d.draftId = .ok draftId ∧ db' = db.redrafted d.user.id c debateId draftId ∧
        n = db.arguments.rows.countP fun a =>
          (updateDraftWhere debateId d.user.id draftId a).holds := by
  simp only [updateDraftSql, Sql.bind_eq_ok, Sql.get_eq_ok, Sql.lift_eq_ok, Sql.set_eq_ok,
    Sql.pure_eq_ok]
  constructor
  · rintro ⟨_, _, ⟨rfl, rfl⟩, c, _, ⟨hc, rfl⟩, debateId, _, ⟨hd, rfl⟩, draftId, _, ⟨hi, rfl⟩, _, _,
      rfl, rfl, rfl⟩
    exact ⟨c, debateId, draftId, hc, hd, hi, rfl, rfl⟩
  · rintro ⟨c, debateId, draftId, hc, hd, hi, rfl, rfl⟩
    exact ⟨_, _, ⟨rfl, rfl⟩, c, _, ⟨hc, rfl⟩, debateId, _, ⟨hd, rfl⟩, draftId, _, ⟨hi, rfl⟩, ⟨⟩, _,
      rfl, rfl, rfl⟩

/-- The database after a submission that commits. -/
def Database.submitted (db : Database) (userId : Int) (c : ArgumentColumns)
    (draftId debateId : Int) : Database :=
  { db with
    tickets := db.tickets.insert fun id => ⟨id, userId, none, some .pending⟩
    arguments := db.arguments.updateWhere
      (fun a => (submitDraftWhere draftId debateId userId a).holds) (.submit c db.tickets.next) }

theorem submitDraftSql_eq_ok {d : SubmitDraftData} {u : Unit} :
    submitDraftSql d db = .ok (u, db') ↔
      ∃ c draftId debateId, d.Storable db c draftId debateId ∧
        db' = db.submitted d.user.id c draftId debateId := by
  simp only [submitDraftSql, Sql.bind_eq_ok, insertTicket_eq_ok, Sql.get_eq_ok, Sql.lift_eq_ok,
    Sql.set_eq_ok]
  constructor
  · rintro ⟨_, _, ⟨hn, hu, rfl, rfl⟩, _, _, ⟨rfl, rfl⟩, c, _, ⟨hc, rfl⟩, draftId, _, ⟨hi, rfl⟩,
      debateId, _, ⟨hd, rfl⟩, rfl⟩
    exact ⟨c, draftId, debateId, ⟨hc, hi, hd, hn, hu⟩, rfl⟩
  · rintro ⟨c, draftId, debateId, ⟨hc, hi, hd, hn, hu⟩, rfl⟩
    exact ⟨_, _, ⟨hn, hu, rfl, rfl⟩, _, _, ⟨rfl, rfl⟩, c, _, ⟨hc, rfl⟩, draftId, _, ⟨hi, rfl⟩,
      debateId, _, ⟨hd, rfl⟩, rfl⟩

theorem text_eq_ok {s s' : String} : text s = .ok s' ↔ IsText s ∧ s' = s := by
  unfold text
  split <;> simp_all [eq_comm]

theorem notNull_eq_ok {α : Type} {x : Option α} {a : α} : notNull x = .ok a ↔ x = some a := by
  cases x <;> simp [notNull]

theorem nullable_eq_ok_some {α β : Type} {f : α → Except SqlError β} {x : Option α} {b : β} :
    nullable f x = .ok (some b) ↔ ∃ a, x = some a ∧ f a = .ok b := by
  cases x with
  | none => simp [nullable]
  | some a => cases ha : f a <;> simp [nullable, ha, Except.map]

/-- An edit of an argument that touches a row stores its texts as the columns take them; one that
    touches none is not even looked at for missing texts. -/
theorem updateArgumentSql_eq_ok {d : UpdateArgumentData} {n : Nat} :
    updateArgumentSql d db = .ok (n, db') ↔
      ∃ title content argumentId, nullable (varchar 80) d.argumentData.title = .ok title ∧
        nullable text d.argumentData.content = .ok content ∧
        int4 d.argumentId = .ok argumentId ∧
        n = (db.arguments.rows.countP fun a => db.tickets.rows.any fun t =>
          (updateArgumentWhere argumentId d.user.id a t).holds) ∧
        (n = 0 ∧ db' = db ∨ n ≠ 0 ∧ ∃ title' content', title = some title' ∧
          content = some content' ∧ db' = { db with
            arguments := db.arguments.updateWhere
              (fun a => db.tickets.rows.any fun t =>
                (updateArgumentWhere argumentId d.user.id a t).holds)
              fun a => { a with title := title', content := content' } }) := by
  simp only [updateArgumentSql, Sql.bind_eq_ok, Sql.get_eq_ok, Sql.lift_eq_ok]
  constructor
  · rintro ⟨_, _, ⟨rfl, rfl⟩, title, _, ⟨htitle, rfl⟩, content, _, ⟨hcontent, rfl⟩, argumentId, _,
      ⟨hi, rfl⟩, h⟩
    refine ⟨title, content, argumentId, htitle, hcontent, hi, ?_⟩
    split at h
    · next hzero =>
      obtain ⟨rfl, rfl⟩ := Sql.pure_eq_ok.1 h
      exact ⟨hzero.symm, Or.inl ⟨rfl, rfl⟩⟩
    · next hpos =>
      simp only [Sql.bind_eq_ok, Sql.lift_eq_ok, Sql.set_eq_ok, Sql.pure_eq_ok, notNull_eq_ok] at h
      obtain ⟨title', _, ⟨rfl, rfl⟩, content', _, ⟨rfl, rfl⟩, _, _, rfl, rfl, rfl⟩ := h
      exact ⟨rfl, Or.inr ⟨hpos, title', content', rfl, rfl, rfl⟩⟩
  · rintro ⟨title, content, argumentId, htitle, hcontent, hi, rfl, h⟩
    refine ⟨_, _, ⟨rfl, rfl⟩, title, _, ⟨htitle, rfl⟩, content, _, ⟨hcontent, rfl⟩, argumentId, _,
      ⟨hi, rfl⟩, ?_⟩
    rcases h with ⟨hzero, rfl⟩ | ⟨hpos, title', content', rfl, rfl, rfl⟩
    · rw [if_pos hzero, hzero]
      rfl
    · rw [if_neg hpos]
      simp only [Sql.bind_eq_ok, Sql.lift_eq_ok, Sql.set_eq_ok, Sql.pure_eq_ok, notNull_eq_ok]
      exact ⟨title', _, ⟨rfl, rfl⟩, content', _, ⟨rfl, rfl⟩, ⟨⟩, _, rfl, trivial, rfl⟩

theorem updateArgumentSql_of_zero {d : UpdateArgumentData}
    (h : updateArgumentSql d db = .ok (0, db')) : db' = db := by
  obtain ⟨_, _, _, -, -, -, -, ⟨-, hdb⟩ | ⟨hpos, -⟩⟩ := updateArgumentSql_eq_ok.1 h
  · exact hdb
  · exact absurd rfl hpos

/-- An edit of an argument that touches a row. -/
theorem updateArgumentSql_eq_ok_of_ne_zero {d : UpdateArgumentData} {n : Nat} (hn : n ≠ 0) :
    updateArgumentSql d db = .ok (n, db') ↔
      ∃ given title content argumentId, d.argumentData.title = some given ∧
        varchar 80 given = .ok title ∧ d.argumentData.content = some content ∧ IsText content ∧
        int4 d.argumentId = .ok argumentId ∧
        n = (db.arguments.rows.countP fun a => db.tickets.rows.any fun t =>
          (updateArgumentWhere argumentId d.user.id a t).holds) ∧
        db' = { db with
          arguments := db.arguments.updateWhere
            (fun a => db.tickets.rows.any fun t =>
              (updateArgumentWhere argumentId d.user.id a t).holds)
            fun a => { a with title := title, content := content } } := by
  rw [updateArgumentSql_eq_ok]
  constructor
  · rintro ⟨_, _, argumentId, htitle, hcontent, hi, hcount, ⟨hzero, -⟩ | ⟨-, title, content, rfl, rfl,
      hdb⟩⟩
    · exact absurd hzero hn
    · obtain ⟨given, hgiven, htitle⟩ := nullable_eq_ok_some.1 htitle
      obtain ⟨given', hgiven', hcontent⟩ := nullable_eq_ok_some.1 hcontent
      obtain ⟨htext, rfl⟩ := text_eq_ok.1 hcontent
      exact ⟨given, title, content, argumentId, hgiven, htitle, hgiven', htext, hi, hcount, hdb⟩
  · rintro ⟨given, title, content, argumentId, hgiven, htitle, hcontent, htext, hi, hcount, hdb⟩
    exact ⟨some title, some content, argumentId, nullable_eq_ok_some.2 ⟨given, hgiven, htitle⟩,
      nullable_eq_ok_some.2 ⟨content, hcontent, text_eq_ok.2 ⟨htext, rfl⟩⟩, hi, hcount,
      Or.inr ⟨hn, title, content, rfl, rfl, hdb⟩⟩

theorem updateArgumentSql_ok {d : UpdateArgumentData} {n : Nat}
    (h : updateArgumentSql d db = .ok (n, db')) :
    ∃ title content argumentId, int4 d.argumentId = .ok argumentId ∧
      n = (db.arguments.rows.countP fun a => db.tickets.rows.any fun t =>
        (updateArgumentWhere argumentId d.user.id a t).holds) ∧
      db' = { db with
        arguments := db.arguments.updateWhere
          (fun a => db.tickets.rows.any fun t =>
            (updateArgumentWhere argumentId d.user.id a t).holds)
          fun a => { a with title := title, content := content } } := by
  obtain ⟨_, _, argumentId, -, -, hi, hcount, ⟨rfl, rfl⟩ | ⟨-, title, content, -, -, hdb⟩⟩ :=
    updateArgumentSql_eq_ok.1 h
  · refine ⟨"", "", argumentId, hi, hcount, ?_⟩
    rw [SerialTable.updateWhere_eq_self _ hcount.symm]
  · exact ⟨title, content, argumentId, hi, hcount, hdb⟩

/-- An edit of a debate, likewise. -/
theorem updateDebateSql_eq_ok {d : UpdateDebateData} {n : Nat} :
    updateDebateSql d db = .ok (n, db') ↔
      ∃ title debateId, nullable (varchar 80) d.title = .ok title ∧
        int4 d.debateId = .ok debateId ∧
        n = (db.debates.rows.countP fun x => db.tickets.rows.any fun t =>
          (updateDebateWhere debateId d.user.id x t).holds) ∧
        (n = 0 ∧ db' = db ∨ n ≠ 0 ∧ ∃ title', title = some title' ∧ db' = { db with
          debates := db.debates.updateWhere
            (fun x => db.tickets.rows.any fun t =>
              (updateDebateWhere debateId d.user.id x t).holds)
            fun x => { x with title := title' } }) := by
  simp only [updateDebateSql, Sql.bind_eq_ok, Sql.get_eq_ok, Sql.lift_eq_ok]
  constructor
  · rintro ⟨_, _, ⟨rfl, rfl⟩, title, _, ⟨htitle, rfl⟩, debateId, _, ⟨hi, rfl⟩, h⟩
    refine ⟨title, debateId, htitle, hi, ?_⟩
    split at h
    · next hzero =>
      obtain ⟨rfl, rfl⟩ := Sql.pure_eq_ok.1 h
      exact ⟨hzero.symm, Or.inl ⟨rfl, rfl⟩⟩
    · next hpos =>
      simp only [Sql.bind_eq_ok, Sql.lift_eq_ok, Sql.set_eq_ok, Sql.pure_eq_ok, notNull_eq_ok] at h
      obtain ⟨title', _, ⟨rfl, rfl⟩, _, _, rfl, rfl, rfl⟩ := h
      exact ⟨rfl, Or.inr ⟨hpos, title', rfl, rfl⟩⟩
  · rintro ⟨title, debateId, htitle, hi, rfl, h⟩
    refine ⟨_, _, ⟨rfl, rfl⟩, title, _, ⟨htitle, rfl⟩, debateId, _, ⟨hi, rfl⟩, ?_⟩
    rcases h with ⟨hzero, rfl⟩ | ⟨hpos, title', rfl, rfl⟩
    · rw [if_pos hzero, hzero]
      rfl
    · rw [if_neg hpos]
      simp only [Sql.bind_eq_ok, Sql.lift_eq_ok, Sql.set_eq_ok, Sql.pure_eq_ok, notNull_eq_ok]
      exact ⟨title', _, ⟨rfl, rfl⟩, ⟨⟩, _, rfl, trivial, rfl⟩

theorem updateDebateSql_of_zero {d : UpdateDebateData}
    (h : updateDebateSql d db = .ok (0, db')) : db' = db := by
  obtain ⟨_, _, -, -, -, ⟨-, hdb⟩ | ⟨hpos, -⟩⟩ := updateDebateSql_eq_ok.1 h
  · exact hdb
  · exact absurd rfl hpos

theorem updateDebateSql_eq_ok_of_ne_zero {d : UpdateDebateData} {n : Nat} (hn : n ≠ 0) :
    updateDebateSql d db = .ok (n, db') ↔
      ∃ given title debateId, d.title = some given ∧ varchar 80 given = .ok title ∧
        int4 d.debateId = .ok debateId ∧
        n = (db.debates.rows.countP fun x => db.tickets.rows.any fun t =>
          (updateDebateWhere debateId d.user.id x t).holds) ∧
        db' = { db with
          debates := db.debates.updateWhere
            (fun x => db.tickets.rows.any fun t =>
              (updateDebateWhere debateId d.user.id x t).holds)
            fun x => { x with title := title } } := by
  rw [updateDebateSql_eq_ok]
  constructor
  · rintro ⟨_, debateId, htitle, hi, hcount, ⟨hzero, -⟩ | ⟨-, title, rfl, hdb⟩⟩
    · exact absurd hzero hn
    · obtain ⟨given, hgiven, htitle⟩ := nullable_eq_ok_some.1 htitle
      exact ⟨given, title, debateId, hgiven, htitle, hi, hcount, hdb⟩
  · rintro ⟨given, title, debateId, hgiven, htitle, hi, hcount, hdb⟩
    exact ⟨some title, debateId, nullable_eq_ok_some.2 ⟨given, hgiven, htitle⟩, hi, hcount,
      Or.inr ⟨hn, title, rfl, hdb⟩⟩

theorem updateDebateSql_ok {d : UpdateDebateData} {n : Nat}
    (h : updateDebateSql d db = .ok (n, db')) :
    ∃ title debateId, int4 d.debateId = .ok debateId ∧
      n = (db.debates.rows.countP fun x => db.tickets.rows.any fun t =>
        (updateDebateWhere debateId d.user.id x t).holds) ∧
      db' = { db with
        debates := db.debates.updateWhere
          (fun x => db.tickets.rows.any fun t => (updateDebateWhere debateId d.user.id x t).holds)
          fun x => { x with title := title } } := by
  obtain ⟨_, debateId, -, hi, hcount, ⟨rfl, rfl⟩ | ⟨-, title, -, hdb⟩⟩ := updateDebateSql_eq_ok.1 h
  · refine ⟨"", debateId, hi, hcount, ?_⟩
    rw [SerialTable.updateWhere_eq_self _ hcount.symm]
  · exact ⟨title, debateId, hi, hcount, hdb⟩

theorem TicketRow.id_moveTo (d : UpdateTicketData) (b : BoardList) :
    ∀ t : TicketRow, SerialRow.rowId (t.moveTo b d.boardList d.userId) = SerialRow.rowId t :=
  fun _ => rfl

/-- The database after `updateTicket` has moved the rows its guard lets through. -/
def Database.moved (db : Database) (d : UpdateTicketData) (b : BoardList) : Database :=
  { db with
    tickets := db.tickets.updateWhere
      (fun t => (updateTicketWhere d.ticketId d.userId t).holds) (.moveTo b d.boardList d.userId)
      (TicketRow.id_moveTo d b) }

theorem updateTicketSql_eq_ok {d : UpdateTicketData} {n : Nat} :
    updateTicketSql d db = .ok (n, db') ↔
      ∃ b : BoardList, b.label = d.boardList ∧ IsInt4 d.ticketId ∧ db' = db.moved d b ∧
        n = db.tickets.rows.countP fun t => (updateTicketWhere d.ticketId d.userId t).holds := by
  simp only [updateTicketSql, Sql.bind_eq_ok, Sql.get_eq_ok, Sql.lift_eq_ok, Sql.set_eq_ok,
    Sql.pure_eq_ok, boardListType_eq_ok, int4_int]
  constructor
  · rintro ⟨_, _, ⟨rfl, rfl⟩, b, _, ⟨hb, rfl⟩, _, _, ⟨⟨hi, rfl⟩, rfl⟩, _, _, rfl, rfl, rfl⟩
    exact ⟨b, hb, hi, rfl, rfl⟩
  · rintro ⟨b, hb, hi, rfl, rfl⟩
    exact ⟨_, _, ⟨rfl, rfl⟩, b, _, ⟨hb, rfl⟩, _, _, ⟨⟨hi, rfl⟩, rfl⟩, ⟨⟩, _, rfl, rfl, rfl⟩

theorem TicketRow.id_accept (t : TicketRow) :
    SerialRow.rowId { t with boardList := some .accepted } = SerialRow.rowId t := rfl

/-- The database after `approveTicket` has accepted the rows its guard lets through. -/
def Database.approved (db : Database) (userId ticketId : Int) : Database :=
  { db with
    tickets := db.tickets.updateWhere (fun t => (approveTicketWhere ticketId userId t).holds)
      (fun t => { t with boardList := some .accepted }) TicketRow.id_accept }

theorem approveTicketSql_eq_ok {user : UserCookieData} {ticketId : Int} {rows : List Int} :
    approveTicketSql user ticketId db = .ok (rows, db') ↔
      IsInt4 ticketId ∧ db' = db.approved user.id ticketId ∧
        rows = (db.tickets.rows.filter fun t =>
          (approveTicketWhere ticketId user.id t).holds).map TicketRow.createdBy := by
  simp only [approveTicketSql, Sql.bind_eq_ok, Sql.get_eq_ok, Sql.lift_eq_ok, Sql.set_eq_ok,
    Sql.pure_eq_ok, int4_int]
  constructor
  · rintro ⟨_, _, ⟨rfl, rfl⟩, _, _, ⟨⟨hi, rfl⟩, rfl⟩, _, _, rfl, rfl, rfl⟩
    exact ⟨hi, rfl, rfl⟩
  · rintro ⟨hi, rfl, rfl⟩
    exact ⟨_, _, ⟨rfl, rfl⟩, _, _, ⟨⟨hi, rfl⟩, rfl⟩, ⟨⟩, _, rfl, rfl, rfl⟩

/-! ## All effects -/

inductive Effect (db : Database) : Call → Database → Prop
  /-- A call that rejects, or whose statements touch no row, leaves the database as it was. -/
  | rejected (c : Call) : Effect db c db
  /-- Accounts, comments and sequence gaps. -/
  | elsewhere {c : Call} {db' : Database} (hactor : ∀ u ∈ db.users.rows, u ∈ db'.users.rows)
      (htickets : db'.tickets.rows = db.tickets.rows)
      (hticketsNext : db.tickets.next ≤ db'.tickets.next)
      (hdebates : db'.debates.rows = db.debates.rows)
      (harguments : db'.arguments.rows = db.arguments.rows) : Effect db c db'
  | createDebate {now : Timestamp} {user : UserCookieData} {d : CreateDebateDTO} {db' : Database}
      (title : String) (huser : ∃ u ∈ db.users.rows, u.id = user.id)
      (hticket : db.tickets.next ≤ int4Max) (hnext : db.debates.next ≤ int4Max)
      (husers : db'.users = db.users)
      (htickets : db'.tickets = db.tickets.insert fun id => ⟨id, user.id, none, some .pending⟩)
      (hdebates : db'.debates =
        db.debates.insert fun id => ⟨id, db.tickets.next, title, now, now, user.id⟩)
      (harguments : db'.arguments = db.arguments) : Effect db (.createDebate now user d) db'
  | createArgument {now : Timestamp} {d : CreateArgumentData} {debateId : Int}
      {c : ArgumentColumns} (hc : d.argumentDetails.columns = .ok c)
      (hticket : db.tickets.next ≤ int4Max) (hnext : db.arguments.next ≤ int4Max)
      (hdebate : ∃ x ∈ db.debates.rows, x.id = debateId)
      (huser : ∃ u ∈ db.users.rows, u.id = d.user.id) :
      Effect db (.createArgument now d)
        { db with
          tickets := db.tickets.insert fun id => ⟨id, d.user.id, none, some .pending⟩
          arguments := db.arguments.insert (d.row now debateId c (some db.tickets.next) false) }
  | saveArgumentAsDraft {now : Timestamp} {d : CreateArgumentData} {debateId : Int}
      {c : ArgumentColumns} (hc : d.argumentDetails.columns = .ok c)
      (hnext : db.arguments.next ≤ int4Max) (hdebate : ∃ x ∈ db.debates.rows, x.id = debateId)
      (huser : ∃ u ∈ db.users.rows, u.id = d.user.id) :
      Effect db (.saveArgumentAsDraft now d)
        { db with arguments := db.arguments.insert (d.row now debateId c none true) }
  | updateDraft {d : UpdateDraftData} {c : ArgumentColumns} {debateId draftId : Int}
      (hc : d.draftData.columns = .ok c) :
      Effect db (.updateDraft d) (db.redrafted d.user.id c debateId draftId)
  | submitDraft {d : SubmitDraftData} {c : ArgumentColumns} {draftId debateId : Int}
      (hd : d.Storable db c draftId debateId) :
      Effect db (.submitDraft d) (db.submitted d.user.id c draftId debateId)
  | updateArgument {d : UpdateArgumentData} {argumentId : Int} (title content : String) :
      Effect db (.updateArgument d)
        { db with
          arguments := db.arguments.updateWhere
            (fun a => db.tickets.rows.any fun t =>
              (updateArgumentWhere argumentId d.user.id a t).holds)
            fun a => { a with title := title, content := content } }
  | updateDebate {d : UpdateDebateData} {debateId : Int} (title : String) :
      Effect db (.updateDebate d)
        { db with
          debates := db.debates.updateWhere
            (fun x => db.tickets.rows.any fun t =>
              (updateDebateWhere debateId d.user.id x t).holds)
            fun x => { x with title := title } }
  | updateTicket {d : UpdateTicketData} {b : BoardList} (hb : b.label = d.boardList)
      (hint4 : IsInt4 d.ticketId) : Effect db (.updateTicket d) (db.moved d b)
  | approveTicket {user : UserCookieData} {ticketId : Int} (hint4 : IsInt4 ticketId) :
      Effect db (.approveTicket user ticketId) (db.approved user.id ticketId)

/-- What a proposal stores, once its new tags are stored. -/
theorem createDebateSql_eq_ok {now : Timestamp} {user : UserCookieData} {d : CreateDebateDTO}
    {ticketId : Int} : createDebateSql now user d db = .ok (ticketId, db') ↔
      ∃ createdIds tags title ids assoc,
        createTags d.createdTags db = .ok (createdIds, { db with debateTags := tags }) ∧
        (db.tickets.next ≤ int4Max ∧ ∃ u ∈ db.users.rows, u.id = user.id) ∧
        (db.debates.next ≤ int4Max ∧ varchar 80 d.title = .ok title) ∧
        (d.tagsIds ++ createdIds.map JsNumber.int).mapM int4 = .ok ids ∧
        assoc.rows = db.assocDebateTags.rows ++ ids.map (fun id => ⟨db.debates.next, id⟩) ∧
        ticketId = db.tickets.next ∧
        db' = { db with
          tickets := db.tickets.insert fun id => ⟨id, user.id, none, some .pending⟩
          debates := db.debates.insert fun id => ⟨id, db.tickets.next, title, now, now, user.id⟩
          debateTags := tags
          assocDebateTags := assoc } := by
  simp only [createDebateSql, Sql.bind_eq_ok, insertTicket_eq_ok, insertDebate_eq_ok,
    insertAssocDebateTags_eq_ok, Sql.pure_eq_ok]
  constructor
  · rintro ⟨createdIds, db₁, htags, _, _, ⟨ht, hu, rfl, rfl⟩, _, _, ⟨title, hn, htitle, rfl, rfl⟩,
      _, _, ⟨ids, assoc, hids, hassoc, rfl⟩, rfl, rfl⟩
    obtain ⟨created, tags, -, -, -, -, -, -, rfl⟩ := createTags_ok htags
    exact ⟨createdIds, tags, title, ids, assoc, htags, ⟨ht, hu⟩, ⟨hn, htitle⟩, hids, hassoc, rfl,
      rfl⟩
  · rintro ⟨createdIds, tags, title, ids, assoc, htags, ⟨ht, hu⟩, ⟨hn, htitle⟩, hids, hassoc, rfl,
      rfl⟩
    exact ⟨createdIds, _, htags, _, _, ⟨ht, hu, rfl, rfl⟩, _, _, ⟨title, hn, htitle, rfl, rfl⟩, (),
      _, ⟨ids, assoc, hids, hassoc, rfl⟩, rfl, rfl⟩

theorem createDebateSql_ok {now : Timestamp} {user : UserCookieData} {d : CreateDebateDTO}
    {ticketId : Int} (h : createDebateSql now user d db = .ok (ticketId, db')) :
    ∃ title tags assoc, (∃ u ∈ db.users.rows, u.id = user.id) ∧ db.tickets.next ≤ int4Max ∧
      db.debates.next ≤ int4Max ∧ (∀ g ∈ db.debateTags.rows, g ∈ tags.rows) ∧
      (∀ x ∈ db.assocDebateTags.rows, x ∈ assoc.rows) ∧
      db' = { db with
        tickets := db.tickets.insert fun id => ⟨id, user.id, none, some .pending⟩
        debates := db.debates.insert fun id => ⟨id, db.tickets.next, title, now, now, user.id⟩
        debateTags := tags
        assocDebateTags := assoc } := by
  obtain ⟨createdIds, tags, title, ids, assoc, htags, ⟨ht, hu⟩, ⟨hn, -⟩, -, hassoc, -, rfl⟩ :=
    createDebateSql_eq_ok.1 h
  obtain ⟨created, tags', -, -, -, hrows, -, -, htags'⟩ := createTags_ok htags
  obtain rfl : tags = tags' := congrArg Database.debateTags htags'
  refine ⟨title, tags, assoc, hu, ht, hn, fun g hg => ?_, fun x hx => ?_, rfl⟩
  · rw [hrows]
    exact List.mem_append_left _ hg
  · rw [hassoc]
    exact List.mem_append_left _ hx

/-! ## What a call commits -/

/-- A transaction leaves what it found, or what its statements made of it. -/
theorem Sql.commit_rule {α : Type} {P : Database → Prop} {m : Sql α} (hrejected : P db)
    (hcommitted : ∀ a db', m db = .ok (a, db') → P db') : P (m.commit db).2 := by
  rcases Sql.commit_cases m db with ⟨a, db', hok, hcommit⟩ | ⟨e, -, hcommit⟩
  · rw [hcommit]
    exact hcommitted a db' hok
  · rw [hcommit]
    exact hrejected

theorem insertOne_commit (now : Timestamp) (d : RegisterUserDTO) (db : Database) :
    (insertOne now d db).db = ((insertUser now d (some .user)).commit db).2 := by
  unfold insertOne
  split <;> simp [*]

theorem seedUser_commit (now : Timestamp) (d : RegisterUserDTO) (role : Option UserRole)
    (db : Database) : (seedUser now d role db).db = ((insertUser now d role).commit db).2 := by
  unfold seedUser
  split <;> simp [*]

theorem createDebate_commit (now : Timestamp) (user : UserCookieData) (d : CreateDebateDTO)
    (db : Database) :
    (createDebate now user d db).db = ((createDebateSql now user d).commit db).2 := by
  unfold createDebate
  split <;> simp [*]

theorem createArgument_commit (now : Timestamp) (d : CreateArgumentData) (db : Database) :
    (createArgument now d db).db = ((createArgumentSql now d).commit db).2 := by
  unfold createArgument
  split <;> simp [*]

theorem saveArgumentAsDraft_commit (now : Timestamp) (d : CreateArgumentData) (db : Database) :
    (saveArgumentAsDraft now d db).db = ((insertArgument now d none true).commit db).2 := by
  unfold saveArgumentAsDraft
  split <;> simp [*]

theorem updateDraft_commit (d : UpdateDraftData) (db : Database) :
    (updateDraft d db).db = ((updateDraftSql d).commit db).2 := by
  unfold updateDraft
  split
  · split <;> simp [*]
  · simp [*]

theorem submitDraft_commit (d : SubmitDraftData) (db : Database) :
    (submitDraft d db).db = ((submitDraftSql d).commit db).2 := by
  unfold submitDraft
  split <;> simp [*]

theorem updateArgument_commit (d : UpdateArgumentData) (db : Database) :
    (updateArgument d db).db = ((updateArgumentSql d).commit db).2 := by
  unfold updateArgument
  split <;> simp [*]

theorem updateDebate_commit (d : UpdateDebateData) (db : Database) :
    (updateDebate d db).db = ((updateDebateSql d).commit db).2 := by
  unfold updateDebate
  split <;> simp [*]

/-- The row count is looked at after the commit. -/
theorem updateTicket_commit (d : UpdateTicketData) (db : Database) :
    (updateTicket d db).db = ((updateTicketSql d).commit db).2 := by
  unfold updateTicket
  split
  · split <;> simp [*]
  · simp [*]

theorem approveTicket_commit (user : UserCookieData) (ticketId : Int) (db : Database) :
    (approveTicket user ticketId db).db = ((approveTicketSql user ticketId).commit db).2 := by
  unfold approveTicket
  split <;> simp [*]

theorem addComment_commit (linked : Database → Int → Bool) (now : Timestamp) (d : AddCommentData)
    (db : Database) :
    (addComment linked now d db).db = ((addCommentSql linked now d).commit db).2 := by
  unfold addComment
  split <;> simp [*]

theorem updateComment_commit (now : Timestamp) (user : UserCookieData) (d : UpdateCommentData)
    (db : Database) :
    (updateComment now user d db).db = ((updateCommentSql now user d).commit db).2 := by
  unfold updateComment
  split <;> simp [*]

/-! ## The effect of each call -/

theorem createDebate_effect (now : Timestamp) (user : UserCookieData) (d : CreateDebateDTO)
    (db : Database) : Effect db (.createDebate now user d) (createDebate now user d db).db := by
  rw [createDebate_commit]
  refine Sql.commit_rule (.rejected _) fun ticketId db' hok => ?_
  obtain ⟨title, tags, assoc, hu, ht, hn, -, -, rfl⟩ := createDebateSql_ok hok
  exact .createDebate title hu ht hn rfl rfl rfl rfl

theorem createArgument_effect (now : Timestamp) (d : CreateArgumentData) (db : Database) :
    Effect db (.createArgument now d) (createArgument now d db).db := by
  rw [createArgument_commit]
  refine Sql.commit_rule (.rejected _) fun ticketId db' hok => ?_
  obtain ⟨debateId, c, -, hc, ht, hn, hx, hu, -, rfl⟩ := createArgumentSql_eq_ok.1 hok
  exact .createArgument hc ht hn hx hu

theorem saveArgumentAsDraft_effect (now : Timestamp) (d : CreateArgumentData) (db : Database) :
    Effect db (.saveArgumentAsDraft now d) (saveArgumentAsDraft now d db).db := by
  rw [saveArgumentAsDraft_commit]
  refine Sql.commit_rule (.rejected _) fun id db' hok => ?_
  obtain ⟨debateId, c, -, hc, hn, hx, hu, -, rfl⟩ := insertArgument_eq_ok.1 hok
  exact .saveArgumentAsDraft hc hn hx hu

theorem updateDraft_db {d : UpdateDraftData} {n : Nat} (h : updateDraftSql d db = .ok (n, db')) :
    (updateDraft d db).db = db' := by
  rw [updateDraft_commit, Sql.commit_of_ok h]

theorem step_updateDraft {d : UpdateDraftData} {c : ArgumentColumns} {debateId draftId : Int}
    (hc : d.draftData.columns = .ok c) (hdebate : int4 d.debateId = .ok debateId)
    (hdraft : int4 d.draftId = .ok draftId) :
    step db (.updateDraft d) = db.redrafted d.user.id c debateId draftId :=
  updateDraft_db (updateDraftSql_eq_ok.2 ⟨c, debateId, draftId, hc, hdebate, hdraft, rfl, rfl⟩)

theorem updateDraft_effect (d : UpdateDraftData) (db : Database) :
    Effect db (.updateDraft d) (updateDraft d db).db := by
  rw [updateDraft_commit]
  refine Sql.commit_rule (.rejected _) fun n db' hok => ?_
  obtain ⟨c, debateId, draftId, hc, -, -, rfl, -⟩ := updateDraftSql_eq_ok.1 hok
  exact .updateDraft hc

theorem step_submitDraft {d : SubmitDraftData} {c : ArgumentColumns} {draftId debateId : Int}
    (hd : d.Storable db c draftId debateId) :
    step db (.submitDraft d) = db.submitted d.user.id c draftId debateId := by
  have hok : submitDraftSql d db = .ok ((), db.submitted d.user.id c draftId debateId) :=
    submitDraftSql_eq_ok.2 ⟨c, draftId, debateId, hd, rfl⟩
  show (submitDraft d db).db = _
  rw [submitDraft_commit, Sql.commit_of_ok hok]

theorem submitDraft_effect (d : SubmitDraftData) (db : Database) :
    Effect db (.submitDraft d) (submitDraft d db).db := by
  rw [submitDraft_commit]
  refine Sql.commit_rule (.rejected _) fun u db' hok => ?_
  obtain ⟨c, draftId, debateId, hd, rfl⟩ := submitDraftSql_eq_ok.1 hok
  exact .submitDraft hd

theorem updateArgument_effect (d : UpdateArgumentData) (db : Database) :
    Effect db (.updateArgument d) (updateArgument d db).db := by
  rw [updateArgument_commit]
  refine Sql.commit_rule (.rejected _) fun n db' hok => ?_
  obtain ⟨title, content, argumentId, -, -, rfl⟩ := updateArgumentSql_ok hok
  exact .updateArgument title content

theorem updateDebate_effect (d : UpdateDebateData) (db : Database) :
    Effect db (.updateDebate d) (updateDebate d db).db := by
  rw [updateDebate_commit]
  refine Sql.commit_rule (.rejected _) fun n db' hok => ?_
  obtain ⟨title, debateId, -, -, rfl⟩ := updateDebateSql_ok hok
  exact .updateDebate title

/-- Also a call that rejects for want of a ticket has committed. -/
theorem updateTicket_effect (d : UpdateTicketData) (db : Database) :
    Effect db (.updateTicket d) (updateTicket d db).db := by
  rw [updateTicket_commit]
  refine Sql.commit_rule (.rejected _) fun n db' hok => ?_
  obtain ⟨b, hb, hi, rfl, -⟩ := updateTicketSql_eq_ok.1 hok
  exact .updateTicket hb hi

theorem approveTicket_effect (user : UserCookieData) (ticketId : Int) (db : Database) :
    Effect db (.approveTicket user ticketId) (approveTicket user ticketId db).db := by
  rw [approveTicket_commit]
  refine Sql.commit_rule (.rejected _) fun rows db' hok => ?_
  obtain ⟨hi, rfl, -⟩ := approveTicketSql_eq_ok.1 hok
  exact .approveTicket hi

theorem addCommentSql_ok {linked : Database → Int → Bool} {now : Timestamp} {d : AddCommentData}
    {comments : List Comment} (h : addCommentSql linked now d db = .ok (comments, db')) :
    ∃ rows, db' = { db with ticketComments := rows } := by
  simp only [addCommentSql, Sql.bind_eq_ok, Sql.get_eq_ok, Sql.lift_eq_ok] at h
  obtain ⟨_, _, ⟨rfl, rfl⟩, ticketId, _, ⟨-, rfl⟩, content, _, ⟨-, rfl⟩, h⟩ := h
  -- `insert … select` inserts nothing for a ticket without a submission of the kind, or one the
  -- commenter is not connected to
  split at h
  · simp only [Sql.bind_eq_ok, Sql.check_eq_ok, Sql.set_eq_ok, Sql.pure_eq_ok] at h
    obtain ⟨_, _, ⟨-, rfl⟩, _, _, ⟨-, rfl⟩, _, _, rfl, -, rfl⟩ := h
    exact ⟨_, rfl⟩
  · rw [Sql.pure_eq_ok] at h
    exact ⟨db.ticketComments, h.2.symm⟩

theorem addComment_effect (c : Call) (linked : Database → Int → Bool) (now : Timestamp)
    (d : AddCommentData) (db : Database) : Effect db c (addComment linked now d db).db := by
  rw [addComment_commit]
  refine Sql.commit_rule (.rejected _) fun comments db' hok => ?_
  obtain ⟨rows, rfl⟩ := addCommentSql_ok hok
  exact .elsewhere (fun u hu => hu) rfl (Int.le_refl _) rfl rfl

theorem updateCommentSql_eq_ok {now : Timestamp} {user : UserCookieData} {d : UpdateCommentData}
    {n : Nat} :
    updateCommentSql now user d db = .ok (n, db') ↔
      ∃ commentId, IsText d.content ∧ nullableInt4 d.commentId = .ok commentId ∧
        n = (db.ticketComments.rows.countP fun tc =>
          (updateCommentWhere commentId user.id tc).holds) ∧
        db' = { db with
          ticketComments := db.ticketComments.updateWhere
            (fun tc => (updateCommentWhere commentId user.id tc).holds) fun tc =>
              { tc with content := d.content, modifiedAt := now } } := by
  simp only [updateCommentSql, Sql.bind_eq_ok, Sql.get_eq_ok, Sql.lift_eq_ok, Sql.set_eq_ok,
    Sql.pure_eq_ok, text_eq_ok]
  constructor
  · rintro ⟨_, _, ⟨rfl, rfl⟩, _, _, ⟨⟨htext, rfl⟩, rfl⟩, commentId, _, ⟨hid, rfl⟩, _, _, rfl, rfl,
      rfl⟩
    exact ⟨commentId, htext, hid, rfl, rfl⟩
  · rintro ⟨commentId, htext, hid, rfl, rfl⟩
    exact ⟨_, _, ⟨rfl, rfl⟩, _, _, ⟨⟨htext, rfl⟩, rfl⟩, commentId, _, ⟨hid, rfl⟩, ⟨⟩, _, rfl, rfl,
      rfl⟩

theorem updateCommentSql_ok {now : Timestamp} {user : UserCookieData} {d : UpdateCommentData}
    {n : Nat} (h : updateCommentSql now user d db = .ok (n, db')) :
    ∃ content commentId, nullableInt4 d.commentId = .ok commentId ∧
      n = (db.ticketComments.rows.countP fun tc =>
        (updateCommentWhere commentId user.id tc).holds) ∧
      db' = { db with
        ticketComments := db.ticketComments.updateWhere
          (fun tc => (updateCommentWhere commentId user.id tc).holds) fun tc =>
            { tc with content := content, modifiedAt := now } } := by
  obtain ⟨commentId, -, hid, hn, hdb⟩ := updateCommentSql_eq_ok.1 h
  exact ⟨d.content, commentId, hid, hn, hdb⟩

theorem updateComment_effect (now : Timestamp) (user : UserCookieData) (d : UpdateCommentData)
    (db : Database) : Effect db (.updateComment now user d) (updateComment now user d db).db := by
  rw [updateComment_commit]
  refine Sql.commit_rule (.rejected _) fun n db' hok => ?_
  obtain ⟨content, commentId, -, -, rfl⟩ := updateCommentSql_ok hok
  exact .elsewhere (fun u hu => hu) rfl (Int.le_refl _) rfl rfl

theorem insertUser_ok {now : Timestamp} {d : RegisterUserDTO} {role : Option UserRole}
    {row : UserRow} (h : insertUser now d role db = .ok (row, db')) :
    ∃ mk : Int → UserRow, ∃ hmk, db' = { db with users := db.users.insert mk hmk } := by
  simp only [insertUser, Sql.bind_eq_ok, Sql.get_eq_ok, Sql.lift_eq_ok, Sql.check_eq_ok,
    Sql.set_eq_ok, Sql.pure_eq_ok] at h
  obtain ⟨_, _, ⟨rfl, rfl⟩, _, _, ⟨-, rfl⟩, _, _, ⟨-, rfl⟩, _, _, ⟨-, rfl⟩, _, _, ⟨-, rfl⟩, _, _,
    ⟨-, rfl⟩, _, _, rfl, -, rfl⟩ := h
  exact ⟨_, _, rfl⟩

theorem insertUser_effect (c : Call) (now : Timestamp) (d : RegisterUserDTO)
    (role : Option UserRole) (db : Database) :
    Effect db c ((insertUser now d role).commit db).2 := by
  refine Sql.commit_rule (.rejected _) fun row db' hok => ?_
  obtain ⟨mk, hmk, rfl⟩ := insertUser_ok hok
  refine .elsewhere (fun u hu => ?_) rfl (Int.le_refl _) rfl rfl
  exact (SerialTable.mem_insert hmk).2 (Or.inl hu)

theorem insertOne_effect (now : Timestamp) (d : RegisterUserDTO) (db : Database) :
    Effect db (.insertOne now d) (insertOne now d db).db := by
  rw [insertOne_commit]
  exact insertUser_effect _ now d _ db

theorem seedUser_effect (now : Timestamp) (d : RegisterUserDTO) (role : Option UserRole)
    (db : Database) : Effect db (.seedUser now d role) (seedUser now d role db).db := by
  rw [seedUser_commit]
  exact insertUser_effect _ now d role db

/-- **Every call has one of the listed effects.** -/
theorem step_effect (db : Database) (c : Call) : Effect db c (step db c) := by
  cases c with
  | insertOne now d => exact insertOne_effect now d db
  | seedUser now d role => exact seedUser_effect now d role db
  | createDebate now user d => exact createDebate_effect now user d db
  | createArgument now d => exact createArgument_effect now d db
  | saveArgumentAsDraft now d => exact saveArgumentAsDraft_effect now d db
  | updateDraft d => exact updateDraft_effect d db
  | submitDraft d => exact submitDraft_effect d db
  | updateArgument d => exact updateArgument_effect d db
  | updateDebate d => exact updateDebate_effect d db
  | updateTicket d => exact updateTicket_effect d db
  | approveTicket user ticketId => exact approveTicket_effect user ticketId db
  | addCommentToDebate now d => exact addComment_effect _ _ now d db
  | addCommentToArgument now d => exact addComment_effect _ _ now d db
  | updateComment now user d => exact updateComment_effect now user d db
  | skipIds gaps =>
    refine .elsewhere (fun u hu => hu) rfl ?_ rfl rfl
    show db.tickets.next ≤ db.tickets.next + gaps.tickets
    omega

/-! ## Jobs -/

theorem updateTicket_jobs (d : UpdateTicketData) (db : Database) :
    (updateTicket d db).jobs = [] := by
  unfold updateTicket
  split
  · split <;> rfl
  · rfl

/-- The calls that propose something new to the moderators. -/
def Call.proposes : Call → Bool
  | .createDebate .. => true
  | .createArgument .. => true
  | _ => false

/-- No other service call enqueues a job. -/
theorem enqueued_eq_nil (db : Database) {c : Call} (hc : c.proposes = false) :
    enqueued db c = [] := by
  cases c with
  | insertOne now d =>
    simp only [enqueued, insertOne]
    split <;> rfl
  | seedUser now d role =>
    simp only [enqueued, seedUser]
    split <;> rfl
  | createDebate now user d => exact nomatch hc
  | createArgument now d => exact nomatch hc
  | saveArgumentAsDraft now d =>
    simp only [enqueued, saveArgumentAsDraft]
    split <;> rfl
  | updateDraft d =>
    simp only [enqueued, updateDraft]
    split
    · split <;> rfl
    · rfl
  | submitDraft d =>
    simp only [enqueued, submitDraft]
    split <;> rfl
  | updateArgument d =>
    simp only [enqueued, updateArgument]
    split <;> rfl
  | updateDebate d =>
    simp only [enqueued, updateDebate]
    split <;> rfl
  | updateTicket d => exact updateTicket_jobs d db
  | approveTicket user ticketId =>
    simp only [enqueued, approveTicket]
    split <;> rfl
  | addCommentToDebate now d =>
    simp only [enqueued, addCommentToDebate, addComment]
    split <;> rfl
  | addCommentToArgument now d =>
    simp only [enqueued, addCommentToArgument, addComment]
    split <;> rfl
  | updateComment now user d =>
    simp only [enqueued, updateComment]
    split <;> rfl
  | skipIds gaps => rfl

end DecentDebates

import DecentDebates.Findability
import DecentDebates.Proofs.PublicApi
import DecentDebates.Proofs.Comments

set_option autoImplicit false

/-! # Finding a proposed debate: proofs

All joins of the three queries are lookups, so each query has at most one row for a debate, and it
is the row of `debates_tags` that decides whether it has one. Then a run: a debate keeps the tags
it was proposed with. -/

namespace DecentDebates

open Relational Transition

variable {db db' : Database}

/-! ## One row for a debate -/

/-- A query that reads a table row by row has for one row what it makes of this row. -/
theorem filter_filterMap_rowId {ρ α : Type} [SerialRow ρ] {t : SerialTable ρ} {f : ρ → Option α}
    {p : α → Bool} {r : ρ} (hr : r ∈ t.rows)
    (hp : ∀ r' a, f r' = some a → (p a = true ↔ SerialRow.rowId r' = SerialRow.rowId r)) :
    (t.rows.filterMap f).filter p = (f r).toList := by
  have hsingle : t.rows.filter (fun r' => SerialRow.rowId r' = SerialRow.rowId r) = [r] :=
    filter_single (fun r' hr' => of_decide_eq_true hr') hr (by simp)
  have hfilter : (t.rows.filterMap f).filter p =
      (t.rows.filter fun r' => SerialRow.rowId r' = SerialRow.rowId r).filterMap f := by
    rw [List.filter_filterMap, List.filterMap_filter]
    refine List.filterMap_congr fun r' _ => ?_
    cases hf : f r' with
    | none => simp
    | some a =>
      by_cases hid : SerialRow.rowId r' = SerialRow.rowId r
      · simp [hid, (hp r' a hf).2 hid]
      · simp [hid, Bool.eq_false_iff.2 (mt (hp r' a hf).1 hid)]
  rw [hfilter, hsingle]
  cases hf : f r <;> simp [hf]

/-- The row of `proposedDebates` that a debate contributes. -/
def Database.proposedDebate (db : Database) (d : DebateRow) : Option ProposedDebate :=
  (db.debateTagsRow d).map fun dts =>
    (((d, db.tickets.find? d.ticketId), dts),
      ((db.tickets.find? d.ticketId).bind TicketRow.assignedTo).bind db.users.find?)

theorem proposedDebates_eq (db : Database) :
    proposedDebates db = db.debates.rows.filterMap db.proposedDebate := by
  have hticket := leftJoin_rowId db.debates.rows db.tickets fun d => some d.ticketId
  have htags := fun xs => innerJoin_rowId xs db.debatesTagsTable
    fun q : DebateRow × Option TicketRow => some q.1.id
  have huser := fun xs => leftJoin_rowId xs db.users
    fun q : (DebateRow × Option TicketRow) × DebatesTags => q.1.2.bind TicketRow.assignedTo
  unfold proposedDebates
  refine (huser _).trans ?_
  refine (congrArg _ ((htags _).trans (congrArg _ hticket))).trans ?_
  rw [List.filterMap_map, List.map_filterMap]
  refine List.filterMap_congr fun d hd => ?_
  simp only [Function.comp_apply, Option.bind_some, find?_debatesTagsTable hd]
  unfold Database.proposedDebate
  cases db.debateTagsRow d <;> rfl

theorem filter_proposedDebates {d : DebateRow} (hd : d ∈ db.debates.rows) :
    (proposedDebates db).filter (fun q => q.1.1.1.id = d.id) =
      (db.proposedDebate d).toList := by
  rw [proposedDebates_eq]
  refine filter_filterMap_rowId hd fun d' card hcard => ?_
  obtain ⟨dts, -, rfl⟩ := Option.map_eq_some_iff.1 hcard
  simp

/-! ## The boards -/

/-- Of a left join, the rows whose right part satisfies a condition that NULL does not. -/
theorem filter_leftJoin {α β : Type} (xs : List α) (ys : List β) (on : α → β → Truth)
    (p : β → Bool) :
    (leftJoin xs ys on).filter (fun q => q.2.any p) =
      (innerJoin xs (ys.filter p) on).map fun q => (q.1, some q.2) := by
  induction xs with
  | nil => rfl
  | cons x xs ih =>
    simp only [leftJoin, innerJoin, List.flatMap_cons, List.filter_append, List.map_append]
      at ih ⊢
    rw [ih, List.filter_filter, List.map_map]
    congr 1
    have hcomm : ys.filter (fun y => (on x y).holds && p y) =
        (ys.filter fun y => (on x y).holds).filter p := by
      simp only [List.filter_filter, Bool.and_comm]
    rw [hcomm]
    cases h : ys.filter fun y => (on x y).holds with
    | nil => rfl
    | cons y rest => simp only [List.filter_map]; rfl

/-- The lists under which `getDebateCards` has a debate. -/
theorem filter_debateCards {d : DebateRow} (hd : d ∈ db.debates.rows) {t : TicketRow}
    (ht : db.tickets.find? d.ticketId = some t) {b : BoardList} (hb : t.boardList = some b) :
    (((leftJoin boardListTypes (proposedDebates db) onBoardList).map
        ModeratorActivityDebate.ofRow).filter fun card => card.debateId = some d.id).map
      (fun card => some card.boardList) = (db.debateTagsRow d).toList.map fun _ => some b := by
  have hrows : (leftJoin boardListTypes (proposedDebates db) onBoardList).filter
        (fun q => q.2.any fun card => card.1.1.1.id = d.id) =
      (innerJoin boardListTypes (db.proposedDebate d).toList onBoardList).map
        fun q => (q.1, some q.2) := by
    rw [filter_leftJoin, filter_proposedDebates hd]
  have hcond : ((fun card : ModeratorActivityDebate => decide (card.debateId = some d.id)) ∘
      ModeratorActivityDebate.ofRow) = fun q => q.2.any fun card => card.1.1.1.id = d.id := by
    funext q
    rcases q with ⟨b', _ | card⟩ <;> simp [ModeratorActivityDebate.ofRow]
  rw [List.filter_map, hcond, hrows]
  cases hdts : db.debateTagsRow d with
  | none => simp [Database.proposedDebate, hdts, innerJoin]
  | some dts =>
    -- the one card is joined to the one list that it is on
    cases b <;> simp [Database.proposedDebate, hdts, innerJoin, boardListTypes, onBoardList, ht, hb,
      ModeratorActivityDebate.ofRow]

/-! ## The three queries -/

theorem mem_tagsOf {d : DebateRow} {g : DebateTagRow} :
    g ∈ db.tagsOf d ↔ ∃ adt ∈ db.assocDebateTags.rows, adt.debateId = d.id ∧
      g ∈ db.debateTags.rows ∧ g.id = adt.tagId := by
  simp only [Database.tagsOf, List.mem_map, Prod.exists, exists_eq_right, mem_innerJoin,
    List.mem_singleton, Truth.holds_eq_some, decide_eq_true_eq, Option.some.injEq]
  constructor
  · rintro ⟨d', adt, ⟨rfl, hadt, hid⟩, hg, htag⟩
    exact ⟨adt, hadt, hid, hg, htag.symm⟩
  · rintro ⟨adt, hadt, hid, hg, htag⟩
    exact ⟨d, adt, ⟨rfl, hadt, hid⟩, hg, htag.symm⟩

/-- A debate has a row of `debates_tags` exactly when it has a stored tag. -/
theorem debateTagsRow_ne_none {d : DebateRow} : db.debateTagsRow d ≠ none ↔ db.Tagged d := by
  have hnil : db.debateTagsRow d ≠ none ↔ db.tagsOf d ≠ [] := by
    unfold Database.debateTagsRow
    cases db.tagsOf d <;> simp
  rw [hnil, Ne, List.eq_nil_iff_forall_not_mem, not_forall]
  constructor
  · rintro ⟨g, hg⟩
    obtain ⟨adt, hadt, hid, hg, htag⟩ := mem_tagsOf.1 (not_not.1 hg)
    exact ⟨adt, hadt, hid, g, hg, htag⟩
  · rintro ⟨adt, hadt, hid, g, hg, htag⟩
    exact ⟨g, not_not.2 (mem_tagsOf.2 ⟨adt, hadt, hid, hg, htag⟩)⟩

theorem getActivityDebates_once {d : DebateRow} (hd : d ∈ db.debates.rows) {t : TicketRow}
    (ht : db.tickets.find? d.ticketId = some t) {user : UserCookieData}
    (huser : user.id = t.createdBy) {dts : DebatesTags} (hdts : db.debateTagsRow d = some dts) :
    ∃ debates, getActivityDebates user db = .ok debates ∧
      debates.countP (fun x => x.debateId = d.id) = 1 := by
  refine ⟨_, rfl, ?_⟩
  have hcond : ((fun x : UserActivityDebate => decide (x.debateId = d.id)) ∘
      UserActivityDebate.ofRow) = fun q => decide (q.1.1.1.id = d.id) := rfl
  unfold selectWhere
  rw [List.countP_map, hcond, (List.mergeSort_perm _ _).countP_eq, List.countP_eq_length_filter,
    List.filter_comm, filter_proposedDebates hd]
  simp [Database.proposedDebate, hdts, activityDebatesWhere, ht, huser]

theorem getAll_once (hS : db.Stored) {d : DebateRow} (hd : d ∈ db.debates.rows) {t : TicketRow}
    (ht : db.tickets.find? d.ticketId = some t) (hacc : t.boardList = some .accepted)
    {dts : DebatesTags} (hdts : db.debateTagsRow d = some dts) :
    ∃ debates, getAll none db = .ok debates ∧ debates.countP (fun x => x.id = d.id) = 1 := by
  refine ⟨_, rfl, ?_⟩
  obtain ⟨u, hu, huid⟩ := hS.ticket_user t (SerialTable.find?_eq_some.1 ht).1
  have hfind : db.users.find? t.createdBy = some u := SerialTable.find?_eq_some.2 ⟨hu, huid⟩
  have hrow : (joinedDebates db).filter (fun q => q.1.1.1.id = d.id) =
      (db.joinedDebate d).toList := by
    rw [joinedDebates_eq]
    refine filter_filterMap_rowId hd fun d' q hq => ?_
    simp only [Database.joinedDebate, Option.bind_eq_some_iff, Option.map_eq_some_iff] at hq
    obtain ⟨t', -, u', -, dts', -, rfl⟩ := hq
    simp
  have hcond : ((fun x : Debate => decide (x.id = d.id)) ∘ Debate.ofRow) =
      fun q => decide (q.1.1.1.id = d.id) := rfl
  unfold selectDebates selectWhere
  rw [List.countP_map, hcond, List.countP_eq_length_filter, List.filter_comm, hrow]
  simp [Database.joinedDebate, hdts, ht, hfind, hacc]

/-- **A debate is found exactly when it has a stored tag.** -/
theorem listed_iff_tagged (hS : db.Stored) {d : DebateRow} (hd : d ∈ db.debates.rows)
    {t : TicketRow} (ht : t ∈ db.tickets.rows) (hid : t.id = d.ticketId) :
    db.Listed d t ↔ db.Tagged d := by
  have hfind : db.tickets.find? d.ticketId = some t := SerialTable.find?_eq_some.2 ⟨ht, hid⟩
  obtain ⟨b, hb⟩ := Option.ne_none_iff_exists'.1 (hS.ticket_board t ht)
  rw [← debateTagsRow_ne_none]
  constructor
  · intro h hnone
    obtain ⟨cards, hcards, hlist⟩ := h.cards
    obtain rfl := Except.ok.inj hcards
    rw [filter_debateCards hd hfind hb, hnone] at hlist
    exact absurd hlist (by simp)
  · intro htags
    obtain ⟨dts, hdts⟩ := Option.ne_none_iff_exists'.1 htags
    refine ⟨⟨_, rfl, ?_⟩, fun user huser => ?_, fun hacc => ?_⟩
    · rw [filter_debateCards hd hfind hb, hdts, hb]
      rfl
    · exact getActivityDebates_once hd hfind huser hdts
    · exact getAll_once hS hd hfind hacc hdts

theorem noneLost_iff (hL : db.Linked) (hS : db.Stored) :
    db.NoneLost ↔ ∀ d ∈ db.debates.rows, db.Tagged d := by
  refine forall₂_congr fun d hd => ?_
  constructor
  · rintro ⟨t, ht, hid, h⟩
    exact (listed_iff_tagged hS hd ht hid).1 h
  · intro h
    obtain ⟨t, ht, hid, -⟩ := hL.owner (.debate d) (mem_submissions_debate.2 hd) d.ticketId rfl
    exact ⟨t, ht, hid, (listed_iff_tagged hS hd ht hid).2 h⟩

/-! ## Tags through a call -/

/-- Both states have the same tags on the same debates. -/
structure SameTags (db db' : Database) : Prop where
  debateTags : db'.debateTags.rows = db.debateTags.rows
  assocDebateTags : db'.assocDebateTags = db.assocDebateTags

/-- Only `createDebate` stores tags. -/
theorem step_sameTags (db : Database) {c : Call} (hc : ∀ now user d, c ≠ .createDebate now user d) :
    SameTags db (step db c) := by
  cases c with
  | insertOne now d =>
    rw [step, insertOne_commit]
    refine Sql.commit_rule ⟨rfl, rfl⟩ fun row db' hok => ?_
    obtain ⟨mk, hmk, rfl⟩ := insertUser_ok hok
    exact ⟨rfl, rfl⟩
  | seedUser now d role =>
    rw [step, seedUser_commit]
    refine Sql.commit_rule ⟨rfl, rfl⟩ fun row db' hok => ?_
    obtain ⟨mk, hmk, rfl⟩ := insertUser_ok hok
    exact ⟨rfl, rfl⟩
  | createDebate now user d => exact absurd rfl (hc now user d)
  | createArgument now d =>
    rw [step, createArgument_commit]
    refine Sql.commit_rule ⟨rfl, rfl⟩ fun ticketId db' hok => ?_
    obtain ⟨debateId, c, -, -, -, -, -, -, -, rfl⟩ := createArgumentSql_eq_ok.1 hok
    exact ⟨rfl, rfl⟩
  | saveArgumentAsDraft now d =>
    rw [step, saveArgumentAsDraft_commit]
    refine Sql.commit_rule ⟨rfl, rfl⟩ fun id db' hok => ?_
    obtain ⟨debateId, c, -, -, -, -, -, -, rfl⟩ := insertArgument_eq_ok.1 hok
    exact ⟨rfl, rfl⟩
  | updateDraft d =>
    rw [step, updateDraft_commit]
    refine Sql.commit_rule ⟨rfl, rfl⟩ fun n db' hok => ?_
    obtain ⟨c, debateId, draftId, -, -, -, rfl, -⟩ := updateDraftSql_eq_ok.1 hok
    exact ⟨rfl, rfl⟩
  | submitDraft d =>
    rw [step, submitDraft_commit]
    refine Sql.commit_rule ⟨rfl, rfl⟩ fun u db' hok => ?_
    obtain ⟨c, draftId, debateId, -, rfl⟩ := submitDraftSql_eq_ok.1 hok
    exact ⟨rfl, rfl⟩
  | updateArgument d =>
    rw [step, updateArgument_commit]
    refine Sql.commit_rule ⟨rfl, rfl⟩ fun n db' hok => ?_
    obtain ⟨title, content, argumentId, -, -, rfl⟩ := updateArgumentSql_ok hok
    exact ⟨rfl, rfl⟩
  | updateDebate d =>
    rw [step, updateDebate_commit]
    refine Sql.commit_rule ⟨rfl, rfl⟩ fun n db' hok => ?_
    obtain ⟨title, debateId, -, -, rfl⟩ := updateDebateSql_ok hok
    exact ⟨rfl, rfl⟩
  | updateTicket d =>
    rw [step, updateTicket_commit]
    refine Sql.commit_rule ⟨rfl, rfl⟩ fun n db' hok => ?_
    obtain ⟨b, -, -, rfl, -⟩ := updateTicketSql_eq_ok.1 hok
    exact ⟨rfl, rfl⟩
  | approveTicket user ticketId =>
    rw [step, approveTicket_commit]
    refine Sql.commit_rule ⟨rfl, rfl⟩ fun rows db' hok => ?_
    obtain ⟨-, rfl, -⟩ := approveTicketSql_eq_ok.1 hok
    exact ⟨rfl, rfl⟩
  | addCommentToDebate now d =>
    rw [step, addCommentToDebate, addComment_commit]
    refine Sql.commit_rule ⟨rfl, rfl⟩ fun comments db' hok => ?_
    obtain ⟨rows, rfl⟩ := addCommentSql_ok hok
    exact ⟨rfl, rfl⟩
  | addCommentToArgument now d =>
    rw [step, addCommentToArgument, addComment_commit]
    refine Sql.commit_rule ⟨rfl, rfl⟩ fun comments db' hok => ?_
    obtain ⟨rows, rfl⟩ := addCommentSql_ok hok
    exact ⟨rfl, rfl⟩
  | updateComment now user d =>
    rw [step, updateComment_commit]
    refine Sql.commit_rule ⟨rfl, rfl⟩ fun n db' hok => ?_
    obtain ⟨content, commentId, -, -, rfl⟩ := updateCommentSql_ok hok
    exact ⟨rfl, rfl⟩
  | skipIds gaps => exact ⟨rfl, rfl⟩

theorem mapM_text {names : List String} (h : ∀ name ∈ names, IsText name) :
    names.mapM text = .ok names := by
  rw [mapM_eq_ok, List.forall₂_same]
  exact fun name hname => if_pos (h name hname)

theorem mem_of_mapM_int4 {xs : List JsNumber} {ids : List Int} (h : xs.mapM int4 = .ok ids)
    {n : Int} (hn : .int n ∈ xs) : n ∈ ids := by
  rw [mapM_eq_ok] at h
  induction h with
  | nil => exact absurd hn List.not_mem_nil
  | cons hx _ ih =>
    rcases List.mem_cons.1 hn with rfl | hn
    · rw [(int4_int.1 hx).2]
      exact List.mem_cons_self ..
    · exact List.mem_cons_of_mem _ (ih hn)

theorem createTags_of_bringsNoTag {createdTags : Option (List String)}
    (h : db.BringsNoTag createdTags) : createTags createdTags db = .ok ([], db) := by
  cases createdTags with
  | none => rfl
  | some names =>
    obtain ⟨htext, hnone⟩ := h names rfl
    simp only [createTags, insertTags, Sql.bind_eq_ok, Sql.lift_eq_ok, Sql.get_eq_ok]
    refine ⟨names, db, ⟨mapM_text htext, rfl⟩, db, db, ⟨rfl, rfl⟩, ?_⟩
    rw [hnone]
    rfl

/-! ## Runs -/

/-- The tags of a debate are the tags of a debate: `fk_debate_id`. -/
def Database.AssocLinked (db : Database) : Prop :=
  ∀ x ∈ db.assocDebateTags.rows, ∃ d ∈ db.debates.rows, d.id = x.debateId

theorem assocLinked_step (db : Database) (c : Call) (h : db.AssocLinked) :
    (step db c).AssocLinked := by
  by_cases hc : ∃ now user d, c = .createDebate now user d
  · obtain ⟨now, user, d, rfl⟩ := hc
    rw [step, createDebate_commit]
    refine Sql.commit_rule h fun ticketId db' hok => ?_
    obtain ⟨_, tags, title, ids, assoc, -, -, -, -, hassoc, -, rfl⟩ := createDebateSql_eq_ok.1 hok
    intro x hx
    rw [hassoc, List.mem_append, List.mem_map] at hx
    rcases hx with hx | ⟨id, -, rfl⟩
    · obtain ⟨d', hd', hid⟩ := h x hx
      exact ⟨d', (SerialTable.mem_insert).2 (Or.inl hd'), hid⟩
    · exact ⟨_, (SerialTable.mem_insert).2 (Or.inr rfl), rfl⟩
  · have hsame := step_sameTags db fun now user d he => hc ⟨now, user, d, he⟩
    intro x hx
    rw [hsame.assocDebateTags] at hx
    exact (step_effect db c).exists_debate (h x hx)

theorem Frame.tagged {c : Call} (h : Frame db c db') {d d' : DebateRow} (hid : d'.id = d.id)
    (hd : db.Tagged d) : db'.Tagged d' := by
  obtain ⟨adt, hadt, hdebate, g, hg, htag⟩ := hd
  exact ⟨adt, h.assocDebateTags adt hadt, hdebate.trans hid.symm, g, h.debateTags g hg, htag⟩

/-- A proposal without a tag stores a debate without a tag. -/
theorem Database.ProposesUntagged.not_tagged {c : Call} (h : db.ProposesUntagged c)
    (hA : db.AssocLinked) : ∃ d ∈ (step db c).debates.rows, ¬ (step db c).Tagged d := by
  obtain ⟨now, user, d, title, tagsIds, rfl, hd, hnone, hno⟩ := h
  have hnodup : (db.assocDebateTags.rows ++
      tagsIds.map (AssocDebateTagRow.mk db.debates.next)).Nodup := by
    refine db.assocDebateTags.nodup.append
      (hd.nodup.map fun _ _ he => (AssocDebateTagRow.mk.inj he).2) ?_
    intro x hx hx'
    obtain ⟨id, -, rfl⟩ := List.mem_map.1 hx'
    obtain ⟨d', hd', hid⟩ := hA _ hx
    exact SerialTable.ne_next hd' hid
  have hids : (d.tagsIds ++ ([] : List Int).map JsNumber.int).mapM int4 = .ok tagsIds := by
    rw [List.map_nil, List.append_nil]
    exact hd.ids
  have hok : createDebateSql now user d db = .ok (db.tickets.next, { db with
      tickets := db.tickets.insert fun id => ⟨id, user.id, none, some .pending⟩
      debates := db.debates.insert fun id => ⟨id, db.tickets.next, title, now, now, user.id⟩
      assocDebateTags := ⟨_, hnodup⟩ }) :=
    createDebateSql_eq_ok.2 ⟨[], db.debateTags, title, tagsIds, ⟨_, hnodup⟩,
      createTags_of_bringsNoTag hno, ⟨hd.tickets, hd.user⟩, ⟨hd.debates, hd.title⟩, hids, rfl, rfl,
      rfl⟩
  rw [step, createDebate_commit, Sql.commit_of_ok hok]
  refine ⟨_, (SerialTable.mem_insert).2 (Or.inr rfl), ?_⟩
  rintro ⟨adt, hadt, hdebate, g, hg, htag⟩
  rcases List.mem_append.1 hadt with hadt | hadt
  · obtain ⟨d', hd', hid⟩ := hA _ hadt
    exact SerialTable.ne_next hd' (hid.trans hdebate)
  · obtain ⟨id, hid, rfl⟩ := List.mem_map.1 hadt
    exact hnone g hg (htag ▸ hid)

/-- A proposal that is stored has a tag, or it is a proposal without a tag. -/
theorem createDebateSql_tagged {now : Timestamp} {user : UserCookieData} {d : CreateDebateDTO}
    {ticketId : Int} (hok : createDebateSql now user d db = .ok (ticketId, db'))
    (hI : ∀ x ∈ db.debates.rows, db.Tagged x)
    (h : ¬ db.ProposesUntagged (.createDebate now user d)) :
    ∀ x ∈ db'.debates.rows, db'.Tagged x := by
  obtain ⟨createdIds, tags, title, ids, assoc, htags, ⟨hticket, huser⟩, ⟨hnext, htitle⟩, hids,
    hassoc, -, rfl⟩ := createDebateSql_eq_ok.1 hok
  obtain ⟨created, tags', htext, hnames, rfl, hrows, -, -, htags'⟩ := createTags_ok htags
  obtain rfl : tags = tags' := congrArg Database.debateTags htags'
  have hstored : ∀ g ∈ db.debateTags.rows, g ∈ tags.rows := fun g hg =>
    hrows ▸ List.mem_append_left _ hg
  -- the new debate has every id that the request names or that was created for it
  have hnew : ∀ g ∈ tags.rows, g.id ∈ ids → ∃ adt ∈ assoc.rows, adt.debateId = db.debates.next ∧
      ∃ g ∈ tags.rows, g.id = adt.tagId := by
    intro g hg hid
    refine ⟨⟨db.debates.next, g.id⟩, ?_, rfl, g, hg, rfl⟩
    rw [hassoc]
    exact List.mem_append_right _ (List.mem_map.2 ⟨g.id, hid, rfl⟩)
  intro x hx
  rcases (SerialTable.mem_insert).1 hx with hx | rfl
  · obtain ⟨adt, hadt, hdebate, g, hg, htag⟩ := hI x hx
    refine ⟨adt, ?_, hdebate, g, hstored g hg, htag⟩
    rw [hassoc]
    exact List.mem_append_left _ hadt
  · rcases created with _ | ⟨g, created⟩
    · by_contra hnot
      rw [List.map_nil, List.map_nil, List.append_nil] at hids
      refine h ⟨now, user, d, title, ids, rfl, ⟨htitle, hids, ?_, hticket, hnext, huser⟩, ?_, ?_⟩
      · have hnodup := assoc.nodup
        rw [hassoc] at hnodup
        exact (List.nodup_append.1 hnodup).2.1.of_map _
      · exact fun g hg hid => hnot (hnew g (hstored g hg) hid)
      · rintro names hsome
        rw [hsome] at htext hnames
        exact ⟨htext, List.forall₂_nil_right_iff.1 hnames⟩
    · refine hnew g ?_ (mem_of_mapM_int4 hids (by simp))
      rw [hrows]
      exact List.mem_append_right _ (List.mem_cons_self ..)

theorem tagged_step {c : Call} (hI : ∀ x ∈ db.debates.rows, db.Tagged x)
    (h : ¬ db.ProposesUntagged c) : ∀ x ∈ (step db c).debates.rows, (step db c).Tagged x := by
  by_cases hc : ∃ now user d, c = .createDebate now user d
  · obtain ⟨now, user, d, rfl⟩ := hc
    rw [step, createDebate_commit]
    exact Sql.commit_rule hI fun ticketId db' hok => createDebateSql_tagged hok hI h
  · have hframe := step_frame db c
    intro x' hx'
    rcases (step_effect db c).debate_prev hx' with ⟨x, hx, hchange⟩ | hnew
    · exact hframe.tagged hchange.id (hI x hx)
    · exact absurd hnew.call hc

/-- **Findability.** The debates of all states of a run are found everywhere exactly when no call
    of it proposes a debate without a tag. -/
theorem none_lost_iff (lower : String → String) (calls : List Call) :
    (∀ db ∈ states step (Database.empty lower) calls, db.NoneLost) ↔
      ∀ p ∈ steps step (Database.empty lower) calls, ¬ p.1.ProposesUntagged p.2 := by
  refine states_iff_steps (J := fun db => db.Linked ∧ db.Stored ∧ db.AssocLinked)
    (I := Database.NoneLost) (C := fun db c => ¬ db.ProposesUntagged c)
    (fun db c h => ⟨linked_step db c h.1, stored_step db c h.2.1, assocLinked_step db c h.2.2⟩)
    ?_ ⟨Database.Linked.empty lower, Database.Stored.empty lower, ?_⟩ ?_ calls
  · rintro db c ⟨hL, hS, hA⟩ hI
    rw [noneLost_iff hL hS] at hI
    rw [noneLost_iff (linked_step db c hL) (stored_step db c hS)]
    constructor
    · intro hI' huntagged
      obtain ⟨d, hd, hnot⟩ := huntagged.not_tagged hA
      exact hnot (hI' d hd)
    · exact tagged_step hI
  · exact fun x hx => absurd hx List.not_mem_nil
  · exact fun d hd => absurd hd List.not_mem_nil

/-- A debate proposed without tags is created, and then it is on no board. -/
theorem untagged_debate_lost :
    let db := run step (Database.empty String.toLower) createUsers
    (createDebate 1 testUser ⟨"Moderator review debate", [], none⟩ db).result = .ok () ∧
      ¬ (step db proposeDebate).NoneLost := by
  refine ⟨by decide +kernel, fun h => ?_⟩
  obtain ⟨t, -, -, hlisted⟩ := h ⟨1, 1, "Moderator review debate", 1, 1, 1⟩ (by decide +kernel)
  obtain ⟨cards, hcards, hlist⟩ := hlisted.cards
  obtain rfl := Except.ok.inj hcards
  have hlen := congrArg List.length hlist
  rw [List.length_singleton] at hlen
  exact absurd hlen (by decide +kernel)

end DecentDebates

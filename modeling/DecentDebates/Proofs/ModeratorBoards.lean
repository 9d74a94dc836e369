import DecentDebates.ModeratorBoards
import DecentDebates.Proofs.TagLists
import DecentDebates.Proofs.Linkage

set_option autoImplicit false

/-! # The moderators' boards: proofs

The right join pads a list only when no card is on it, and a padded row has no ticket. So the group
of a list, without the cards that have no ticket, is the inner join with this list, and the inner
joins below it are lookups that neither lose nor repeat a submission. -/

namespace DecentDebates

open Relational

variable {db : Database}

/-! ## Decoding the debates -/

/-- What a row becomes once its tags are split. -/
def ModeratorCard.ofProposed (row : BoardList × Option ProposedDebate) : ModeratorCard :=
  let raw := ModeratorActivityDebate.ofRow row
  match row.2 with
  | none => .raw raw
  | some (((_, _), dts), _) =>
    .debate
      { ticketId := raw.ticketId
        boardList := raw.boardList
        moderatorId := raw.moderatorId
        ticketTitle := raw.ticketTitle
        moderatorUsername := raw.moderatorUsername
        ticketLabel := raw.ticketLabel
        debateId := raw.debateId
        tags := zipTags dts.tags dts.tagsIds }

theorem ModeratorCard.ofProposed_boardList (row : BoardList × Option ProposedDebate) :
    (ModeratorCard.ofProposed row).boardList = (ModeratorActivityDebate.ofRow row).boardList := by
  obtain ⟨boardList, _ | card⟩ := row <;> rfl

theorem ModeratorCard.ofProposed_ticketId (row : BoardList × Option ProposedDebate) :
    (ModeratorCard.ofProposed row).ticketId = (ModeratorActivityDebate.ofRow row).ticketId := by
  obtain ⟨boardList, _ | card⟩ := row <;> rfl

/-- A proposed debate in a row of the query has its ticket. -/
theorem exists_ticket_of_proposed (hL : db.Linked) {card : ProposedDebate}
    (h : card ∈ proposedDebates db) : ∃ d ∈ db.debates.rows, ∃ t ∈ db.tickets.rows,
      t.id = d.ticketId ∧ card.1.1 = (d, some t) ∧ db.debateTagsRow d = some card.1.2 := by
  rw [proposedDebates_eq, List.mem_filterMap] at h
  obtain ⟨d, hd, hcard⟩ := h
  obtain ⟨dts, hdts, rfl⟩ := Option.map_eq_some_iff.1 hcard
  obtain ⟨t, ht, hid, -⟩ := hL.owner (.debate d) (mem_submissions_debate.2 hd) d.ticketId rfl
  have hfind : db.tickets.find? d.ticketId = some t := SerialTable.find?_eq_some.2 ⟨ht, hid⟩
  exact ⟨d, hd, t, ht, hid, by rw [hfind], hdts⟩

theorem ofDebate_ofRow (hL : db.Linked) (hP : db.PositiveIds)
    {row : BoardList × Option ProposedDebate}
    (hrow : row ∈ leftJoin boardListTypes (proposedDebates db) onBoardList) :
    ModeratorCard.ofDebate (.ofRow row) = .ok (ModeratorCard.ofProposed row) := by
  obtain ⟨boardList, _ | card⟩ := row
  · rfl
  · obtain ⟨d, -, t, ht, -, hcard, -⟩ :=
      exists_ticket_of_proposed hL (mem_leftJoin_some hrow).2.1
    obtain ⟨⟨q, dts⟩, u⟩ := card
    obtain rfl : q = (d, some t) := hcard
    have hne : t.id ≠ 0 := (hP.tickets t ht).ne'
    simp [ModeratorCard.ofDebate, ModeratorActivityDebate.ofRow, ModeratorCard.ofProposed,
      Option.filter, hne]

theorem mapM_eq_map {ε α β : Type} {f : α → Except ε β} {g : α → β} {xs : List α}
    (h : ∀ x ∈ xs, f x = .ok (g x)) : xs.mapM f = .ok (xs.map g) := by
  rw [mapM_eq_ok, List.forall₂_map_right_iff, List.forall₂_same]
  exact h

/-! ## The rows of one list -/

theorem boardListTypes_nodup : boardListTypes.Nodup := by decide

theorem mem_boardListTypes (b : BoardList) : b ∈ boardListTypes := by cases b <;> decide

/-- The rows of the debates query that make cards on `b`: none of them is padded. -/
theorem filter_debateRows (hL : db.Linked) (b : BoardList) :
    (leftJoin boardListTypes (proposedDebates db) onBoardList).filter
        (fun row => (ModeratorActivityDebate.ofRow row).boardList = b ∧
          (ModeratorActivityDebate.ofRow row).ticketId ≠ none) =
      ((proposedDebates db).filter fun card => (onBoardList b card).holds).map
        fun card => (b, some card) := by
  rw [← filter_leftJoin_left boardListTypes_nodup (mem_boardListTypes b)]
  refine List.filter_congr fun row hrow => ?_
  obtain ⟨b', _ | card⟩ := row
  · simp [ModeratorActivityDebate.ofRow]
  · obtain ⟨-, hcard, hon⟩ := mem_leftJoin_some hrow
    obtain ⟨d, -, t, -, -, hd, -⟩ := exists_ticket_of_proposed hL hcard
    obtain ⟨⟨q, dts⟩, u⟩ := card
    obtain rfl : q = (d, some t) := hd
    have hboard : t.boardList = some b' := by simpa [onBoardList] using hon
    simp [ModeratorActivityDebate.ofRow, hboard]

/-- `t.board_list = boardListTypes."boardList"`, for arguments -/
def onArgumentList (b : BoardList) (card : ArgumentCard) : Truth :=
  Truth.eq card.1.1.1.boardList (some b)

theorem filter_argumentRows (db : Database) (b : BoardList) :
    (leftJoin boardListTypes (argumentCards db) onArgumentList).filter
        (fun row => (ModeratorActivityArgument.ofRow row).boardList = b ∧
          (ModeratorActivityArgument.ofRow row).ticketId ≠ none) =
      ((argumentCards db).filter fun card => (onArgumentList b card).holds).map
        fun card => (b, some card) := by
  rw [← filter_leftJoin_left boardListTypes_nodup (mem_boardListTypes b)]
  refine List.filter_congr fun row hrow => ?_
  obtain ⟨b', _ | card⟩ := row
  · simp [ModeratorActivityArgument.ofRow]
  · obtain ⟨-, -, hon⟩ := mem_leftJoin_some hrow
    have hboard : card.1.1.1.boardList = some b' := by simpa [onArgumentList] using hon
    simp [ModeratorActivityArgument.ofRow, hboard]

/-- The cards that end up on the board of `b`. -/
def Database.cardsOn (db : Database) (b : BoardList) : List ModeratorCard :=
  ((proposedDebates db).filter fun card => (onBoardList b card).holds).map
      (fun card => .ofProposed (b, some card)) ++
    ((argumentCards db).filter fun card => (onArgumentList b card).holds).map
      fun card => .argument (.ofRow (b, some card))

/-- The stream that the boards are made of. -/
def Database.cardStream (db : Database) : List ModeratorCard :=
  (leftJoin boardListTypes (proposedDebates db) onBoardList).map ModeratorCard.ofProposed ++
    (leftJoin boardListTypes (argumentCards db) onArgumentList).map
      fun row => .argument (.ofRow row)

/-- The boards are the groups of one stream of cards. -/
theorem getActivity_eq (hL : db.Linked) (hP : db.PositiveIds) :
    ModeratorController.getActivity db = .ok (groupCards db.cardStream) := by
  have hdebates : ((leftJoin boardListTypes (proposedDebates db) onBoardList).map
      ModeratorActivityDebate.ofRow).mapM ModeratorCard.ofDebate =
        .ok ((leftJoin boardListTypes (proposedDebates db) onBoardList).map
          ModeratorCard.ofProposed) := by
    rw [List.mapM_map]
    exact mapM_eq_map fun row hrow => ofDebate_ofRow hL hP hrow
  unfold ModeratorController.getActivity getDebateCards getArgumentCards
  simp only [bind, Except.bind, hdebates, List.map_map]
  rfl

theorem filter_cardStream (hL : db.Linked) (b : BoardList) :
    (db.cardStream.filter fun card => card.boardList = b).filter
      (fun card => card.ticketId ≠ none) = db.cardsOn b := by
  have hdebates := congrArg (List.map ModeratorCard.ofProposed) (filter_debateRows hL b)
  have harguments := congrArg
    (List.map fun row => ModeratorCard.argument (ModeratorActivityArgument.ofRow row))
    (filter_argumentRows db b)
  rw [List.map_map] at hdebates harguments
  unfold Database.cardStream Database.cardsOn
  rw [List.filter_filter, List.filter_append, List.filter_map, List.filter_map]
  refine congrArg₂ _ (Eq.trans ?_ hdebates) (Eq.trans ?_ harguments)
  · refine congrArg _ (List.filter_congr fun row _ => ?_)
    rw [Function.comp_apply, Bool.eq_iff_iff, Bool.and_eq_true, decide_eq_true_iff,
      decide_eq_true_iff, decide_eq_true_iff, ModeratorCard.ofProposed_boardList,
      ModeratorCard.ofProposed_ticketId]
    exact and_comm
  · refine congrArg _ (List.filter_congr fun row _ => ?_)
    rw [Function.comp_apply, Bool.eq_iff_iff, Bool.and_eq_true, decide_eq_true_iff,
      decide_eq_true_iff, decide_eq_true_iff]
    exact and_comm

/-! ## One card for each submission -/

theorem mem_argumentCards {t : TicketRow} {a : ArgumentRow} {d : DebateRow} {u : Option UserRow}
    (h : (((t, a), d), u) ∈ argumentCards db) :
    t ∈ db.tickets.rows ∧ a ∈ db.arguments.rows ∧ a.ticketId = some t.id ∧
      d ∈ db.debates.rows ∧ d.id = a.debateId := by
  obtain ⟨hinner, hd, hdebate⟩ := mem_innerJoin.1 (mem_of_mem_leftJoin h)
  obtain ⟨ht, ha, hticket⟩ := mem_innerJoin.1 hinner
  exact ⟨ht, ha, by simpa using hticket, hd, by simpa [eq_comm] using hdebate⟩

/-- An argument is on one row, as its ticket and its debate are one row each. -/
theorem nodup_argumentCards (db : Database) :
    ((argumentCards db).map fun card => card.1.1.2.id).Nodup := by
  have hrows {ρ : Type} [SerialRow ρ] (t : SerialTable ρ) : t.rows.Nodup := t.nodup.of_map _
  have husers := fun xs => leftJoin_rowId xs db.users
    fun q : (TicketRow × ArgumentRow) × DebateRow => q.1.1.assignedTo
  have hjoin : (argumentCards db).map (fun card => card.1) = innerJoin
      (innerJoin db.tickets.rows db.arguments.rows fun t a => Truth.eq a.ticketId (some t.id))
      db.debates.rows fun q d => Truth.eq (some q.2.debateId) (some d.id) := by
    refine (congrArg _ (husers _)).trans ?_
    rw [List.map_map]
    exact List.map_id _
  have hcards : ((argumentCards db).map fun card => card.1).Nodup := by
    rw [hjoin]
    exact nodup_innerJoin (nodup_innerJoin (hrows _) (hrows _) _) (hrows _) _
  have hids := List.Nodup.map_on (f := fun q : (TicketRow × ArgumentRow) × DebateRow => q.1.2.id)
    ?_ hcards
  · rwa [List.map_map] at hids
  · rintro q hq q' hq' hid
    obtain ⟨⟨⟨⟨t, a⟩, d⟩, u⟩, hcard, rfl⟩ := List.mem_map.1 hq
    obtain ⟨⟨⟨⟨t', a'⟩, d'⟩, u'⟩, hcard', rfl⟩ := List.mem_map.1 hq'
    obtain ⟨ht, ha, hticket, hd, hdebate⟩ := mem_argumentCards hcard
    obtain ⟨ht', ha', hticket', hd', hdebate'⟩ := mem_argumentCards hcard'
    obtain rfl := SerialTable.eq_of_rowId_eq ha ha' hid
    obtain rfl := SerialTable.eq_of_rowId_eq ht ht' (Option.some.inj (hticket.symm.trans hticket'))
    obtain rfl := SerialTable.eq_of_rowId_eq hd hd' (hdebate.trans hdebate'.symm)
    rfl

theorem nodup_proposedDebates (db : Database) :
    ((proposedDebates db).map fun card => card.1.1.1.id).Nodup := by
  rw [proposedDebates_eq]
  refine db.debates.nodup.sublist (map_filterMap_sublist (fun d card hcard => ?_) _)
  obtain ⟨dts, -, rfl⟩ := Option.map_eq_some_iff.1 hcard
  rfl

/-! ## What is on a board -/

theorem map_key_cardsOn (b : BoardList) : (db.cardsOn b).map ModeratorCard.key =
    ((proposedDebates db).filter fun card => (onBoardList b card).holds).map
        (fun card => some (.inl card.1.1.1.id)) ++
      ((argumentCards db).filter fun card => (onArgumentList b card).holds).map
        fun card => some (.inr card.1.1.2.id) := by
  rw [Database.cardsOn, List.map_append, List.map_map, List.map_map]
  rfl

theorem nodup_cardsOn (db : Database) (b : BoardList) :
    ((db.cardsOn b).map ModeratorCard.key).Nodup := by
  rw [map_key_cardsOn]
  refine List.Nodup.append ?_ ?_ ?_
  · have hids := (nodup_proposedDebates db).sublist
      ((List.filter_sublist (p := fun card => (onBoardList b card).holds)).map _)
    have hkeys := hids.map (f := fun id => some (Sum.inl (β := Int) id)) fun _ _ h =>
      Sum.inl.inj (Option.some.inj h)
    rwa [List.map_map] at hkeys
  · have hids := (nodup_argumentCards db).sublist
      ((List.filter_sublist (p := fun card => (onArgumentList b card).holds)).map _)
    have hkeys := hids.map (f := fun id => some (Sum.inr (α := Int) id)) fun _ _ h =>
      Sum.inr.inj (Option.some.inj h)
    rwa [List.map_map] at hkeys
  · rw [List.disjoint_left]
    intro k hk hk'
    obtain ⟨card, -, rfl⟩ := List.mem_map.1 hk
    obtain ⟨card', -, h⟩ := List.mem_map.1 hk'
    cases h

theorem sound_cardsOn (hL : db.Linked) {b : BoardList} {card : ModeratorCard}
    (h : card ∈ db.cardsOn b) : ∃ s ∈ db.submissions, ∃ t ∈ db.tickets.rows,
      card.key = some s.key ∧ db.ShownWith t s ∧ t.boardList = some b ∧
        card.ticketId = some t.id ∧ card.boardList = b ∧ card.moderatorId = t.assignedTo := by
  rcases List.mem_append.1 h with h | h
  · obtain ⟨row, hrow, rfl⟩ := List.mem_map.1 h
    obtain ⟨hcard, hon⟩ := List.mem_filter.1 hrow
    obtain ⟨d, hd, t, ht, hid, hq, hdts⟩ := exists_ticket_of_proposed hL hcard
    obtain ⟨⟨q, dts⟩, u⟩ := row
    obtain rfl : q = (d, some t) := hq
    have hboard : t.boardList = some b := by simpa [onBoardList] using hon
    have htagged : db.Tagged d := debateTagsRow_ne_none.1 (by simp [hdts])
    refine ⟨.debate d, mem_submissions_debate.2 hd, t, ht, rfl,
      ⟨congrArg some hid.symm, htagged⟩, hboard, rfl, ?_, rfl⟩
    simp [ModeratorCard.ofProposed, ModeratorCard.boardList, ModeratorActivityDebate.ofRow, hboard]
  · obtain ⟨row, hrow, rfl⟩ := List.mem_map.1 h
    obtain ⟨hcard, hon⟩ := List.mem_filter.1 hrow
    obtain ⟨⟨⟨t, a⟩, d⟩, u⟩ := row
    obtain ⟨ht, ha, hticket, -, -⟩ := mem_argumentCards hcard
    have hboard : t.boardList = some b := by simpa [onArgumentList] using hon
    refine ⟨.argument a, mem_submissions_argument.2 ha, t, ht, rfl, ⟨hticket, trivial⟩, hboard,
      rfl, ?_, rfl⟩
    simp [ModeratorCard.boardList, ModeratorActivityArgument.ofRow, hboard]

theorem complete_cardsOn (hS : db.Stored) {b : BoardList} {s : Submission} {t : TicketRow}
    (hs : s ∈ db.submissions) (ht : t ∈ db.tickets.rows) (hshown : db.ShownWith t s)
    (hb : t.boardList = some b) : some s.key ∈ (db.cardsOn b).map ModeratorCard.key := by
  rw [map_key_cardsOn, List.mem_append]
  obtain ⟨hticket, htags⟩ := hshown
  cases s with
  | debate d =>
    have hd := mem_submissions_debate.1 hs
    have hfind : db.tickets.find? d.ticketId = some t :=
      SerialTable.find?_eq_some.2 ⟨ht, (Option.some.inj hticket).symm⟩
    obtain ⟨dts, hdts⟩ := Option.ne_none_iff_exists'.1 (debateTagsRow_ne_none.2 htags)
    refine Or.inl (List.mem_map.2
      ⟨(((d, some t), dts), t.assignedTo.bind db.users.find?), ?_, rfl⟩)
    rw [List.mem_filter, proposedDebates_eq, List.mem_filterMap]
    refine ⟨⟨d, hd, ?_⟩, by simp [onBoardList, hb]⟩
    simp [Database.proposedDebate, hdts, hfind]
  | argument a =>
    have ha := mem_submissions_argument.1 hs
    have hticket : a.ticketId = some t.id := hticket
    obtain ⟨d, hd, hdebate⟩ := hS.argument_debate a ha
    have hinner : ((t, a), d) ∈ innerJoin
        (innerJoin db.tickets.rows db.arguments.rows fun t a => Truth.eq a.ticketId (some t.id))
        db.debates.rows fun q d => Truth.eq (some q.2.debateId) (some d.id) := by
      refine mem_innerJoin.2 ⟨mem_innerJoin.2 ⟨ht, ha, ?_⟩, hd, ?_⟩
      · simpa using hticket
      · simpa using hdebate.symm
    obtain ⟨u, hcard⟩ := exists_mem_leftJoin hinner db.users.rows
      fun q u => Truth.eq q.1.1.assignedTo (some u.id)
    have hon : (onArgumentList b (((t, a), d), u)).holds = true := by simp [onArgumentList, hb]
    exact Or.inr (List.mem_map.2 ⟨_, List.mem_filter.2 ⟨hcard, hon⟩, rfl⟩)

theorem isExact_cardsOn (hL : db.Linked) (hS : db.Stored) (b : BoardList) :
    BoardCards.IsExact ⟨b, db.cardsOn b⟩ db
      ((leftJoin boardListTypes (proposedDebates db) onBoardList).map ModeratorActivityDebate.ofRow)
      ((leftJoin boardListTypes (argumentCards db) onArgumentList).map
        ModeratorActivityArgument.ofRow) where
  order := by
    have hdebates := congrArg (List.map fun row => (ModeratorActivityDebate.ofRow row).debateId.map
      (Sum.inl (β := Int))) (filter_debateRows hL b)
    have harguments := congrArg (List.map fun row =>
      (ModeratorActivityArgument.ofRow row).argumentId.map (Sum.inr (α := Int)))
        (filter_argumentRows db b)
    rw [map_key_cardsOn, List.filter_map, List.filter_map, List.map_map, List.map_map]
    rw [List.map_map] at hdebates harguments
    exact (congrArg₂ _ hdebates harguments).symm
  nodup := nodup_cardsOn db b
  complete := fun s hs t ht hshown hb => complete_cardsOn hS hs ht hshown hb
  sound := fun card hcard => sound_cardsOn hL hcard

/-! ## The boards -/

theorem mem_boardLists (b : BoardList) : b ∈ db.cardStream.map ModeratorCard.boardList := by
  obtain ⟨card, hrow⟩ :=
    exists_mem_leftJoin (mem_boardListTypes b) (argumentCards db) onArgumentList
  refine List.mem_map.2 ⟨.argument (.ofRow (b, card)),
    List.mem_append_right _ (List.mem_map.2 ⟨_, hrow, rfl⟩), ?_⟩
  cases card with
  | none => rfl
  | some card =>
    have hboard : card.1.1.1.boardList = some b := by
      simpa [onArgumentList] using (mem_leftJoin_some hrow).2.2
    simp [ModeratorCard.boardList, ModeratorActivityArgument.ofRow, hboard]

theorem groupCards_cardStream (hL : db.Linked) : groupCards db.cardStream =
    (db.cardStream.map ModeratorCard.boardList).eraseDups.map fun b => ⟨b, db.cardsOn b⟩ := by
  unfold groupCards
  exact List.map_congr_left fun b _ => congrArg _ (filter_cardStream hL b)

/-- **The boards partition the submissions.** In every reachable state `GET /moderator/activity`
    answers with each of the four lists once, and each board shows exactly what is on its list. -/
theorem moderatorActivity_partition (h : db.Reachable) :
    ∃ debates arguments boards, getDebateCards db = .ok debates ∧
      getArgumentCards db = .ok arguments ∧ ModeratorController.getActivity db = .ok boards ∧
      (∀ b : BoardList, boards.countP (fun board => board.boardList = b) = 1) ∧
      ∀ board ∈ boards, board.IsExact db debates arguments := by
  refine ⟨_, _, _, rfl, rfl, getActivity_eq h.linked h.positiveIds, fun b => ?_,
    fun board hboard => ?_⟩
  · rw [groupCards_cardStream h.linked, List.countP_map]
    exact List.count_eq_one_of_mem (nodup_eraseDups _) (List.mem_eraseDups.2 (mem_boardLists b))
  · rw [groupCards_cardStream h.linked] at hboard
    obtain ⟨b, -, rfl⟩ := List.mem_map.1 hboard
    exact isExact_cardsOn h.linked h.stored b

/-- A debate with a tag, a debate without one and an argument in review. -/
def moderatedDatabase : Database :=
  Transition.run step (Database.empty id) (createUsers ++
    [.createDebate 1 testUser ⟨"Vaccines", [], some ["health"]⟩, proposeDebate,
      .createArgument 2 ⟨testUser, .int 1, sampleArgument "Herd immunity"⟩,
      .updateTicket ⟨2, 3, "IN REVIEW"⟩])

theorem moderatorActivity_partition_sample :
    moderatedDatabase.submissions.map Submission.ticketId = [some 1, some 2, some 3] ∧
      ∃ debates arguments boards, getDebateCards moderatedDatabase = .ok debates ∧
        getArgumentCards moderatedDatabase = .ok arguments ∧
        ModeratorController.getActivity moderatedDatabase = .ok boards ∧
        (∀ b : BoardList, boards.countP (fun board => board.boardList = b) = 1) ∧
        ∀ board ∈ boards, board.IsExact moderatedDatabase debates arguments :=
  ⟨by rw [moderatedDatabase, run_createUsers_append]; decide +kernel,
    moderatorActivity_partition (Database.reachable_run _ _)⟩

end DecentDebates

import DecentDebates.ActivityPage
import DecentDebates.Proofs.Approvals
import DecentDebates.Proofs.ModeratorBoards

set_option autoImplicit false

/-! # The moderator's page: proofs

Requests reach the server in the order they were sent, so what the server will hold once it has
handled all of them is known when they are sent. The page is compared with that database: a card is
where its ticket will be, except while its approval is pending. -/

namespace DecentDebates

open Relational Transition

variable {db : Database} {k : Int}

/-! ## Unassigned tickets -/

/-- Tickets without an assignee are PENDING. -/
def Database.UnassignedPending (db : Database) : Prop :=
  ∀ t ∈ db.tickets.rows, t.assignedTo = none → t.boardList = some .pending

theorem unassignedPending_step (db : Database) (c : Call) (h : db.UnassignedPending) :
    (step db c).UnassignedPending := by
  intro t' ht' hnone
  rcases (step_effect db c).ticket_prev ht' with ⟨t, ht, htc⟩ | hnew
  · cases htc with
    | same => exact h _ ht hnone
    | @moved d b _ hb hw =>
      by_cases hp : t.boardList = some .pending
      · rw [moveTo_assignedTo_pending hp] at hnone
        exact nomatch hnone
      · rw [moveTo_assignedTo_off_pending hp] at hnone
        by_cases hr : d.boardList = "PENDING"
        · have hpending : b = .pending := label_eq_pending.1 (hb.trans hr)
          exact congrArg some hpending
        · rw [if_neg hr, (updateTicketWhere_off_pending hp hw).2] at hnone
          exact nomatch hnone
    | approved hw => exact nomatch (approveTicketWhere_holds.1 hw).2.symm.trans hnone
  · exact hnew.boardList

theorem Database.Reachable.unassignedPending (h : db.Reachable) : db.UnassignedPending :=
  h.invariant (fun _ t ht => absurd ht (by simp [Database.empty])) unassignedPending_step

namespace ActivityPage

variable {me : UserCookieData} {b b' : BoardList} {m : Option Int} {j : Int}

/-! ## The server -/

theorem handle_updateTicket_db (hid : IsInt4 k) :
    ((PageRequest.updateTicket k b).handle me db).db = db.moved ⟨me.id, k, b.label⟩ b :=
  step_updateTicket rfl hid

theorem handle_approvalRequest_db {card : ModeratorActivity} (hid : IsInt4 card.ticketId) :
    ((approvalRequest card).handle me db).db = db.approved me.id card.ticketId := by
  have hstep : DecentDebates.step db (.approveTicket me card.ticketId) =
      db.approved me.id card.ticketId := step_approveTicket hid
  rw [← hstep]
  unfold approvalRequest
  split <;> exact approve_db _ _ me card.ticketId db

/-- A ticket does not have two places. -/
theorem ticketAt_updateTicket (h : db.TicketAt k b m) (hid : IsInt4 k)
    (hrights : m = some me.id ∨ b = .pending) :
    ((PageRequest.updateTicket k b').handle me db).db.TicketAt k b'
      (if b = .pending then some me.id else if b' = .pending then none else m) := by
  obtain ⟨t, ht, rfl, hb, hm⟩ := h
  have hw : (updateTicketWhere t.id me.id t).holds = true := by
    rw [updateTicketWhere_holds, hb, hm]
    by_cases hp : b = .pending
    · exact ⟨rfl, Or.inl (congrArg some hp)⟩
    · exact ⟨rfl, Or.inr ⟨⟨nofun, mt Option.some.inj hp⟩, hrights.resolve_right hp⟩⟩
  rw [handle_updateTicket_db hid]
  refine ⟨_, SerialTable.updateWhere_mem ht hw (by intro; rfl), rfl, rfl, ?_⟩
  by_cases hp : b = .pending
  · rw [moveTo_assignedTo_pending (hb.trans (congrArg some hp)), if_pos hp]
  · rw [moveTo_assignedTo_off_pending (hb.trans_ne (mt Option.some.inj hp)), if_neg hp, hm]
    exact if_congr label_eq_pending rfl rfl

theorem ticketAt_updateTicket_of_ne (h : db.TicketAt k b m) (hid : IsInt4 j) (hne : k ≠ j) :
    ((PageRequest.updateTicket j b').handle me db).db.TicketAt k b m := by
  obtain ⟨t, ht, rfl, hb, hm⟩ := h
  rw [handle_updateTicket_db hid]
  have hw : ¬ (updateTicketWhere j me.id t).holds = true :=
    fun hw => hne (updateTicketWhere_holds.1 hw).1
  exact ⟨t, SerialTable.updateWhere_mem_of_not ht hw (by intro; rfl), rfl, hb, hm⟩

theorem ticketAt_approve {card : ModeratorActivity}
    (h : db.TicketAt card.ticketId b (some me.id)) (hid : IsInt4 card.ticketId) :
    ((approvalRequest card).handle me db).db.TicketAt card.ticketId .accepted (some me.id) := by
  obtain ⟨t, ht, htid, -, hm⟩ := h
  rw [handle_approvalRequest_db hid]
  have hw : (approveTicketWhere card.ticketId me.id t).holds = true :=
    approveTicketWhere_holds.2 ⟨htid, hm⟩
  exact ⟨_, SerialTable.updateWhere_mem ht hw (by intro; rfl), htid, rfl, hm⟩

theorem ticketAt_approve_of_ne {card : ModeratorActivity} (h : db.TicketAt k b m)
    (hid : IsInt4 card.ticketId) (hne : k ≠ card.ticketId) :
    ((approvalRequest card).handle me db).db.TicketAt k b m := by
  obtain ⟨t, ht, rfl, hb, hm⟩ := h
  rw [handle_approvalRequest_db hid]
  have hw : ¬ (approveTicketWhere card.ticketId me.id t).holds = true :=
    fun hw => hne (approveTicketWhere_holds.1 hw).1
  exact ⟨t, SerialTable.updateWhere_mem_of_not ht hw (by intro; rfl), rfl, hb, hm⟩

theorem approve_isOk {card : ModeratorActivity} (h : db.TicketAt card.ticketId b (some me.id))
    (hid : IsInt4 card.ticketId) : ((approvalRequest card).handle me db).result.isOk = true := by
  obtain ⟨t, ht, htid, -, hm⟩ := h
  have hrows := approveTicket_rows hid ht (approveTicketWhere_holds.2 ⟨htid, hm⟩)
  unfold approvalRequest
  split
  · simp only [PageRequest.handle, ModeratorController.approveDebate, ModeratorController.approve,
      hrows, Outcome.result_resolve, Except.isOk, Except.toBool]
  · simp only [PageRequest.handle, ModeratorController.approveArgument,
      ModeratorController.approve, hrows, Outcome.result_resolve, Except.isOk, Except.toBool]

/-! ## The boards -/

variable {boards : List BoardData} {card c : ModeratorActivity} {fromBoardList : BoardList}

theorem mem_placed : (b, c) ∈ placed boards ↔
    ∃ board ∈ boards, board.boardList = b ∧ c ∈ board.cards := by
  simp only [placed, List.mem_flatMap, List.mem_map, Prod.mk.injEq]
  constructor
  · rintro ⟨board, hboard, _, hc, rfl, rfl⟩
    exact ⟨board, hboard, rfl, hc⟩
  · rintro ⟨board, hboard, rfl, hc⟩
    exact ⟨board, hboard, c, hc, rfl, rfl⟩

@[simp] theorem map_boardList_setBoardList :
    (setBoardList card b boards).map BoardData.boardList = boards.map BoardData.boardList :=
  List.map_map

/-- The cards of a ticket are on one board at most. -/
def OnlyOn (k : Int) (b : BoardList) (boards : List BoardData) : Prop :=
  ∀ p ∈ placed boards, p.2.ticketId = k → p.1 = b

theorem placed_setBoardList : placed (setBoardList card b boards) =
    (placed boards).map (Prod.map id fun c =>
      if c.ticketId = card.ticketId ∧ c.object = card.object then { c with boardList := b }
      else c) := by
  rw [placed, setBoardList, List.flatMap_map, placed, List.map_flatMap]
  refine List.flatMap_congr fun board _ => ?_
  rw [List.map_map, List.map_map]
  rfl

theorem OnlyOn.setBoardList (card : ModeratorActivity) (b : BoardList)
    (h : OnlyOn k fromBoardList boards) : OnlyOn k fromBoardList (setBoardList card b boards) := by
  intro p hp hk
  rw [placed_setBoardList] at hp
  obtain ⟨q, hq, rfl⟩ := List.mem_map.1 hp
  refine h q hq (hk ▸ ?_)
  simp only [Prod.map_snd]
  split <;> rfl

/-- Assigning to an object of a ticket does not touch the cards of other tickets. -/
theorem filter_placed_setBoardList : (placed (setBoardList card b boards)).filter
      (fun p => p.2.ticketId ≠ card.ticketId) =
    (placed boards).filter fun p => p.2.ticketId ≠ card.ticketId := by
  rw [placed_setBoardList, List.filter_map]
  have hsame : (fun p : BoardList × ModeratorActivity => decide (p.2.ticketId ≠ card.ticketId)) ∘
      (Prod.map id fun c => if c.ticketId = card.ticketId ∧ c.object = card.object then
        { c with boardList := b } else c) = fun p => decide (p.2.ticketId ≠ card.ticketId) := by
    funext p
    simp only [Function.comp_apply, Prod.map_snd]
    split <;> rfl
  rw [hsame]
  refine (List.map_congr_left fun p hp => ?_).trans (List.map_id _)
  have hne : p.2.ticketId ≠ card.ticketId := of_decide_eq_true (List.mem_filter.1 hp).2
  exact Prod.ext rfl (if_neg fun h => hne h.1)

/-- A ticket is taken from a board and its card put on another. -/
def moveCard (k : Int) (fromBoardList toBoardList : BoardList) (card : ModeratorActivity)
    (boards : List BoardData) : List BoardData :=
  boards.map fun a =>
    if a.boardList = fromBoardList then { a with cards := a.cards.filter fun c => c.ticketId ≠ k }
    else if a.boardList = toBoardList then { a with cards := a.cards ++ [card] }
    else a

@[simp] theorem map_boardList_moveCard : (moveCard k fromBoardList b card boards).map
    BoardData.boardList = boards.map BoardData.boardList := by
  rw [moveCard, List.map_map]
  refine List.map_congr_left fun a _ => ?_
  rw [Function.comp_apply]
  split_ifs <;> rfl

theorem placed_cons (a : BoardData) (boards : List BoardData) :
    placed (a :: boards) = a.cards.map (fun c => (a.boardList, c)) ++ placed boards :=
  List.flatMap_cons

theorem OnlyOn.tail {a : BoardData} (h : OnlyOn k b (a :: boards)) : OnlyOn k b boards :=
  fun p hp => h p (by rw [placed_cons]; exact List.mem_append_right _ hp)

theorem OnlyOn.head_eq_self {a : BoardData} (h : OnlyOn k fromBoardList (a :: boards))
    (hne : a.boardList ≠ fromBoardList) :
    (a.cards.map fun c => (a.boardList, c)).filter (fun p => p.2.ticketId ≠ k) =
      a.cards.map fun c => (a.boardList, c) := by
  rw [List.filter_eq_self]
  intro p hp
  refine decide_eq_true fun hk => hne ?_
  obtain ⟨c, -, rfl⟩ := List.mem_map.1 hp
  exact h _ (by rw [placed_cons]; exact List.mem_append_left _ hp) hk

/-- What a board other than the new one becomes. -/
theorem map_moved_head {a : BoardData} (h : OnlyOn k fromBoardList (a :: boards))
    (hto : a.boardList ≠ b) :
    placed (moveCard k fromBoardList b card [a]) =
      (a.cards.map fun c => (a.boardList, c)).filter fun p => p.2.ticketId ≠ k := by
  by_cases hfrom : a.boardList = fromBoardList
  · simp only [moveCard, List.map_cons, List.map_nil, if_pos hfrom, placed, List.flatMap_cons,
      List.flatMap_nil, List.append_nil, List.filter_map]
    rfl
  · rw [h.head_eq_self hfrom]
    simp [moveCard, placed, hfrom, hto]

theorem moveCard_cons (a : BoardData) : placed (moveCard k fromBoardList b card (a :: boards)) =
    placed (moveCard k fromBoardList b card [a]) ++ placed (moveCard k fromBoardList b card boards) := by
  simp [moveCard, placed]

theorem placed_moveCard_of_notMem (h : OnlyOn k fromBoardList boards)
    (hto : b ∉ boards.map BoardData.boardList) :
    placed (moveCard k fromBoardList b card boards) =
      (placed boards).filter fun p => p.2.ticketId ≠ k := by
  induction boards with
  | nil => rfl
  | cons a boards ih =>
    obtain ⟨hne, hto⟩ := not_or.1 (mt List.mem_cons.2 hto)
    rw [moveCard_cons, map_moved_head h (Ne.symm hne), ih h.tail hto, placed_cons,
      List.filter_append]

/-- The card is on its new board, and the cards of all other tickets are where they were. -/
theorem placed_moveCard (card : ModeratorActivity) (h : OnlyOn k fromBoardList boards)
    (hne : fromBoardList ≠ b) (hnodup : (boards.map BoardData.boardList).Nodup)
    (hto : b ∈ boards.map BoardData.boardList) :
    (placed (moveCard k fromBoardList b card boards)).Perm
      ((b, card) :: (placed boards).filter fun p => p.2.ticketId ≠ k) := by
  induction boards with
  | nil => simp at hto
  | cons a boards ih =>
    rw [List.map_cons, List.nodup_cons] at hnodup
    rw [moveCard_cons, placed_cons, List.filter_append]
    by_cases hb : a.boardList = b
    · have hnot : b ∉ boards.map BoardData.boardList := hb ▸ hnodup.1
      have hfrom : a.boardList ≠ fromBoardList := fun h => hne (h.symm.trans hb)
      rw [placed_moveCard_of_notMem h.tail hnot, h.head_eq_self hfrom]
      have hhead : placed (moveCard k fromBoardList b card [a]) =
          a.cards.map (fun c => (a.boardList, c)) ++ [(b, card)] := by
        simp [moveCard, placed, hne.symm, hb]
      rw [hhead, List.append_assoc]
      exact List.perm_middle
    · have hmem : b ∈ boards.map BoardData.boardList :=
        (List.mem_cons.1 hto).resolve_left (Ne.symm hb)
      rw [map_moved_head h hb]
      exact ((ih h.tail hnodup.2 hmem).append_left _).trans List.perm_middle

/-! ## The fetched boards -/

theorem exists_mapM_eq_some {α β : Type} {f : α → Option β} {xs : List α}
    (h : ∀ x ∈ xs, ∃ y, f x = some y) : ∃ ys, xs.mapM f = some ys ∧ ys.map some = xs.map f := by
  induction xs with
  | nil => exact ⟨[], rfl, rfl⟩
  | cons x xs ih =>
    obtain ⟨⟨y, hy⟩, hxs⟩ := List.forall_mem_cons.1 h
    obtain ⟨ys, hys, hmap⟩ := ih hxs
    refine ⟨y :: ys, ?_, ?_⟩
    · rw [List.mapM_cons, hy, hys]
      rfl
    · rw [List.map_cons, List.map_cons, hy, hmap]

/-- No field of a card that a board shows is missing. -/
theorem exists_ofCard (hL : db.Linked) {card : ModeratorCard} (h : card ∈ db.cardsOn b) :
    ∃ c, ModeratorActivity.ofCard card = some c ∧ card.ticketId = some c.ticketId ∧
      card.boardList = c.boardList ∧ card.moderatorId = c.moderatorId := by
  rcases List.mem_append.1 h with h | h
  · obtain ⟨row, hrow, rfl⟩ := List.mem_map.1 h
    obtain ⟨d, -, t, -, -, hq, -⟩ := exists_ticket_of_proposed hL (List.mem_filter.1 hrow).1
    obtain ⟨⟨q, dts⟩, u⟩ := row
    obtain rfl : q = (d, some t) := hq
    exact ⟨_, rfl, rfl, rfl, rfl⟩
  · obtain ⟨row, -, rfl⟩ := List.mem_map.1 h
    exact ⟨_, rfl, rfl, rfl, rfl⟩

/-- The boards are the four lists, with the cards that the server has for them. -/
structure Fetched (db : Database) (boards : List BoardData) : Prop where
  nodup : (boards.map BoardData.boardList).Nodup
  complete : ∀ b, b ∈ boards.map BoardData.boardList
  cards : ∀ board ∈ boards,
    board.cards.map some = (db.cardsOn board.boardList).map ModeratorActivity.ofCard

theorem exists_fetched (hL : db.Linked) (hP : db.PositiveIds) :
    ∃ boards, fetchActivity db = some boards ∧ Fetched db boards := by
  have hone : ∀ b : BoardList, ∃ board : BoardData,
      BoardData.ofResponse ⟨b, db.cardsOn b⟩ = some board ∧ board.boardList = b ∧
        board.cards.map some = (db.cardsOn b).map ModeratorActivity.ofCard := by
    intro b
    obtain ⟨cards, hcards, hmap⟩ := exists_mapM_eq_some fun card (hcard : card ∈ db.cardsOn b) =>
      (exists_ofCard hL hcard).imp fun _ h => h.1
    exact ⟨⟨b, cards⟩, by simp [BoardData.ofResponse, hcards], rfl, hmap⟩
  choose board hresponse hlist hcards using hone
  have hdata : ((db.cardStream.map ModeratorCard.boardList).eraseDups.map fun b =>
      (⟨b, db.cardsOn b⟩ : BoardCards)).mapM BoardData.ofResponse =
        some ((db.cardStream.map ModeratorCard.boardList).eraseDups.map board) := by
    generalize (db.cardStream.map ModeratorCard.boardList).eraseDups = bs
    induction bs with
    | nil => rfl
    | cons b bs ih =>
      rw [List.map_cons, List.mapM_cons, hresponse, ih]
      rfl
  have hperm : (getActivityDTO
      ((db.cardStream.map ModeratorCard.boardList).eraseDups.map board)).Perm
      ((db.cardStream.map ModeratorCard.boardList).eraseDups.map board) :=
    List.perm_insertionSort _ _
  have hlists := hperm.map BoardData.boardList
  have hid : BoardData.boardList ∘ board = id := funext hlist
  rw [List.map_map, hid, List.map_id] at hlists
  refine ⟨_, ?_, hlists.nodup_iff.2 (nodup_eraseDups _),
    fun b => hlists.mem_iff.2 (List.mem_eraseDups.2 (mem_boardLists b)), fun page hpage => ?_⟩
  · rw [fetchActivity, getActivity_eq hL hP, groupCards_cardStream hL]
    simp only [hdata, Option.map_some]
  · obtain ⟨b, -, rfl⟩ := List.mem_map.1 (hperm.mem_iff.1 hpage)
    rw [hlist b]
    exact hcards b

namespace Fetched

theorem exists_card (h : Fetched db boards) (hc : (b, c) ∈ placed boards) :
    ∃ card ∈ db.cardsOn b, ModeratorActivity.ofCard card = some c := by
  obtain ⟨board, hboard, rfl, hcards⟩ := mem_placed.1 hc
  have hmem : some c ∈ board.cards.map some := List.mem_map.2 ⟨c, hcards, rfl⟩
  rw [h.cards board hboard] at hmem
  exact List.mem_map.1 hmem

/-- Every card is from a submission, and shows its ticket as it is. -/
theorem source (h : Fetched db boards) (hL : db.Linked) (hc : (b, c) ∈ placed boards) :
    ∃ s ∈ db.submissions, ∃ t ∈ db.tickets.rows, db.ShownWith t s ∧ t.id = c.ticketId ∧
      t.boardList = some b ∧ t.assignedTo = c.moderatorId ∧ c.boardList = b := by
  obtain ⟨card, hcard, hof⟩ := h.exists_card hc
  obtain ⟨c', hof', hticket, hboard, hmoderator⟩ := exists_ofCard hL hcard
  obtain rfl : c = c' := Option.some.inj (hof.symm.trans hof')
  obtain ⟨s, hs, t, ht, -, hshown, hb, hid, hlist, hassigned⟩ := sound_cardsOn hL hcard
  exact ⟨s, hs, t, ht, hshown, Option.some.inj (hid.symm.trans hticket), hb,
    hassigned.symm.trans hmoderator, hboard.symm.trans hlist⟩

theorem shown (h : Fetched db boards) (hL : db.Linked) (hc : (b, c) ∈ placed boards) :
    db.Shown c.ticketId := by
  obtain ⟨s, hs, t, ht, hshown, hid, -⟩ := h.source hL hc
  exact ⟨t, ht, hid, s, hs, hshown⟩

theorem ticketAt (h : Fetched db boards) (hL : db.Linked) (hc : (b, c) ∈ placed boards) :
    db.TicketAt c.ticketId b c.moderatorId := by
  obtain ⟨-, -, t, ht, -, hid, hb, hm, -⟩ := h.source hL hc
  exact ⟨t, ht, hid, hb, hm⟩

theorem mem_of_shown (h : Fetched db boards) (hL : db.Linked) (hS : db.Stored)
    (hk : db.Shown k) : k ∈ (placed boards).map fun p => p.2.ticketId := by
  obtain ⟨t, ht, rfl, s, hs, hshown⟩ := hk
  obtain ⟨b, hb⟩ := Option.ne_none_iff_exists'.1 (hS.ticket_board t ht)
  obtain ⟨card, hcard, hkey⟩ := List.mem_map.1 (complete_cardsOn hS hs ht hshown hb)
  obtain ⟨board, hboard, rfl⟩ := List.mem_map.1 (h.complete b)
  obtain ⟨c, hof, hticket, -⟩ := exists_ofCard hL hcard
  obtain ⟨s', hs', t', -, hkey', hshown', -, hid, -⟩ := sound_cardsOn hL hcard
  -- the card is from `s`, which has one ticket
  obtain rfl : s' = s :=
    Database.submission_eq_of_key hs' hs (Option.some.inj (hkey'.symm.trans hkey))
  have hsame : t'.id = t.id := Option.some.inj (hshown'.1.symm.trans hshown.1)
  have hmem : c ∈ board.cards := by
    have hmap : some c ∈ (db.cardsOn board.boardList).map ModeratorActivity.ofCard :=
      List.mem_map.2 ⟨card, hcard, hof⟩
    rw [← h.cards board hboard] at hmap
    simpa using hmap
  refine List.mem_map.2 ⟨(board.boardList, c), mem_placed.2 ⟨board, hboard, rfl, hmem⟩, ?_⟩
  exact (Option.some.inj (hid.symm.trans hticket)).symm.trans hsame

end Fetched

/-- The cards of one list have different tickets. -/
theorem nodup_ticketId_cardsOn (hL : db.Linked) (b : BoardList) :
    ((db.cardsOn b).map ModeratorCard.ticketId).Nodup := by
  have hkeys := nodup_cardsOn db b
  refine hkeys.of_map.map_on fun card hcard card' hcard' heq => ?_
  obtain ⟨s, hs, t, -, hkey, hshown, -, hid, -⟩ := sound_cardsOn hL hcard
  obtain ⟨s', hs', t', -, hkey', hshown', -, hid', -⟩ := sound_cardsOn hL hcard'
  have hsame : t.id = t'.id := Option.some.inj (hid.symm.trans (heq.trans hid'))
  obtain rfl := hL.unique s hs s' hs' t.id hshown.1 (hsame ▸ hshown'.1)
  exact List.inj_on_of_nodup_map hkeys hcard hcard' (hkey.trans hkey'.symm)

theorem Fetched.nodup_ticketId (h : Fetched db boards) (hL : db.Linked) :
    ((placed boards).map fun p => p.2.ticketId).Nodup := by
  have hmap : (placed boards).map (fun p => p.2.ticketId) =
      boards.flatMap fun board => board.cards.map ModeratorActivity.ticketId := by
    rw [placed, List.map_flatMap]
    refine List.flatMap_congr fun board _ => ?_
    rw [List.map_map]
    rfl
  rw [hmap, List.nodup_flatMap]
  constructor
  · intro board hboard
    refine List.Nodup.of_map some ?_
    have hcards : (board.cards.map ModeratorActivity.ticketId).map some =
        (db.cardsOn board.boardList).map ModeratorCard.ticketId := by
      have hids := congrArg (List.map (Option.map ModeratorActivity.ticketId))
        (h.cards board hboard)
      rw [List.map_map, List.map_map] at hids
      rw [List.map_map]
      refine hids.trans (List.map_congr_left fun card hcard => ?_)
      obtain ⟨c, hof, hticket, -⟩ := exists_ofCard hL hcard
      rw [Function.comp_apply, hof, hticket, Option.map_some]
    rw [hcards]
    exact nodup_ticketId_cardsOn hL _
  · -- a ticket is on one list
    refine (List.pairwise_map.1 h.nodup).imp_of_mem ?_
    intro board board' hboard hboard' hne k hk hk'
    obtain ⟨c, hc, rfl⟩ := List.mem_map.1 hk
    obtain ⟨c', hc', hsame⟩ := List.mem_map.1 hk'
    obtain ⟨-, -, t, ht, -, hid, hb, -⟩ := h.source hL (mem_placed.2 ⟨board, hboard, rfl, hc⟩)
    obtain ⟨-, -, t', ht', -, hid', hb', -⟩ :=
      h.source hL (mem_placed.2 ⟨board', hboard', rfl, hc'⟩)
    obtain rfl := SerialTable.eq_of_rowId_eq ht ht' (hid.trans (hsame.symm.trans hid'.symm))
    exact hne (Option.some.inj (hb.symm.trans hb'))

/-! ## Moving a card -/

/-- The tickets of the page, each on one board, as the cards say it themselves. -/
structure Layout (ids : List Int) (boards : List BoardData) : Prop where
  nodup : (boards.map BoardData.boardList).Nodup
  complete : ∀ b, b ∈ boards.map BoardData.boardList
  perm : ((placed boards).map fun p => p.2.ticketId).Perm ids
  distinct : ids.Nodup
  boardList : ∀ p ∈ placed boards, p.2.boardList = p.1
  assigned : ∀ p ∈ placed boards, p.2.moderatorId = none → p.1 = .pending

variable {ids : List Int}

namespace Layout

theorem eq_of_ticketId (h : Layout ids boards) {p q : BoardList × ModeratorActivity}
    (hp : p ∈ placed boards) (hq : q ∈ placed boards) (heq : p.2.ticketId = q.2.ticketId) :
    p = q :=
  List.inj_on_of_nodup_map (h.perm.nodup_iff.2 h.distinct) hp hq heq

theorem mem_tickets (h : Layout ids boards) {p : BoardList × ModeratorActivity}
    (hp : p ∈ placed boards) : p.2.ticketId ∈ ids :=
  h.perm.mem_iff.1 (List.mem_map.2 ⟨p, hp, rfl⟩)

/-- The boards after a card of ticket `c.ticketId` has been put on `b` as `card`. -/
theorem perm_moveCard (h : Layout ids boards) (hc : (fromBoardList, c) ∈ placed boards)
    (hid : card.ticketId = c.ticketId) (hne : fromBoardList ≠ b) :
    (placed (moveCard c.ticketId fromBoardList b card (setBoardList card b boards))).Perm
      ((b, card) :: (placed boards).filter fun p => p.2.ticketId ≠ c.ticketId) := by
  have honly : OnlyOn c.ticketId fromBoardList boards := fun p hp hk =>
    congrArg Prod.fst (h.eq_of_ticketId hp hc hk)
  have hperm := placed_moveCard card (honly.setBoardList card b) hne (by simpa using h.nodup)
    (by simpa using h.complete b)
  rw [← hid] at hperm ⊢
  rwa [filter_placed_setBoardList] at hperm

theorem mem_moveCard (h : Layout ids boards) (hc : (fromBoardList, c) ∈ placed boards)
    (hid : card.ticketId = c.ticketId) (hne : fromBoardList ≠ b)
    {p : BoardList × ModeratorActivity} :
    p ∈ placed (moveCard c.ticketId fromBoardList b card (setBoardList card b boards)) ↔
      p = (b, card) ∨ p ∈ placed boards ∧ p.2.ticketId ≠ c.ticketId := by
  rw [(h.perm_moveCard hc hid hne).mem_iff, List.mem_cons, List.mem_filter, decide_eq_true_iff]

theorem moveCard (h : Layout ids boards) (hc : (fromBoardList, c) ∈ placed boards)
    (hid : card.ticketId = c.ticketId) (hne : fromBoardList ≠ b) (hlist : card.boardList = b)
    (hassigned : card.moderatorId = none → b = .pending) :
    Layout ids (moveCard c.ticketId fromBoardList b card (setBoardList card b boards)) where
  nodup := by simpa using h.nodup
  complete := fun b' => by simpa using h.complete b'
  perm := by
    refine ((h.perm_moveCard hc hid hne).map _).trans ?_
    have hnodup := h.perm.nodup_iff.2 h.distinct
    have hmem : c.ticketId ∈ (placed boards).map fun p => p.2.ticketId :=
      List.mem_map.2 ⟨_, hc, rfl⟩
    have herase : ((placed boards).filter fun p => p.2.ticketId ≠ c.ticketId).map
        (fun p => p.2.ticketId) = ((placed boards).map fun p => p.2.ticketId).erase c.ticketId := by
      rw [hnodup.erase_eq_filter, List.filter_map]
      refine congrArg _ (List.filter_congr fun p _ => ?_)
      rw [Bool.eq_iff_iff]
      simp
    rw [List.map_cons, herase, hid]
    exact (List.perm_cons_erase hmem).symm.trans h.perm
  distinct := h.distinct
  boardList := fun p hp => by
    rcases (h.mem_moveCard hc hid hne).1 hp with rfl | ⟨hp, -⟩
    · exact hlist
    · exact h.boardList p hp
  assigned := fun p hp hnone => by
    rcases (h.mem_moveCard hc hid hne).1 hp with rfl | ⟨hp, -⟩
    · exact hassigned hnone
    · exact h.assigned p hp hnone

end Layout

/-! ## The page against the server -/

/-- What the server does with a request of the page. -/
def serveSent (me : UserCookieData) (db : Database) (m : Sent) : Database :=
  (m.request.handle me db).db

/-- The tables once everything that has been sent is handled. -/
def State.expected (me : UserCookieData) (s : State) : Database :=
  run (serveSent me) s.db s.sent

/-- **The invariant.** Pending approvals will succeed, and their cards are where they were when they
    were approved; the other cards are where the server will have their tickets. -/
structure Mirror (me : UserCookieData) (ids : List Int) (s : State) : Prop where
  layout : Layout ids s.activityBoards
  approvals : ∀ a ∈ s.approvals, (a.updatedBoardList, a.card) ∈ placed s.activityBoards ∧
    a.updatedBoardList = .inReview ∧ a.card.moderatorId = some me.id
  once : (s.approvals.map fun a => a.card.ticketId).Nodup
  waiting : ∀ a ∈ s.approvals,
    (s.expected me).TicketAt a.card.ticketId .accepted (some me.id)
  settled : ∀ p ∈ placed s.activityBoards, ¬ s.ApprovalPending p.2.ticketId →
    (s.expected me).TicketAt p.2.ticketId p.1 p.2.moderatorId
  fulfilled : ∀ q ∈ steps (serveSent me) s.db s.sent, q.2.approval ≠ none →
    (q.2.request.handle me q.1).result.isOk = true

variable {s : State} {toBoardList : BoardList}

theorem droppedCard_ticketId (copy : Nat) :
    (droppedCard me card fromBoardList toBoardList copy).ticketId = card.ticketId := by
  unfold droppedCard
  split_ifs <;> rfl

theorem droppedCard_boardList (copy : Nat) :
    (droppedCard me card fromBoardList toBoardList copy).boardList = toBoardList := by
  unfold droppedCard
  split_ifs <;> rfl

/-- The page assigns the ticket as the CASE of the server does. -/
theorem droppedCard_moderatorId (hne : fromBoardList ≠ toBoardList) (copy : Nat) :
    (droppedCard me card fromBoardList toBoardList copy).moderatorId =
      if fromBoardList = .pending then some me.id
      else if toBoardList = .pending then none
      else card.moderatorId := by
  unfold droppedCard
  by_cases hfrom : fromBoardList = .pending
  · have hto : toBoardList ≠ .pending := fun h => hne (hfrom.trans h.symm)
    simp [hfrom, hto]
  · by_cases hto : toBoardList = .pending
    · simp [hfrom, hto]
    · simp [hfrom, hto]

@[simp] theorem run_serveSent_append (db : Database) (sent : List Sent) (m : Sent) :
    run (serveSent me) db (sent ++ [m]) =
      (m.request.handle me (run (serveSent me) db sent)).db := by
  rw [run_append, run_cons, run_nil, serveSent]

/-- A request with a callback must succeed when the server gets to it. -/
theorem Mirror.fulfilled_append (h : Mirror me ids s) {m : Sent}
    (hm : m.approval ≠ none → (m.request.handle me (s.expected me)).result.isOk = true) :
    ∀ q ∈ steps (serveSent me) s.db (s.sent ++ [m]), q.2.approval ≠ none →
      (q.2.request.handle me q.1).result.isOk = true := by
  intro q hq
  rw [steps_append, List.mem_append] at hq
  rcases hq with hq | hq
  · exact h.fulfilled q hq
  · obtain rfl := List.mem_singleton.1 hq
    exact hm

theorem approvalPending_iff {s s' : State} (h : s'.approvals.Perm s.approvals) {k : Int} :
    s'.ApprovalPending k ↔ s.ApprovalPending k := by
  unfold State.ApprovalPending
  simp only [h.mem_iff]

/-- A card is moved to where the request that is sent with the move will put its ticket. -/
theorem Mirror.move (h : Mirror me ids s) (hI : ∀ k ∈ ids, IsInt4 k)
    (hcard : (fromBoardList, card) ∈ placed s.activityBoards) (hrights : hasRightsOnTicket me card)
    (hne : fromBoardList ≠ toBoardList) (hpending : ¬ s.ApprovalPending card.ticketId)
    (hid : c.ticketId = card.ticketId) (hlist : c.boardList = toBoardList)
    (hmoderator : c.moderatorId = if fromBoardList = .pending then some me.id
      else if toBoardList = .pending then none else card.moderatorId)
    {s' : State} (hboards : s'.activityBoards = moveCard card.ticketId fromBoardList toBoardList c
      (setBoardList c toBoardList s.activityBoards))
    (hsent : s'.sent = s.sent ++ [⟨.updateTicket card.ticketId toBoardList, none⟩])
    (hanswered : s'.answered = s.answered) (hdb : s'.db = s.db) : Mirror me ids s' := by
  have hint : IsInt4 card.ticketId := hI _ (h.layout.mem_tickets hcard)
  have hrights' : card.moderatorId = some me.id ∨ fromBoardList = .pending :=
    hrights.imp_right (h.layout.assigned _ hcard)
  have hassigned : c.moderatorId = none → toBoardList = .pending := by
    intro hnone
    by_contra hto
    rw [hmoderator, if_neg hto] at hnone
    split_ifs at hnone with hfrom
    exact hfrom (h.layout.assigned _ hcard hnone)
  have hmem := fun p => h.layout.mem_moveCard (p := p) hcard hid hne
  have happrovals : s'.approvals = s.approvals := by
    rw [State.approvals, hsent, hanswered, List.filterMap_append]
    simp [State.approvals]
  have hexpected : s'.expected me =
      ((PageRequest.updateTicket card.ticketId toBoardList).handle me (s.expected me)).db := by
    rw [State.expected, hsent, hdb, run_serveSent_append]
    rfl
  have hother : ∀ a ∈ s.approvals, a.card.ticketId ≠ card.ticketId :=
    fun a ha heq => hpending ⟨a, ha, heq⟩
  refine ⟨?_, ?_, ?_, ?_, ?_, ?_⟩
  · rw [hboards]
    exact h.layout.moveCard hcard hid hne hlist hassigned
  · intro a ha
    rw [happrovals] at ha
    obtain ⟨hplaced, hreview, hmine⟩ := h.approvals a ha
    rw [hboards]
    exact ⟨(hmem _).2 (Or.inr ⟨hplaced, hother a ha⟩), hreview, hmine⟩
  · rw [happrovals]
    exact h.once
  · intro a ha
    rw [happrovals] at ha
    rw [hexpected]
    exact ticketAt_updateTicket_of_ne (h.waiting a ha) hint (hother a ha)
  · intro p hp hp'
    rw [hboards] at hp
    rw [approvalPending_iff (.of_eq happrovals)] at hp'
    rw [hexpected]
    rcases (hmem p).1 hp with rfl | ⟨hp, hne⟩
    · rw [hid, hmoderator]
      exact ticketAt_updateTicket (h.settled _ hcard hpending) hint hrights'
    · exact ticketAt_updateTicket_of_ne (h.settled p hp hp') hint hne
  · rw [hsent, hdb]
    exact h.fulfilled_append fun hnone => absurd rfl hnone

theorem mirror_onItemDropped (hI : ∀ k ∈ ids, IsInt4 k) (h : Mirror me ids s)
    (hcard : (fromBoardList, card) ∈ placed s.activityBoards) (hrights : hasRightsOnTicket me card)
    (hcareful : Careful s (.drop card fromBoardList toBoardList)) :
    Mirror me ids (onItemDropped me card fromBoardList toBoardList s) := by
  unfold onItemDropped
  split_ifs with hsame hguard
  · exact h
  · exact h
  · obtain ⟨haccepted, hne⟩ := not_or.1 hsame
    exact h.move hI hcard hrights hne (hcareful haccepted hne) (droppedCard_ticketId _)
      (droppedCard_boardList _) (droppedCard_moderatorId hne _) rfl rfl rfl rfl

theorem mirror_onApproveTicket (hI : ∀ k ∈ ids, IsInt4 k) (h : Mirror me ids s)
    (hcard : (b, card) ∈ placed s.activityBoards) (hreview : card.boardList = .inReview)
    (hrights : hasRightsOnTicket me card) (hpending : ¬ s.ApprovalPending card.ticketId) :
    Mirror me ids (onApproveTicket b card s) := by
  have hint : IsInt4 card.ticketId := hI _ (h.layout.mem_tickets hcard)
  have hb : b = .inReview := (h.layout.boardList _ hcard).symm.trans hreview
  have hmine : card.moderatorId = some me.id := hrights.resolve_right fun hnone =>
    nomatch hb.symm.trans (h.layout.assigned _ hcard hnone)
  have hat : (s.expected me).TicketAt card.ticketId b (some me.id) :=
    hmine ▸ h.settled _ hcard hpending
  have happrovals : (onApproveTicket b card s).approvals.Perm (⟨b, card⟩ :: s.approvals) := by
    rw [State.approvals, onApproveTicket, List.filterMap_append, List.append_assoc]
    exact List.perm_middle
  have hexpected : (onApproveTicket b card s).expected me =
      ((approvalRequest card).handle me (s.expected me)).db :=
    run_serveSent_append ..
  have hother : ∀ a ∈ s.approvals, a.card.ticketId ≠ card.ticketId :=
    fun a ha heq => hpending ⟨a, ha, heq⟩
  refine ⟨h.layout, ?_, ?_, ?_, ?_, ?_⟩
  · intro a ha
    rcases List.mem_cons.1 (happrovals.mem_iff.1 ha) with rfl | ha
    · exact ⟨hcard, hb, hmine⟩
    · exact h.approvals a ha
  · rw [(happrovals.map _).nodup_iff, List.map_cons, List.nodup_cons]
    refine ⟨fun hmem => ?_, h.once⟩
    obtain ⟨a, ha, heq⟩ := List.mem_map.1 hmem
    exact hother a ha heq
  · intro a ha
    rw [hexpected]
    rcases List.mem_cons.1 (happrovals.mem_iff.1 ha) with rfl | ha
    · exact ticketAt_approve hat hint
    · exact ticketAt_approve_of_ne (h.waiting a ha) hint (hother a ha)
  · intro p hp hp'
    have hp₁ : p.2.ticketId ≠ card.ticketId := fun heq =>
      hp' ⟨_, happrovals.mem_iff.2 (List.mem_cons_self ..), heq.symm⟩
    have hp₂ : ¬ s.ApprovalPending p.2.ticketId := fun ⟨a, ha, heq⟩ =>
      hp' ⟨a, happrovals.mem_iff.2 (List.mem_cons_of_mem _ ha), heq⟩
    rw [hexpected]
    exact ticketAt_approve_of_ne (h.settled p hp hp₂) hint hp₁
  · exact h.fulfilled_append fun _ => approve_isOk hat hint

/-- Nothing but the place of the approvals between the server and the page has changed. -/
theorem Mirror.of_perm (h : Mirror me ids s) {s' : State}
    (hboards : s'.activityBoards = s.activityBoards) (hperm : s'.approvals.Perm s.approvals)
    (hexpected : s'.expected me = s.expected me)
    (hfulfilled : ∀ q ∈ steps (serveSent me) s'.db s'.sent, q.2.approval ≠ none →
      (q.2.request.handle me q.1).result.isOk = true) : Mirror me ids s' := by
  refine ⟨hboards ▸ h.layout, ?_, ?_, ?_, ?_, hfulfilled⟩
  · intro a ha
    rw [hboards]
    exact h.approvals a (hperm.mem_iff.1 ha)
  · exact (hperm.map _).nodup_iff.2 h.once
  · intro a ha
    rw [hexpected]
    exact h.waiting a (hperm.mem_iff.1 ha)
  · intro p hp hp'
    rw [hboards] at hp
    rw [hexpected]
    exact h.settled p hp (mt (approvalPending_iff hperm).2 hp')

theorem mirror_serve (h : Mirror me ids s) : Mirror me ids (step me s .serve) := by
  rw [step]
  split
  · exact h
  · next m sent hsent =>
    have hsteps : steps (serveSent me) s.db s.sent =
        (s.db, m) :: steps (serveSent me) (serveSent me s.db m) sent := by
      rw [hsent]
      rfl
    have hok := h.fulfilled (s.db, m) (hsteps ▸ List.mem_cons_self ..)
    have hcallback : (if (m.request.handle me s.db).result.isOk then m.approval else none) =
        m.approval := by
      split_ifs with hres
      · rfl
      · exact (not_not.1 (mt hok hres)).symm
    refine h.of_perm rfl ?_ ?_ fun q hq => h.fulfilled q (hsteps ▸ List.mem_cons_of_mem _ hq)
    · simp only [State.approvals, hcallback, hsent]
      cases happroval : m.approval with
      | none => simp [happroval]
      | some a =>
        rw [List.filterMap_append, ← List.append_assoc]
        simpa [happroval] using List.perm_append_singleton a
          (sent.filterMap Sent.approval ++ s.answered.filterMap id)
    · rw [State.expected, State.expected, hsent]
      rfl

/-- The response that arrives is one of those on their way. -/
theorem perm_respond {i : Nat} {response : Option Approval} (hi : s.answered[i]? = some response) :
    s.approvals.Perm (response.toList ++
      (s.sent.filterMap Sent.approval ++ (s.answered.eraseIdx i).filterMap id)) := by
  obtain ⟨hlt, hget⟩ := List.getElem?_eq_some_iff.1 hi
  have hperm := ((List.getElem_cons_eraseIdx_perm hlt).filterMap id).symm
  rw [hget] at hperm
  have hcons : (response :: s.answered.eraseIdx i).filterMap id =
      response.toList ++ (s.answered.eraseIdx i).filterMap id := by
    cases response <;> rfl
  rw [hcons] at hperm
  refine (hperm.append_left _).trans ?_
  rw [← List.append_assoc, ← List.append_assoc]
  exact List.perm_append_comm.append_right _

theorem onApproved_eq {a : Approval} (hne : a.updatedBoardList ≠ .accepted) :
    onApproved a boards = moveCard a.card.ticketId a.updatedBoardList .accepted
      { a.card with boardList := .accepted }
      (setBoardList { a.card with boardList := .accepted } .accepted boards) := by
  refine List.map_congr_left fun board _ => ?_
  by_cases hfrom : board.boardList = a.updatedBoardList
  · simp [hfrom, hne]
  · by_cases hto : board.boardList = .accepted
    · simp [hto, hne.symm]
    · simp [hfrom, hto]

/-- The card of an approved ticket goes to ACCEPTED, where the server has put the ticket. -/
theorem Mirror.approved (h : Mirror me ids s) {a : Approval} {s' : State}
    (hperm : s.approvals.Perm (a :: s'.approvals))
    (hboards : s'.activityBoards = onApproved a s.activityBoards)
    (hsent : s'.sent = s.sent) (hdb : s'.db = s.db) : Mirror me ids s' := by
  have ha : a ∈ s.approvals := hperm.mem_iff.2 (List.mem_cons_self ..)
  obtain ⟨hplaced, hreview, hmine⟩ := h.approvals a ha
  have hne : a.updatedBoardList ≠ .accepted := by
    rw [hreview]
    exact nofun
  rw [onApproved_eq hne] at hboards
  have hid : { a.card with boardList := .accepted }.ticketId = a.card.ticketId := rfl
  have hmem := fun p => h.layout.mem_moveCard (p := p) hplaced hid hne
  have hexpected : s'.expected me = s.expected me := by
    rw [State.expected, State.expected, hsent, hdb]
  have honce := (hperm.map fun a => a.card.ticketId).nodup_iff.1 h.once
  rw [List.map_cons, List.nodup_cons] at honce
  have hold : ∀ a' ∈ s'.approvals, a' ∈ s.approvals := fun a' ha' =>
    hperm.mem_iff.2 (List.mem_cons_of_mem _ ha')
  refine ⟨?_, ?_, honce.2, ?_, ?_, ?_⟩
  · rw [hboards]
    exact h.layout.moveCard hplaced rfl hne rfl fun hnone => nomatch hmine.symm.trans hnone
  · intro a' ha'
    obtain ⟨hplaced', hreview', hmine'⟩ := h.approvals a' (hold a' ha')
    rw [hboards]
    refine ⟨(hmem _).2 (Or.inr ⟨hplaced', fun heq => honce.1 ?_⟩), hreview', hmine'⟩
    exact List.mem_map.2 ⟨a', ha', heq⟩
  · intro a' ha'
    rw [hexpected]
    exact h.waiting a' (hold a' ha')
  · intro p hp hp'
    rw [hboards] at hp
    rw [hexpected]
    rcases (hmem p).1 hp with rfl | ⟨hp, hne⟩
    · exact hmine ▸ h.waiting a ha
    · refine h.settled p hp fun ⟨a', ha', heq⟩ => ?_
      rcases List.mem_cons.1 (hperm.mem_iff.1 ha') with rfl | ha'
      · exact hne heq.symm
      · exact hp' ⟨a', ha', heq⟩
  · rw [hsent, hdb]
    exact h.fulfilled

theorem mirror_respond (h : Mirror me ids s) (i : Nat) : Mirror me ids (step me s (.respond i)) := by
  rw [step]
  split
  · exact h
  · next hi => exact h.of_perm rfl (perm_respond hi).symm rfl h.fulfilled
  · next a hi => exact h.approved (perm_respond hi) rfl rfl rfl

theorem mirror_step (hI : ∀ k ∈ ids, IsInt4 k) (s : State) (e : Step) (h : Mirror me ids s)
    (hcareful : Careful s e) : Mirror me ids (step me s e) := by
  cases e with
  | drop card fromBoardList toBoardList =>
    rw [step]
    split_ifs with hdrag
    · exact mirror_onItemDropped hI h hdrag.1 hdrag.2.1 hcareful
    · exact h
  | approve boardList card =>
    rw [step]
    split_ifs with hmenu
    · exact mirror_onApproveTicket hI h hmenu.1 hmenu.2.1 hmenu.2.2 hcareful
    · exact h
  | serve => exact mirror_serve h
  | respond i => exact mirror_respond h i

/-! ## Runs -/

theorem mirror_mount (hreach : db.Reachable) (h : Fetched db boards) :
    Mirror me ((placed boards).map fun p => p.2.ticketId) (State.mount boards db) where
  layout :=
    { nodup := h.nodup
      complete := h.complete
      perm := .refl _
      distinct := h.nodup_ticketId hreach.linked
      boardList := fun p hp => by
        obtain ⟨-, -, t, -, -, -, -, -, hlist⟩ := h.source hreach.linked (b := p.1) (c := p.2) hp
        exact hlist
      assigned := fun p hp hnone => by
        obtain ⟨-, -, t, ht, -, -, hb, hm, -⟩ := h.source hreach.linked (b := p.1) (c := p.2) hp
        exact Option.some.inj (hb.symm.trans (hreach.unassignedPending t ht (hm.trans hnone))) }
  approvals := fun a ha => absurd ha List.not_mem_nil
  once := List.nodup_nil
  waiting := fun a ha => absurd ha List.not_mem_nil
  settled := fun p hp _ => h.ticketAt hreach.linked (b := p.1) (c := p.2) hp
  fulfilled := fun q hq => absurd hq List.not_mem_nil

theorem Mirror.showsOnce (h : Mirror me ids s) {shown : Int → Prop}
    (hids : ∀ k, shown k ↔ k ∈ ids) : s.ShowsOnce shown where
  once := by
    intro k hk
    have hcount : (placed s.activityBoards).countP (fun p => p.2.ticketId = k) =
        ((placed s.activityBoards).map fun p => p.2.ticketId).count k := by
      rw [List.count, List.countP_map]
      refine List.countP_congr fun p _ => ?_
      simp
    rw [hcount, h.layout.perm.count_eq]
    exact List.count_eq_one_of_mem h.layout.distinct ((hids k).1 hk)
  only := fun p hp => (hids _).2 (h.layout.mem_tickets hp)

theorem Mirror.mirrorsAtRest (h : Mirror me ids s) : s.MirrorsAtRest := by
  intro hsent hanswered p hp
  have hnone : ¬ s.ApprovalPending p.2.ticketId := by
    rintro ⟨a, ha, -⟩
    simp [State.approvals, hsent, hanswered] at ha
  have hat := h.settled p hp hnone
  rwa [State.expected, hsent] at hat

/-- **The page mirrors the server** in every state of a run that leaves a card alone while its
    approval is pending: the order of the responses does not matter. -/
theorem mirrors_of_careful (h : db.Reachable) (me : UserCookieData) :
    ∃ boards, fetchActivity db = some boards ∧ ∀ es : List Step,
      (∀ p ∈ steps (step me) (State.mount boards db) es, Careful p.1 p.2) →
        ∀ s ∈ states (step me) (State.mount boards db) es,
          s.ShowsOnce db.Shown ∧ s.MirrorsAtRest := by
  obtain ⟨boards, hfetch, hboards⟩ := exists_fetched h.linked h.positiveIds
  refine ⟨boards, hfetch, fun es hes s hs => ?_⟩
  have hids : ∀ k, db.Shown k ↔ k ∈ (placed boards).map fun p => p.2.ticketId := by
    intro k
    refine ⟨hboards.mem_of_shown h.linked h.stored, fun hk => ?_⟩
    obtain ⟨p, hp, rfl⟩ := List.mem_map.1 hk
    exact hboards.shown h.linked (b := p.1) (c := p.2) hp
  have hI : ∀ k ∈ (placed boards).map fun p => p.2.ticketId, IsInt4 k := by
    intro k hk
    obtain ⟨t, ht, rfl, -⟩ := (hids k).2 hk
    exact h.stored.ticket_id t ht
  have hmirror := states_invariant_of_steps (mirror_step hI) (mirror_mount h hboards) hes s hs
  exact ⟨hmirror.showsOnce hids, hmirror.mirrorsAtRest⟩

def moderatedBoards : List BoardData := (fetchActivity moderatedDatabase).getD []

theorem reachable_moderatedDatabase : moderatedDatabase.Reachable := Database.reachable_run id _

theorem eq_moderatedBoards (h : fetchActivity moderatedDatabase = some boards) :
    boards = moderatedBoards := by
  rw [moderatedBoards, h]
  rfl

/-- The argument in review, as `moderatorOne` has it. -/
def reviewedCard : ModeratorActivity where
  ticketId := 3
  object := 0
  boardList := .inReview
  ticketTitle := "Herd immunity"
  moderatorId := some 2
  moderatorUsername := some "moderator-one"
  details := .argument 1 "Vaccines" 1

/-- The debate takes the place of the argument while the argument is approved; the first response
    to arrive is the second one. -/
theorem mirrors_of_careful_sample :
    fetchActivity moderatedDatabase = some moderatedBoards ∧
      ∀ s ∈ states (step moderatorOne) (State.mount moderatedBoards moderatedDatabase)
          [.approve .inReview reviewedCard,
            .drop ⟨1, 0, .pending, "Vaccines", none, none, .debate 1⟩ .pending .inReview,
            .serve, .serve, .respond 1, .respond 0,
            .drop { reviewedCard with boardList := .accepted } .accepted .canceled, .serve,
            .respond 0],
        s.ShowsOnce moderatedDatabase.Shown ∧ s.MirrorsAtRest := by
  obtain ⟨boards, hfetch, hrun⟩ := mirrors_of_careful reachable_moderatedDatabase moderatorOne
  have hsame := eq_moderatedBoards hfetch
  rw [hsame] at hfetch hrun
  exact ⟨hfetch, hrun _ (by decide +kernel)⟩

/-- A card that is dragged away between the click and the response ends up on two boards. -/
theorem drop_before_response_duplicates :
    moderatedDatabase.Reachable ∧ fetchActivity moderatedDatabase = some moderatedBoards ∧
      ¬ ∀ s ∈ states (step moderatorOne) (State.mount moderatedBoards moderatedDatabase)
          [.approve .inReview reviewedCard, .drop reviewedCard .inReview .canceled, .serve, .serve,
            .respond 0],
        s.ShowsOnce moderatedDatabase.Shown ∧ s.MirrorsAtRest := by
  have hreach := reachable_moderatedDatabase
  obtain ⟨boards, hfetch, hboards⟩ := exists_fetched hreach.linked hreach.positiveIds
  have hsame := eq_moderatedBoards hfetch
  rw [hsame] at hfetch hboards
  refine ⟨hreach, hfetch, fun hall => ?_⟩
  have hmem : (.inReview, reviewedCard) ∈ placed moderatedBoards := by decide +kernel
  have honce := (hall _ (run_mem_states _ _)).1.once 3 (hboards.shown hreach.linked hmem)
  exact absurd honce (by decide +kernel)

end ActivityPage

end DecentDebates

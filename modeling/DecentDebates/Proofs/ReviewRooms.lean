import DecentDebates.ReviewRooms
import DecentDebates.Proofs.TicketWorkflow

set_option autoImplicit false

/-! # Review rooms: proofs

A room stays private as long as nobody joins it who is not connected to its ticket and nobody in it
is disconnected from the ticket. `Participant.step_iff` says which call does the latter and
`SocketChange` lists what a step can do to a socket. -/

namespace DecentDebates

open Relational Transition

variable {db : Database} {s : ReviewState} {l : ReviewStep}

/-! ## Participants -/

theorem participantWhere_holds {ticketId userId : Int} {t : TicketRow} :
    (participantWhere ticketId userId t).holds = true ↔
      t.id = ticketId ∧ (t.createdBy = userId ∨ t.assignedTo = some userId) := by
  simp [participantWhere]

theorem participant_iff {t : TicketRow} (ht : t ∈ db.tickets.rows) (userId : Int) :
    db.Participant t.id userId ↔ t.createdBy = userId ∨ t.assignedTo = some userId := by
  constructor
  · rintro ⟨t', ht', hw⟩
    obtain ⟨hid, hby⟩ := participantWhere_holds.1 hw
    rwa [← SerialTable.eq_of_rowId_eq ht' ht hid]
  · exact fun h => ⟨t, ht, participantWhere_holds.2 ⟨rfl, h⟩⟩

theorem isSome_ofLabel? {label : String} :
    (BoardList.ofLabel? label).isSome = true ↔ ∃ b : BoardList, b.label = label := by
  rw [Option.isSome_iff_exists]
  simp only [ofLabel?_eq_some]

/-- What `updateTicket` writes on a row its guard lets through takes the ticket from its assignee
    exactly when the request unassigns the row. -/
theorem not_participant_moveTo {d : UpdateTicketData} {b : BoardList} {t : TicketRow} {userId : Int}
    (hb : b.label = d.boardList) (hw : (updateTicketWhere d.ticketId d.userId t).holds = true)
    (hbefore : t.createdBy = userId ∨ t.assignedTo = some userId) :
    ¬ (t.createdBy = userId ∨ (t.moveTo b d.boardList d.userId).assignedTo = some userId) ↔
      d.Unassigns t userId := by
  obtain ⟨hid, hguard⟩ := updateTicketWhere_holds.1 hw
  have hlabel := isSome_ofLabel?.2 ⟨b, hb⟩
  constructor
  · intro h
    obtain ⟨hby, hafter⟩ := not_or.1 h
    have hassigned := hbefore.resolve_left hby
    -- a PENDING ticket goes to the caller, any other one is kept or given back
    refine ⟨hid.symm, hassigned, hby, hlabel, ?_⟩
    rcases hguard with hp | ⟨⟨hn, hp⟩, hme⟩
    · rw [moveTo_assignedTo_pending hp] at hafter
      exact Or.inl ⟨hp, fun he => hafter (congrArg some he)⟩
    · rw [moveTo_assignedTo_off_pending hp] at hafter
      refine Or.inr ⟨hn, hp, Option.some.inj (hme.symm.trans hassigned), ?_⟩
      by_contra hrequest
      rw [if_neg hrequest] at hafter
      exact hafter hassigned
  · rintro ⟨-, hassigned, hby, -, ⟨hp, hne⟩ | ⟨-, hp, -, hrequest⟩⟩ (he | he)
    · exact hby he
    · rw [moveTo_assignedTo_pending hp, Option.some.injEq] at he
      exact hne he
    · exact hby he
    · rw [moveTo_assignedTo_off_pending hp, if_pos hrequest] at he
      cases he

/-- A participant stays one in every call but an `updateTicket` that unassigns the ticket. -/
theorem Database.Participant.step_iff (hS : db.Stored) {ticketId userId : Int}
    (h : db.Participant ticketId userId) (c : Call) :
    (step db c).Participant ticketId userId ↔
      ¬ ∃ d, c = .updateTicket d ∧
        ∃ t ∈ db.tickets.rows, t.id = ticketId ∧ d.Unassigns t userId := by
  obtain ⟨t, ht, hw⟩ := h
  obtain ⟨rfl, hbefore⟩ := participantWhere_holds.1 hw
  obtain ⟨t', ht', hchange⟩ := (step_effect db c).ticket_next ht
  rw [← hchange.id, participant_iff ht', hchange.createdBy]
  constructor
  · rintro h ⟨d, rfl, t₀, ht₀, hid, hun⟩
    obtain rfl := SerialTable.eq_of_rowId_eq ht₀ ht (hid.trans hchange.id)
    obtain ⟨b, hb⟩ := isSome_ofLabel?.1 hun.2.2.2.1
    have hwhere : (updateTicketWhere d.ticketId d.userId t₀).holds = true := by
      refine updateTicketWhere_holds.2 ⟨hun.1.symm, ?_⟩
      rcases hun.2.2.2.2 with ⟨hp, -⟩ | ⟨hn, hp, hme, -⟩
      · exact Or.inl hp
      · exact Or.inr ⟨⟨hn, hp⟩, hun.2.1.trans (congrArg some hme.symm)⟩
    -- the row is int4, so the call commits and writes the moved row
    have hstep : step db (.updateTicket d) = db.moved d b :=
      step_updateTicket hb (hun.1 ▸ hS.ticket_id t₀ ht₀)
    have hmoved : t₀.moveTo b d.boardList d.userId ∈ (step db (.updateTicket d)).tickets.rows := by
      rw [hstep]
      exact SerialTable.updateWhere_mem ht₀ hwhere
    obtain rfl := SerialTable.eq_of_rowId_eq ht' hmoved hchange.id
    exact (not_participant_moveTo hb hwhere hbefore).2 hun h
  · intro h
    cases hchange with
    | same => exact hbefore
    | approved => exact hbefore
    | @moved d b _ hb hwhere =>
      by_contra hafter
      exact h ⟨d, rfl, t, ht, rfl, (not_participant_moveTo hb hwhere hbefore).1 hafter⟩

/-! ## What a step does to the tables -/

theorem updated_db (outcome : Outcome Nat) (result : HandlerResult) :
    (updated outcome result).db = outcome.db := by
  unfold updated
  cases outcome.result with
  | error e => rfl
  | ok rowCount =>
    simp only
    split <;> rfl

theorem handleCommentCreate_db
    (addComment : Timestamp → AddCommentData → Database → Outcome Comment)
    (event : Comment → ReviewEvent)
    (job : UserCookieData → JsNumber → Comment → NotificationJobPayload) (now : Timestamp)
    (socket : Socket) (content : String) (db : Database) :
    (handleCommentCreate addComment event job now socket content db).db = db ∨
      ∃ commentData, (handleCommentCreate addComment event job now socket content db).db =
        (addComment now commentData db).db := by
  unfold handleCommentCreate
  cases commentDataOf socket content with
  | error e => exact Or.inl rfl
  | ok p =>
    refine Or.inr ⟨p.2, ?_⟩
    simp only
    split <;> rfl

theorem handleCommentUpdate_db (event : UpdateCommentData → ReviewEvent) (now : Timestamp)
    (socket : Socket) (payload : UpdateCommentData) (db : Database) :
    (handleCommentUpdate event now socket payload db).db = db ∨
      ∃ user, (handleCommentUpdate event now socket payload db).db =
        (updateComment now user payload db).db := by
  unfold handleCommentUpdate
  split
  · exact Or.inl rfl
  · cases socket.dataUser "id" with
    | error e => exact Or.inl rfl
    | ok user => exact Or.inr ⟨user, updated_db _ _⟩

/-- The tables after a message are those before it, or those after one of the author's calls. -/
theorem handle_db (now : Timestamp) (socket : Socket) (message : ReviewMessage) (db : Database) :
    (handle now socket message db).db = db ∨
      ∃ c, (∀ d, c ≠ .updateTicket d) ∧ (handle now socket message db).db = step db c := by
  cases message with
  | commentDebateCreate payload =>
    have h := handleCommentCreate_db addCommentToDebate
    refine (h _ _ now socket payload.comment db).imp_right ?_
    exact fun ⟨commentData, h⟩ => ⟨.addCommentToDebate now commentData, nofun, h⟩
  | commentArgumentCreate payload =>
    have h := handleCommentCreate_db addCommentToArgument
    refine (h _ _ now socket payload.comment db).imp_right ?_
    exact fun ⟨commentData, h⟩ => ⟨.addCommentToArgument now commentData, nofun, h⟩
  | commentDebateUpdate payload =>
    refine (handleCommentUpdate_db _ now socket payload db).imp_right ?_
    exact fun ⟨user, h⟩ => ⟨.updateComment now user payload, nofun, h⟩
  | commentArgumentUpdate payload =>
    refine (handleCommentUpdate_db _ now socket payload db).imp_right ?_
    exact fun ⟨user, h⟩ => ⟨.updateComment now user payload, nofun, h⟩
  | argumentUpdate payload =>
    simp only [handle, handleArgumentUpdate]
    cases updateArgumentDataOf socket payload with
    | error e => exact Or.inl rfl
    | ok p => exact Or.inr ⟨.updateArgument p.2, nofun, updated_db _ _⟩
  | debateUpdate payload =>
    simp only [handle, handleDebateUpdate]
    cases updateDebateDataOf socket payload with
    | error e => exact Or.inl rfl
    | ok p => exact Or.inr ⟨.updateDebate p.2, nofun, updated_db _ _⟩

@[simp] theorem removeUserFromRoom_db (s : ReviewState) (sender : Socket) :
    (s.removeUserFromRoom sender).db = s.db := by
  unfold ReviewState.removeUserFromRoom
  split <;> rfl

/-- A step makes one call, which is an `updateTicket` exactly if the step is one, or it leaves the
    tables alone. -/
theorem reviewStep_db (s : ReviewState) (l : ReviewStep) :
    (∃ c, (reviewStep s l).db = step s.db c ∧
      ∀ d, c = .updateTicket d ↔ l.updateTicket? = some d) ∨
    (reviewStep s l).db = s.db ∧ l.updateTicket? = none := by
  cases l with
  | call c =>
    refine Or.inl ⟨c, rfl, fun d => ?_⟩
    cases c <;> simp [ReviewStep.updateTicket?]
  | connect socketId ticketId =>
    refine Or.inr ⟨?_, rfl⟩
    simp only [reviewStep]
    split <;> rfl
  | handleConnection socketId user => exact Or.inr ⟨rfl, rfl⟩
  | disconnect socketId => exact Or.inr ⟨rfl, rfl⟩
  | message socketId message =>
    refine Or.inr ⟨?_, rfl⟩
    simp only [reviewStep]
    split <;> rfl
  | execute now position =>
    simp only [reviewStep]
    split
    · next sender message _ =>
      rcases handle_db now sender message s.db with hdb | ⟨c, hc, hdb⟩
      · exact Or.inr ⟨hdb, rfl⟩
      · exact Or.inl ⟨c, hdb, fun d => by simp [ReviewStep.updateTicket?, hc d]⟩
    · exact Or.inr ⟨rfl, rfl⟩
  | resume position =>
    refine Or.inr ⟨?_, rfl⟩
    simp only [reviewStep]
    split
    · rfl
    · exact removeUserFromRoom_db _ _
    · rfl
  | getTicketComments ticketId user => exact Or.inr ⟨rfl, rfl⟩

/-! ## What a step does to the sockets -/

/-- A socket of the new state. -/
inductive SocketChange (s : ReviewState) (l : ReviewStep) : Socket → Prop
  | kept {socket : Socket} {rooms : List String} (hmem : socket ∈ s.sockets)
      (hrooms : rooms ⊆ socket.rooms) : SocketChange s l { socket with rooms := rooms }
  | connected (socketId : Nat) (ticketId : Option String) :
      SocketChange s l ⟨socketId, ticketId, none, []⟩
  | joined {socket : Socket} {socketId : Nat} {user : UserCookieData} {ticketId : String}
      (hstep : l.handleConnection? = some (socketId, user)) (hmem : socket ∈ s.sockets)
      (hnew : socket.Unidentified socketId)
      (hticket : socket.getTicketIdFromSocket = .ok ticketId) :
      SocketChange s l (socket.join user (reviewRoom ticketId))

theorem getRoomIdentifier_eq_ok {socket : Socket} {room : String} :
    socket.getRoomIdentifier = .ok room ↔
      ∃ ticketId, socket.getTicketIdFromSocket = .ok ticketId ∧ reviewRoom ticketId = room := by
  unfold Socket.getRoomIdentifier
  cases socket.getTicketIdFromSocket <;> simp [Except.map]

theorem socketChange_of_mem {socket : Socket} (h : socket ∈ s.sockets) : SocketChange s l socket :=
  .kept h (List.Subset.refl _)

theorem reviewStep_sockets {socket : Socket} (h : socket ∈ (reviewStep s l).sockets) :
    SocketChange s l socket := by
  cases l with
  | call c => exact socketChange_of_mem h
  | connect socketId ticketId =>
    simp only [reviewStep] at h
    split at h
    · exact socketChange_of_mem h
    · rcases List.mem_cons.1 h with rfl | h
      · exact .connected socketId ticketId
      · exact socketChange_of_mem h
  | handleConnection socketId user =>
    obtain ⟨old, hold, hsome⟩ := List.mem_filterMap.1 h
    split at hsome
    · next hnew =>
      cases hroom : old.getRoomIdentifier with
      | error e => simp [hroom] at hsome
      | ok room =>
        obtain ⟨ticketId, hticket, rfl⟩ := getRoomIdentifier_eq_ok.1 hroom
        simp only [hroom, Option.some.injEq] at hsome
        rw [← hsome]
        exact .joined rfl hold hnew hticket
    · obtain rfl := Option.some.inj hsome
      exact socketChange_of_mem hold
  | disconnect socketId => exact socketChange_of_mem (List.mem_filter.1 h).1
  | message socketId message =>
    simp only [reviewStep] at h
    split at h <;> exact socketChange_of_mem h
  | execute now position =>
    simp only [reviewStep] at h
    split at h <;> exact socketChange_of_mem h
  | resume position =>
    simp only [reviewStep] at h
    split at h
    · exact socketChange_of_mem h
    · unfold ReviewState.removeUserFromRoom at h
      split at h
      · exact socketChange_of_mem h
      · obtain ⟨old, hold, rfl⟩ := List.mem_map.1 h
        split
        · exact .kept hold (List.filter_subset_self _)
        · exact socketChange_of_mem hold
    · exact socketChange_of_mem h
  | getTicketComments ticketId user => exact socketChange_of_mem h

/-- A socket is in no room but its own, and in none before its session has been read. -/
structure ReviewState.WellFormed (s : ReviewState) : Prop where
  stored : s.db.Stored
  own : ∀ socket ∈ s.sockets, ∀ room ∈ socket.rooms, socket.getRoomIdentifier = .ok room
  identified : ∀ socket ∈ s.sockets, socket.user = none → socket.rooms = []

theorem ReviewState.WellFormed.init (lower : String → String) :
    (ReviewState.init lower).WellFormed :=
  ⟨.empty lower, nofun, nofun⟩

theorem wellFormed_step (s : ReviewState) (l : ReviewStep) (h : s.WellFormed) :
    (reviewStep s l).WellFormed where
  stored := by
    rcases reviewStep_db s l with ⟨c, hdb, -⟩ | ⟨hdb, -⟩
    · exact hdb ▸ stored_step s.db c h.stored
    · exact hdb ▸ h.stored
  own := by
    intro socket' hsocket' room hroom
    cases reviewStep_sockets hsocket' with
    | kept hmem hrooms => exact h.own _ hmem room (hrooms hroom)
    | connected => cases hroom
    | joined hstep hmem hnew hticket =>
      rcases List.mem_cons.1 hroom with rfl | hroom
      · exact getRoomIdentifier_eq_ok.2 ⟨_, hticket, rfl⟩
      · exact h.own _ hmem room hroom
  identified := by
    intro socket' hsocket' huser
    cases reviewStep_sockets hsocket' with
    | kept hmem hrooms => exact List.subset_nil.1 (h.identified _ hmem huser ▸ hrooms)
    | connected => rfl
    | joined => cases huser

/-! ## Private rooms -/

/-- Nobody is in a room of a ticket that is not theirs. -/
def ReviewState.RoomsPrivate (s : ReviewState) : Prop :=
  ∀ socket ∈ s.sockets, ∀ room ∈ socket.rooms, s.db.MayHear room socket

theorem reviewRoom_inj {ticketId ticketId' : String} :
    reviewRoom ticketId = reviewRoom ticketId' ↔ ticketId = ticketId' := by
  unfold reviewRoom
  rw [← String.toList_inj, String.toList_append, String.toList_append, List.append_cancel_left_eq,
    String.toList_inj]

theorem mayHear_iff {room ticketId : String} {socket : Socket} {user : UserCookieData}
    (hroom : room = reviewRoom ticketId) (huser : socket.user = some user) :
    db.MayHear room socket ↔ db.MayJoin ticketId user.id := by
  constructor
  · rintro ⟨ticketId', user', hroom', huser', h⟩
    obtain rfl := reviewRoom_inj.1 (hroom.symm.trans hroom')
    obtain rfl := Option.some.inj (huser.symm.trans huser')
    exact h
  · exact fun h => ⟨ticketId, user, hroom, huser, h⟩

theorem mayJoin_iff {ticketId : String} {userId : Int} :
    db.MayJoin ticketId userId ↔
      ∃ n, toNumber ticketId = .int n ∧ db.Participant n userId := by
  unfold Database.MayJoin
  cases toNumber ticketId <;> simp

theorem toOption_eq_some {ε α : Type} {x : Except ε α} {a : α} :
    x.toOption = some a ↔ x = .ok a := by
  cases x <;> simp [Except.toOption]

/-- The user of a socket that is in a room. -/
theorem ReviewState.WellFormed.exists_user (h : s.WellFormed) {socket : Socket}
    (hmem : socket ∈ s.sockets) {room : String} (hroom : room ∈ socket.rooms) :
    ∃ user, socket.user = some user := by
  rw [← Option.ne_none_iff_exists']
  intro hnone
  rw [h.identified socket hmem hnone] at hroom
  cases hroom

/-- Whether a socket may go on hearing its room after a step. -/
theorem mayHear_step_iff (hW : s.WellFormed) (hI : s.RoomsPrivate) {socket : Socket}
    (hmem : socket ∈ s.sockets) {room : String} (hroom : room ∈ socket.rooms) :
    (reviewStep s l).db.MayHear room socket ↔
      ¬ ∃ d ∈ l.updateTicket?, ∃ t ∈ s.db.tickets.rows, ∃ user ∈ socket.user,
        d.Unassigns t user.id ∧ ∃ ticketId ∈ socket.getTicketIdFromSocket.toOption,
          reviewRoom ticketId = room ∧ toNumber ticketId = .int t.id := by
  obtain ⟨ticketId, user, hname, huser, hjoin⟩ := hI socket hmem room hroom
  obtain ⟨n, hn, hpart⟩ := mayJoin_iff.1 hjoin
  obtain ⟨ticketId', hticket, hname'⟩ := getRoomIdentifier_eq_ok.1 (hW.own socket hmem room hroom)
  obtain rfl := reviewRoom_inj.1 (hname'.trans hname)
  -- the room, the user and the ticket are fixed by the socket, so only the call is left to vary
  have hiff : (∃ d ∈ l.updateTicket?, ∃ t ∈ s.db.tickets.rows, ∃ user ∈ socket.user,
        d.Unassigns t user.id ∧ ∃ ticketId ∈ socket.getTicketIdFromSocket.toOption,
          reviewRoom ticketId = room ∧ toNumber ticketId = .int t.id) ↔
      ∃ d ∈ l.updateTicket?, ∃ t ∈ s.db.tickets.rows, t.id = n ∧ d.Unassigns t user.id := by
    simp [huser, hticket, Except.toOption, hname', hn, eq_comm, and_comm]
  rw [hiff, mayHear_iff hname huser, mayJoin_iff]
  simp only [hn, JsNumber.int.injEq, exists_eq_left']
  rcases reviewStep_db s l with ⟨c, hdb, hc⟩ | ⟨hdb, hnone⟩
  · rw [hdb, hpart.step_iff hW.stored]
    simp only [hc]
    rfl
  · simp [hdb, hpart, hnone]

theorem handleConnection?_eq_some {socketId : Nat} {user : UserCookieData} :
    l.handleConnection? = some (socketId, user) ↔ l = .handleConnection socketId user := by
  cases l <;> simp [ReviewStep.handleConnection?]

theorem updateTicket?_eq_some {d : UpdateTicketData} :
    l.updateTicket? = some d ↔ l = .call (.updateTicket d) := by
  cases l with
  | call c => cases c <;> simp [ReviewStep.updateTicket?]
  | _ => simp [ReviewStep.updateTicket?]

/-- The socket that `handleConnection` puts into its room. -/
theorem joined_mem {socket : Socket} {socketId : Nat} {ticketId : String} (user : UserCookieData)
    (hmem : socket ∈ s.sockets) (hnew : socket.Unidentified socketId)
    (hticket : socket.getTicketIdFromSocket = .ok ticketId) :
    socket.join user (reviewRoom ticketId) ∈
      (reviewStep s (.handleConnection socketId user)).sockets := by
  refine List.mem_filterMap.2 ⟨socket, hmem, ?_⟩
  rw [if_pos hnew, getRoomIdentifier_eq_ok.2 ⟨ticketId, hticket, rfl⟩]

/-- Privacy of the rooms survives a step exactly when it neither admits a stranger nor unassigns a
    ticket from somebody who listens. -/
theorem roomsPrivate_step_iff (hW : s.WellFormed) (hI : s.RoomsPrivate) :
    (reviewStep s l).RoomsPrivate ↔ ¬ s.LetsListen l := by
  constructor
  · rintro h (⟨⟨socketId, user⟩, hc, socket, hmem, hnew, ticketId, hticket, hjoin⟩ |
      ⟨d, hd, t, ht, socket, hmem, user, huser, hun, ticketId, hticket, hroom, hid⟩)
    · obtain rfl := handleConnection?_eq_some.1 hc
      have hjoined := joined_mem user hmem hnew (toOption_eq_some.1 hticket)
      have hhear := h _ hjoined _ (List.mem_cons_self ..)
      exact hjoin ((mayHear_iff rfl rfl).1 hhear)
    · obtain rfl := updateTicket?_eq_some.1 hd
      have hhear := h socket hmem _ hroom
      exact (mayHear_step_iff hW hI hmem hroom).1 hhear
        ⟨d, hd, t, ht, user, huser, hun, ticketId, hticket, rfl, hid⟩
  · intro h socket' hsocket' room hroom
    cases reviewStep_sockets hsocket' with
    | @kept socket rooms hmem hrooms =>
      have hold := hrooms hroom
      refine (mayHear_step_iff hW hI hmem hold).2 ?_
      rintro ⟨d, hd, t, ht, user, huser, hun, ticketId, hticket, rfl, hid⟩
      exact h (Or.inr ⟨d, hd, t, ht, socket, hmem, user, huser, hun, ticketId, hticket, hold, hid⟩)
    | connected => cases hroom
    | @joined socket socketId user ticketId hstep hmem hnew hticket =>
      -- a socket that has just been identified is in the room it joins and in no other
      have hempty := hW.identified socket hmem hnew.2
      have hname : room = reviewRoom ticketId := by simpa [Socket.join, hempty] using hroom
      refine (mayHear_iff hname rfl).2 ?_
      obtain rfl := handleConnection?_eq_some.1 hstep
      by_contra hjoin
      exact h (Or.inl ⟨_, hstep, socket, hmem, hnew, ticketId, toOption_eq_some.2 hticket, hjoin⟩)

/-- **Private rooms.** In a run, everybody in a room is connected to its ticket, in every state,
    exactly when no step admits a stranger or unassigns a ticket from somebody who listens. -/
theorem rooms_private_iff (lower : String → String) (ls : List ReviewStep) :
    (∀ s ∈ states reviewStep (ReviewState.init lower) ls, s.RoomsPrivate) ↔
      ∀ p ∈ steps reviewStep (ReviewState.init lower) ls, ¬ p.1.LetsListen p.2 :=
  states_iff_steps wellFormed_step (fun _ _ hW hI => roomsPrivate_step_iff hW hI)
    (.init lower) nofun ls

/-! ## Deliveries -/

theorem getTicketComments_confidential {n : Int} {user : UserCookieData} {comments : List Comment}
    (h : getTicketComments (.int n) user db = .ok comments) :
    ∀ c ∈ comments, (Delivery.listing n user c).Confidential db := by
  intro c hc
  unfold getTicketComments at h
  cases hn : int4 (.int n) with
  | error e => simp [hn] at h
  | ok m =>
    obtain ⟨-, rfl⟩ := int4_int.1 hn
    simp only [hn, Except.ok.injEq] at h
    rw [← h, List.mem_mergeSort] at hc
    obtain ⟨⟨⟨tc, t⟩, u⟩, hq, rfl⟩ := List.mem_map.1 hc
    obtain ⟨hq, hw⟩ := mem_selectWhere.1 hq
    obtain ⟨hpair, -, -⟩ := mem_innerJoin.1 hq
    obtain ⟨htc, ht, hon⟩ := mem_innerJoin.1 hpair
    refine ⟨⟨t, ht, hw⟩, tc, htc, rfl, ?_⟩
    have hticket : tc.ticketId = t.id := by simpa using hon
    rw [hticket, (participantWhere_holds.1 hw).1]

/-- While the rooms are private, whatever is delivered is. -/
theorem deliveries_confidential (hI : s.RoomsPrivate) :
    ∀ x ∈ deliveries s l, x.Confidential s.db := by
  intro x hx
  cases l with
  | resume position =>
    simp only [deliveries] at hx
    split at hx
    · split at hx
      · obtain ⟨socket, hsocket, rfl⟩ := List.mem_map.1 hx
        obtain ⟨hmem, hcond⟩ := List.mem_filter.1 hsocket
        exact hI socket hmem _ (of_decide_eq_true hcond).1
      · cases hx
    · cases hx
  | getTicketComments ticketId user =>
    simp only [deliveries] at hx
    split at hx
    · next n comments hn hcomments =>
      obtain ⟨c, hc, rfl⟩ := List.mem_map.1 hx
      simp only [CommentController.getTicketComments, hn] at hcomments
      split at hcomments
      · next e _ => cases e <;> cases hcomments
      · next comments' hok =>
        cases hcomments
        exact getTicketComments_confidential hok c hc
    · cases hx
  | _ => cases hx

/-- **Confidential review threads.** In a run no step of which admits a stranger to a room or
    unassigns a ticket from somebody who listens, every room event and every listed comment reaches
    users only who are connected to the ticket when it is delivered. -/
theorem review_threads_confidential (lower : String → String) (ls : List ReviewStep)
    (h : ∀ p ∈ steps reviewStep (ReviewState.init lower) ls, ¬ p.1.LetsListen p.2) :
    ∀ p ∈ steps reviewStep (ReviewState.init lower) ls,
      ∀ x ∈ deliveries p.1 p.2, x.Confidential p.1.db := by
  have hstep : ∀ (s : ReviewState) (l : ReviewStep), s.WellFormed ∧ s.RoomsPrivate →
      ¬ s.LetsListen l → (reviewStep s l).WellFormed ∧ (reviewStep s l).RoomsPrivate :=
    fun s l hs hl => ⟨wellFormed_step s l hs.1, (roomsPrivate_step_iff hs.1 hs.2).2 hl⟩
  intro p hp
  have hs := steps_invariant_of_steps hstep ⟨.init lower, nofun⟩ h p hp
  exact deliveries_confidential hs.2

/-! ## A room with a listener -/

/-- The user proposes debate 1, moderator one takes its ticket 1, and the user comments on it while
    a socket of the listener's is connected with that ticket's id. -/
def commentBefore (listener : UserCookieData) : List ReviewStep :=
  (createUsers ++ [proposeDebate, .updateTicket ⟨moderatorOne.id, 1, "IN REVIEW"⟩]).map .call ++
    [.connect 10 (some "1"), .handleConnection 10 listener, .connect 11 (some "1"),
      .handleConnection 11 testUser,
      .message 11 (.commentDebateCreate ⟨"A comment", .int 1, .int 2, "Title"⟩), .execute 2 0]

/-- The socket of the listener and the comment it receives. -/
def receivedBy (listener : UserCookieData) : Delivery :=
  .event "review:1" ⟨10, some "1", some listener, ["review:1"]⟩
    (.commentDebateCreate ⟨1, "A comment", 1, 2, 2, testUser.username⟩)

theorem review_threads_confidential_sample :
    (receivedBy moderatorOne ∈ deliveries
      (run reviewStep (ReviewState.init id) (commentBefore moderatorOne)) (.resume 0)) ∧
    ∀ p ∈ steps reviewStep (ReviewState.init id) (commentBefore moderatorOne ++ [.resume 0]),
      ∀ x ∈ deliveries p.1 p.2, x.Confidential p.1.db :=
  ⟨by decide +kernel, review_threads_confidential id _ (by decide +kernel)⟩

/-- A moderator who has nothing to do with the ticket hears the comment. -/
theorem handleConnection_admits_stranger :
    ¬ ∀ (lower : String → String) (ls : List ReviewStep),
      ∀ p ∈ steps reviewStep (ReviewState.init lower) ls,
        ∀ x ∈ deliveries p.1 p.2, x.Confidential p.1.db := by
  intro h
  let s := run reviewStep (ReviewState.init id) (commentBefore moderatorTwo)
  have hlast : (s, ReviewStep.resume 0) ∈
      steps reviewStep (ReviewState.init id) (commentBefore moderatorTwo ++ [.resume 0]) :=
    mem_steps_iff.2 ⟨commentBefore moderatorTwo, [], rfl, rfl⟩
  have hreceived : receivedBy moderatorTwo ∈ deliveries s (.resume 0) := by decide +kernel
  have hhear := h id _ _ hlast _ hreceived
  have hjoin : s.db.MayJoin "1" moderatorTwo.id := (mayHear_iff rfl rfl).1 hhear
  exact absurd hjoin (by decide +kernel)

end DecentDebates

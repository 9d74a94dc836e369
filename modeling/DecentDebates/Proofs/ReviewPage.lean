import Mathlib.Data.List.Perm.Basic
import DecentDebates.ReviewPage
import DecentDebates.Proofs.Numbers
import DecentDebates.Proofs.Comments
import DecentDebates.Proofs.ReviewMessages

set_option autoImplicit false

/-! # The comments of a review page: proofs

The page and the API refine the feed of `Lib/Feed`: the items are the ids of the ticket's comments,
an item is unannounced while the handler that has inserted it has not emitted, and the queue is the
page's inbox. What the rooms contribute is that an event the page hears is of its own ticket. -/

namespace DecentDebates

open Feed Relational Transition

variable {page : ReviewPage} {s : PageState} {db : Database}

/-! ## The listing -/

/-- A participant of a ticket is answered with the comments of the ticket, each of them once. -/
theorem getTicketComments_perm {ticketId : Int} {user : UserCookieData} (hid : IsInt4 ticketId)
    (hcommenter : ∀ tc ∈ db.ticketComments.rows, ∃ u ∈ db.users.rows, u.id = tc.commenterId)
    (hpart : db.Participant ticketId user.id) :
    ∃ comments, getTicketComments (.int ticketId) user db = .ok comments ∧
      (comments.map Comment.commentId).Perm
        ((db.ticketComments.rows.filter fun tc => tc.ticketId = ticketId).map
          TicketCommentRow.id) := by
  obtain ⟨t, ht, hw⟩ := hpart
  obtain ⟨rfl, -⟩ := participantWhere_holds.1 hw
  have hint : int4 (.int t.id) = .ok t.id := int4_int.2 ⟨hid, rfl⟩
  unfold getTicketComments
  simp only [hint, Except.ok.injEq, exists_eq_left']
  refine ((List.mergeSort_perm _ _).map _).trans (List.Perm.of_eq ?_)
  have htickets := innerJoin_rowId db.ticketComments.rows db.tickets fun tc => some tc.ticketId
  have husers := fun rows : List (TicketCommentRow × TicketRow) =>
    innerJoin_rowId rows db.users fun q => some q.1.commenterId
  simp only [SerialRow.rowId] at htickets husers
  rw [htickets, husers, selectWhere]
  simp only [List.filterMap_filterMap, List.filter_filterMap, List.map_filterMap,
    ← List.filterMap_eq_filter]
  refine List.filterMap_congr fun tc htc => ?_
  obtain ⟨u, hu, hcommenterId⟩ := hcommenter tc htc
  have hfind : db.users.find? tc.commenterId = some u :=
    SerialTable.find?_eq_some.2 ⟨hu, hcommenterId⟩
  by_cases hticket : tc.ticketId = t.id
  · have hfound : db.tickets.find? tc.ticketId = some t :=
      SerialTable.find?_eq_some.2 ⟨ht, hticket.symm⟩
    simp only [hfound, hfind, Option.bind_some, Option.map_some, Option.filter_some, hw, if_true]
    simp [hticket, Option.guard, Comment.ofRows]
  · have hother : ∀ t' ∈ db.tickets.find? tc.ticketId,
        (participantWhere t.id user.id t').holds = false := fun t' ht' => by
      obtain ⟨-, hid'⟩ := SerialTable.find?_eq_some.1 ht'
      by_contra hw'
      rw [Bool.not_eq_false] at hw'
      exact hticket (hid'.symm.trans (participantWhere_holds.1 hw').1)
    cases hfound : db.tickets.find? tc.ticketId with
    | none =>
      simp only [hfound, Option.bind_some, Option.map_none, Option.bind_none, Option.filter_none]
      simp [hticket, Option.guard]
    | some t' =>
      simp only [hfound, hfind, Option.bind_some, Option.map_some, Option.filter_some,
        hother t' hfound]
      simp [hticket, Option.guard]

/-! ## The handler of a new comment -/

/-- One comment more, on the ticket. -/
structure AddsComment (db db' : Database) (ticketId commentId : Int) : Prop where
  users : db'.users = db.users
  tickets : db'.tickets = db.tickets
  fresh : ∀ tc ∈ db.ticketComments.rows, tc.id ≠ commentId
  rows : ∃ tc, db'.ticketComments.rows = db.ticketComments.rows ++ [tc] ∧ tc.id = commentId ∧
    tc.ticketId = ticketId ∧ ∃ u ∈ db.users.rows, u.id = tc.commenterId

theorem ticketNumber_eq_some {socket : Socket} {ticketId : String} {n : Int}
    (hticket : socket.getTicketIdFromSocket = .ok ticketId) (hn : toNumber ticketId = .int n) :
    socket.ticketNumber = some n := by
  simp only [Socket.ticketNumber, hticket, hn]

/-- The handler inserts a comment on the ticket of its sender and emits it, or it fails and leaves
    the tables alone. -/
theorem handle_commentArgumentCreate (now : Timestamp) (sender : Socket)
    (payload : ArgumentCommentPayload) (db : Database) :
    (∃ ticketId comment job db', sender.ticketNumber = some ticketId ∧
      AddsComment db db' ticketId comment.commentId ∧
      handle now sender (.commentArgumentCreate payload) db =
        ⟨.ok ⟨.commentArgumentCreate comment, job⟩, db'⟩) ∨
    ∃ e, handle now sender (.commentArgumentCreate payload) db = ⟨.error e, db⟩ := by
  simp only [handle, handleArgumentCommentCreate, handleCommentCreate]
  cases hdata : commentDataOf sender payload.comment with
  | error e => exact Or.inr ⟨e, rfl⟩
  | ok q =>
    obtain ⟨user, d⟩ := q
    obtain ⟨ticketId, hticket, -, rfl⟩ := commentDataOf_ok hdata
    rcases addComment_cases argumentReferences now ⟨toNumber ticketId, payload.comment, user.id⟩
        db with
      ⟨n, content, u, hn, -, -, hu, hid, hadd⟩ | ⟨e, hadd⟩
    · simp only [addCommentToArgument, hadd, Outcome.result_resolve, Outcome.db_resolve]
      refine Or.inl ⟨n, _, _, _, ticketNumber_eq_some hticket (int4_eq_ok.1 hn).1, ?_, rfl⟩
      exact ⟨rfl, rfl, fun tc htc => SerialTable.ne_next htc, _, rfl, rfl, rfl, u, hu, hid⟩
    · simp only [addCommentToArgument, hadd, Outcome.result_reject, Outcome.db_reject]
      exact Or.inr ⟨_, rfl⟩

/-! ## What holds of the sockets and the handlers -/

/-- The page may read its ticket, and the sockets and the handlers are as they are bound to be: the
    page's socket is in no room but its own, and no handler is of the page's. -/
structure ReviewPage.WellFormed (page : ReviewPage) (s : ReviewState) : Prop where
  ticket : IsInt4 page.ticket
  commenter : ∀ tc ∈ s.db.ticketComments.rows, ∃ u ∈ s.db.users.rows, u.id = tc.commenterId
  participant : s.db.Participant page.ticket page.user.id
  ids : (s.sockets.map Socket.id).Nodup
  joined : ∀ socket ∈ s.sockets, socket.id = page.socketId →
    socket.ticketId = some page.ticketId ∧ ∀ room ∈ socket.rooms, room = reviewRoom page.ticketId
  sender : ∀ h ∈ s.handlers, h.sender.id ≠ page.socketId
  message : ∀ h ∈ s.handlers, ∃ payload, h.message = .commentArgumentCreate payload

/-- A step of the API on behalf of the page or of another socket. -/
def ReviewPage.Allows (page : ReviewPage) (l : ReviewStep) : Prop :=
  l.OfOthers page.socketId ∨ l = .connect page.socketId (some page.ticketId) ∨
    l = .handleConnection page.socketId page.user

theorem getTicketIdFromSocket_eq_ok {socket : Socket} {ticketId : String}
    (h : socket.getTicketIdFromSocket = .ok ticketId) : socket.ticketId = some ticketId := by
  unfold Socket.getTicketIdFromSocket at h
  split at h
  · cases h
  · next heq =>
    split at h
    · cases h
    · rw [heq, Except.ok.inj h]

section

variable {s : ReviewState} {l : ReviewStep}

theorem ReviewPage.WellFormed.connect (h : page.WellFormed s) {socketId : Nat}
    {ticketId : Option String}
    (hpage : socketId = page.socketId → ticketId = some page.ticketId) :
    page.WellFormed (reviewStep s (.connect socketId ticketId)) := by
  simp only [reviewStep]
  split
  · exact h
  · next hnew =>
    simp only [List.any_eq_true, decide_eq_true_eq, not_exists, not_and] at hnew
    refine { h with ids := ?_, joined := ?_ }
    · refine List.nodup_cons.2 ⟨fun hmem => ?_, h.ids⟩
      obtain ⟨socket, hsocket, hid⟩ := List.mem_map.1 hmem
      exact hnew socket hsocket hid
    · intro socket hsocket hid
      rcases List.mem_cons.1 hsocket with rfl | hsocket
      · exact ⟨hpage hid, fun room hroom => absurd hroom List.not_mem_nil⟩
      · exact h.joined socket hsocket hid

theorem ReviewPage.WellFormed.handleConnection (h : page.WellFormed s) (socketId : Nat)
    (user : UserCookieData) : page.WellFormed (reviewStep s (.handleConnection socketId user)) := by
  -- a socket is dropped, or joins the room of its own ticket id, or stays as it is
  refine { h with ids := ?_, joined := ?_ }
  · refine h.ids.sublist (Relational.map_filterMap_sublist (fun old socket heq => ?_) _)
    split at heq
    · split at heq
      · rw [← Option.some.inj heq]
        rfl
      · cases heq
    · rw [Option.some.inj heq]
  · intro socket hsocket hid
    obtain ⟨old, hold, heq⟩ := List.mem_filterMap.1 hsocket
    split at heq
    · split at heq
      · next room hroom =>
        obtain ⟨ticketId, hticket, rfl⟩ := getRoomIdentifier_eq_ok.1 hroom
        obtain rfl := Option.some.inj heq
        obtain ⟨hown, hrooms⟩ := h.joined old hold hid
        obtain rfl := Option.some.inj ((getTicketIdFromSocket_eq_ok hticket).symm.trans hown)
        exact ⟨hown, List.forall_mem_cons.2 ⟨rfl, hrooms⟩⟩
      · cases heq
    · rw [← Option.some.inj heq] at hid ⊢
      exact h.joined old hold hid

theorem ReviewPage.WellFormed.disconnect (h : page.WellFormed s) (socketId : Nat) :
    page.WellFormed (reviewStep s (.disconnect socketId)) :=
  { h with
    ids := h.ids.sublist (List.filter_sublist.map _)
    joined := fun socket hsocket => h.joined socket (List.mem_of_mem_filter hsocket) }

theorem ReviewPage.WellFormed.received (h : page.WellFormed s) {socketId : Nat}
    (hid : socketId ≠ page.socketId) (payload : ArgumentCommentPayload) :
    page.WellFormed (reviewStep s (.message socketId (.commentArgumentCreate payload))) := by
  simp only [reviewStep]
  split
  · exact h
  · next socket hfind =>
    have hsocket : socket.id = socketId := by simpa using List.find?_some hfind
    refine { h with sender := ?_, message := ?_ }
    · exact List.forall_mem_append.2 ⟨h.sender, List.forall_mem_singleton.2 (hsocket ▸ hid)⟩
    · exact List.forall_mem_append.2 ⟨h.message, List.forall_mem_singleton.2 ⟨payload, rfl⟩⟩

theorem ReviewPage.WellFormed.execute (h : page.WellFormed s) (now : Timestamp) (position : Nat) :
    page.WellFormed (reviewStep s (.execute now position)) := by
  simp only [reviewStep]
  split
  · next sender message hpos =>
    have hmem := List.mem_of_getElem? hpos
    have hid := h.sender _ hmem
    obtain ⟨payload, rfl⟩ := h.message _ hmem
    have hsender : ∀ h' ∈ s.handlers.set position ⟨sender, .commentArgumentCreate payload,
        some (handle now sender (.commentArgumentCreate payload) s.db).result⟩,
        h'.sender.id ≠ page.socketId := fun h' hh' =>
      (List.mem_or_eq_of_mem_set hh').elim (h.sender h') fun heq => by
        rw [heq]
        exact hid
    have hmessage : ∀ h' ∈ s.handlers.set position ⟨sender, .commentArgumentCreate payload,
        some (handle now sender (.commentArgumentCreate payload) s.db).result⟩,
        ∃ payload, h'.message = .commentArgumentCreate payload := fun h' hh' =>
      (List.mem_or_eq_of_mem_set hh').elim (h.message h') fun heq =>
        ⟨payload, by rw [heq]⟩
    rcases handle_commentArgumentCreate now sender payload s.db with
      ⟨ticketId, comment, job, db', -, hadds, heq⟩ | ⟨e, heq⟩
    · rw [heq] at hsender hmessage ⊢
      obtain ⟨tc, hrows, -, -, hcommenter⟩ := hadds.rows
      refine ⟨h.ticket, ?_, ?_, h.ids, h.joined, hsender, hmessage⟩
      · rw [hrows, hadds.users]
        exact List.forall_mem_append.2 ⟨h.commenter, List.forall_mem_singleton.2 hcommenter⟩
      · unfold Database.Participant
        rw [hadds.tickets]
        exact h.participant
    · rw [heq] at hsender hmessage ⊢
      exact { h with sender := hsender, message := hmessage }
  · exact h

theorem ReviewPage.WellFormed.resume (h : page.WellFormed s) (position : Nat) :
    page.WellFormed (reviewStep s (.resume position)) := by
  have herase : page.WellFormed { s with handlers := s.handlers.eraseIdx position } :=
    { h with
      sender := fun h' hh' => h.sender h' (List.mem_of_mem_eraseIdx hh')
      message := fun h' hh' => h.message h' (List.mem_of_mem_eraseIdx hh') }
  simp only [reviewStep]
  split
  · exact herase
  · next sender _ _ _ =>
    unfold ReviewState.removeUserFromRoom
    split
    · exact herase
    · next room _ =>
      refine { herase with ids := ?_, joined := ?_ }
      · have hids : ∀ socket : Socket,
            (if socket.id = sender.id then socket.leave room else socket).id = socket.id := by
          intro socket
          split <;> rfl
        rw [List.map_map]
        exact (List.map_congr_left fun socket _ => hids socket).symm ▸ h.ids
      · intro socket hsocket hid
        obtain ⟨old, hold, rfl⟩ := List.mem_map.1 hsocket
        by_cases hsame : old.id = sender.id
        · rw [if_pos hsame] at hid ⊢
          obtain ⟨hown, hrooms⟩ := h.joined old hold hid
          exact ⟨hown, fun room hroom => hrooms room (List.mem_of_mem_filter hroom)⟩
        · rw [if_neg hsame] at hid ⊢
          exact h.joined old hold hid
  · exact h

theorem ReviewPage.WellFormed.step (h : page.WellFormed s) (hl : page.Allows l) :
    page.WellFormed (reviewStep s l) := by
  rcases hl with hl | rfl | rfl
  · cases l with
    | connect socketId ticketId => exact h.connect fun hid => absurd hid hl
    | handleConnection socketId user => exact h.handleConnection socketId user
    | disconnect socketId => exact h.disconnect socketId
    | message socketId message =>
      cases message with
      | commentArgumentCreate payload => exact h.received hl payload
      | _ => exact hl.elim
    | execute now position => exact h.execute now position
    | resume position => exact h.resume position
    | _ => exact hl.elim
  · exact h.connect fun _ => rfl
  · exact h.handleConnection _ _

end

/-! ## Who hears an event -/

section

variable {s : ReviewState} {sender : Socket} {room : String} {comment : Comment}

theorem filterMap_eq_singleton {α β κ : Type} {key : α → κ} {f : α → Option β} {l : List α}
    (hnodup : (l.map key).Nodup) {a : α} (ha : a ∈ l) {b : β} (hb : f a = some b)
    (hother : ∀ x ∈ l, key x ≠ key a → f x = none) : l.filterMap f = [b] := by
  induction l with
  | nil => cases ha
  | cons x l ih =>
    obtain ⟨hx, hnodup⟩ := List.nodup_cons.1 hnodup
    rw [List.forall_mem_cons] at hother
    rcases List.mem_cons.1 ha with rfl | ha
    · have hnone : ∀ y ∈ l, f y = none := fun y hy =>
        hother.2 y hy fun hkey => hx (hkey ▸ List.mem_map_of_mem hy)
      rw [List.filterMap_cons_some hb, List.filterMap_eq_nil_iff.2 hnone]
    · have hne : key x ≠ key a := fun hkey => hx (hkey ▸ List.mem_map_of_mem ha)
      rw [List.filterMap_cons_none (hother.1 hne)]
      exact ih hnodup ha hother.2

theorem filterMap_emit (page : ReviewPage) :
    (s.emit sender room (.commentArgumentCreate comment)).filterMap page.insertedComment =
      s.sockets.filterMap fun socket =>
        if (room ∈ socket.rooms ∧ socket.id ≠ sender.id) ∧ socket.id = page.socketId then
          some comment
        else none := by
  unfold ReviewState.emit
  rw [List.filterMap_map, List.filterMap_filter]
  refine List.filterMap_congr fun socket _ => ?_
  simp only [Function.comp_apply, ReviewPage.insertedComment, decide_eq_true_eq, ite_and]

theorem emit_heard (h : page.WellFormed s) (hsender : sender.id ≠ page.socketId)
    (hears : page.Hears s room) :
    (s.emit sender room (.commentArgumentCreate comment)).filterMap page.insertedComment =
      [comment] := by
  obtain ⟨socket, hsocket, hid, hroom⟩ := hears
  rw [filterMap_emit]
  refine filterMap_eq_singleton h.ids hsocket ?_ fun other _ hne => ?_
  · rw [if_pos ⟨⟨hroom, hid ▸ hsender.symm⟩, hid⟩]
  · rw [if_neg fun hcond => hne (hcond.2.trans hid.symm)]

theorem emit_unheard (hears : ¬ page.Hears s room) :
    (s.emit sender room (.commentArgumentCreate comment)).filterMap page.insertedComment = [] := by
  rw [filterMap_emit, List.filterMap_eq_nil_iff]
  exact fun socket hsocket => if_neg fun hcond => hears ⟨socket, hsocket, hcond.2, hcond.1.1⟩

/-- An event that the page hears comes from a socket of its own ticket. -/
theorem ReviewPage.WellFormed.ticketNumber_of_hears (h : page.WellFormed s)
    (hroom : sender.getRoomIdentifier = .ok room) (hears : page.Hears s room) :
    sender.ticketNumber = some page.ticket := by
  obtain ⟨socket, hsocket, hid, hmem⟩ := hears
  obtain ⟨ticketId, hticket, hname⟩ := getRoomIdentifier_eq_ok.1 hroom
  obtain rfl := reviewRoom_inj.1 (hname.trans ((h.joined socket hsocket hid).2 room hmem))
  exact ticketNumber_eq_some hticket (toNumber_of_parseIntPipe page.parses)

end

/-! ## The page as a feed -/

/-- The comment of the page's ticket that a handler is about to emit. -/
def ReviewPage.pending (page : ReviewPage) (h : Handler) : Option Int :=
  match h.result with
  | some (.ok ⟨.commentArgumentCreate comment, _⟩) =>
    if h.sender.ticketNumber = some page.ticket then some comment.commentId else none
  | _ => none

def ReviewPage.stored (page : ReviewPage) (db : Database) : List Int :=
  (db.ticketComments.rows.filter fun tc => tc.ticketId = page.ticket).map TicketCommentRow.id

def ReviewPage.toFeed (page : ReviewPage) (s : PageState) : Feed.State Int where
  stored := page.stored s.server.db
  unannounced := s.server.handlers.filterMap page.pending
  queue := s.inbox.map Comment.commentId
  fetch := s.fetch.map fun comments => comments.map Comment.commentId
  shown := s.comments.map Comment.commentId

/-- The step is an event of the feed, or nothing happens to the feed. -/
inductive ReviewPage.Simulates (page : ReviewPage) (s s' : PageState) (keeps : Prop) : Prop
  | idle (heq : page.toFeed s' = page.toFeed s) (hkeeps : keeps)
  | event (e : Event Int) (heq : page.toFeed s' = Feed.step (page.toFeed s) e)
      (hkeeps : keeps ↔ Feed.Keeps (page.toFeed s) e)

theorem toFeed_congr {s' : PageState} (hdb : s'.server.db = s.server.db)
    (hpending : s'.server.handlers.filterMap page.pending =
      s.server.handlers.filterMap page.pending)
    (hinbox : s'.inbox = s.inbox) (hfetch : s'.fetch = s.fetch)
    (hcomments : s'.comments = s.comments) : page.toFeed s' = page.toFeed s := by
  simp only [ReviewPage.toFeed, hdb, hpending, hinbox, hfetch, hcomments]

theorem filterMap_eraseIdx_perm {α β : Type} {f : α → Option β} {l : List α} {i : Nat} {a : α}
    (ha : l[i]? = some a) :
    (l.filterMap f).Perm ((f a).toList ++ (l.eraseIdx i).filterMap f) := by
  obtain ⟨hi, rfl⟩ := List.getElem?_eq_some_iff.1 ha
  refine ((List.getElem_cons_eraseIdx_perm hi).filterMap f).symm.trans (List.Perm.of_eq ?_)
  rw [List.filterMap_cons]
  cases f l[i] <;> rfl

theorem filterMap_set_perm {α β : Type} {f : α → Option β} {l : List α} {i : Nat} {a : α} (b : α)
    (ha : l[i]? = some a) (hfa : f a = none) :
    ((l.set i b).filterMap f).Perm ((f b).toList ++ l.filterMap f) := by
  have herase := filterMap_eraseIdx_perm (f := f) ha
  obtain ⟨hi, rfl⟩ := List.getElem?_eq_some_iff.1 ha
  rw [hfa, Option.toList_none, List.nil_append] at herase
  refine ((List.set_perm_cons_eraseIdx hi b).filterMap f).trans ?_
  refine List.Perm.trans (List.Perm.of_eq ?_) (herase.symm.append_left _)
  rw [List.filterMap_cons]
  cases f b <;> rfl

theorem stored_of_adds {db' : Database} {ticketId commentId : Int}
    (hadds : AddsComment db db' ticketId commentId) :
    page.stored db' = page.stored db ++ if ticketId = page.ticket then [commentId] else [] := by
  obtain ⟨tc, hrows, rfl, rfl, -⟩ := hadds.rows
  unfold ReviewPage.stored
  rw [hrows, List.filter_append, List.map_append, List.filter_singleton]
  by_cases hpage : tc.ticketId = page.ticket <;> simp [hpage]

theorem simulates_execute (h : page.WellFormed s.server) (now : Timestamp) (position : Nat) :
    page.Simulates s (page.serve s (.execute now position))
      (page.KeepsEmitted s (.execute now position)) := by
  have hkeeps : page.KeepsEmitted s (.execute now position) := nofun
  have hinbox : s.inbox ++ (deliveries s.server (.execute now position)).filterMap
      page.insertedComment = s.inbox := List.append_nil _
  simp only [ReviewPage.serve, hinbox, reviewStep]
  split
  · next sender message hpos =>
    obtain ⟨payload, rfl⟩ := h.message _ (List.mem_of_getElem? hpos)
    have hpending := fun result => filterMap_set_perm (f := page.pending)
      ⟨sender, .commentArgumentCreate payload, some result⟩ hpos rfl
    rcases handle_commentArgumentCreate now sender payload s.server.db with
      ⟨ticketId, comment, job, db', hticket, hadds, heq⟩ | ⟨e, heq⟩
    · have hstored : page.stored db' = page.stored s.server.db ++
          if ticketId = page.ticket then [comment.commentId] else [] := stored_of_adds hadds
      have hset := hpending (.ok ⟨.commentArgumentCreate comment, job⟩)
      simp only [heq]
      by_cases hpage : ticketId = page.ticket
      · have hfresh : comment.commentId ∉ page.stored s.server.db := fun hmem => by
          obtain ⟨tc, htc, hid⟩ := List.mem_map.1 hmem
          exact hadds.fresh tc (List.mem_of_mem_filter htc) hid
        simp only [hpage, if_true] at hstored
        simp only [ReviewPage.pending, hticket, hpage, if_true] at hset
        refine .event (.store comment.commentId) ?_ (iff_of_true hkeeps trivial)
        simp only [Feed.step, ReviewPage.toFeed, Multiset.mem_coe, hfresh, if_false, hstored,
          Feed.State.mk.injEq, Multiset.cons_coe, Multiset.coe_eq_coe, and_self, and_true]
        exact ⟨List.perm_append_singleton _ _, hset⟩
      · simp only [hpage, if_false, List.append_nil] at hstored
        simp only [ReviewPage.pending, hticket, Option.some.injEq, hpage, if_false] at hset
        refine .idle ?_ hkeeps
        simp only [ReviewPage.toFeed, hstored, Feed.State.mk.injEq, Multiset.coe_eq_coe, and_self,
          and_true, true_and]
        exact hset
    · simp only [heq]
      refine .idle ?_ hkeeps
      simp only [ReviewPage.toFeed, Feed.State.mk.injEq, Multiset.coe_eq_coe, and_self, and_true,
        true_and]
      exact hpending (.error e)
  · exact .idle rfl hkeeps

theorem has_iff (comment : Comment) : ReviewPage.Has s comment ↔
    (page.toFeed s).fetch.Has (page.toFeed s).shown comment.commentId := by
  unfold ReviewPage.Has ReviewPage.toFeed
  cases s.fetch <;> rfl

theorem receives_iff (comment : Comment) : ReviewPage.Receives s comment ↔
    (page.toFeed s).fetch.Receives (page.toFeed s).shown comment.commentId := by
  unfold ReviewPage.Receives ReviewPage.toFeed
  cases s.fetch <;> rfl

theorem removeUserFromRoom_handlers (s : ReviewState) (sender : Socket) :
    (s.removeUserFromRoom sender).handlers = s.handlers := by
  unfold ReviewState.removeUserFromRoom
  split <;> rfl

/-- A handler that ends without a comment to emit. -/
theorem simulates_resume_idle {position : Nat} {h : Handler}
    (hpos : s.server.handlers[position]? = some h) (hpending : page.pending h = none)
    (hdelivered : (deliveries s.server (.resume position)).filterMap page.insertedComment = [])
    (herased : (reviewStep s.server (.resume position)).handlers =
      s.server.handlers.eraseIdx position)
    (hdb : (reviewStep s.server (.resume position)).db = s.server.db)
    (hkeeps : page.KeepsEmitted s (.resume position)) :
    page.Simulates s (page.serve s (.resume position)) (page.KeepsEmitted s (.resume position)) := by
  have hperm := filterMap_eraseIdx_perm (f := page.pending) hpos
  rw [hpending, Option.toList_none, List.nil_append] at hperm
  refine .idle ?_ hkeeps
  simp only [ReviewPage.toFeed, ReviewPage.serve, hdelivered, herased, hdb, List.append_nil,
    Feed.State.mk.injEq, Multiset.coe_eq_coe, and_self, and_true, true_and]
  exact hperm.symm

theorem simulates_resume_comment (h : page.WellFormed s.server) {position : Nat} {sender : Socket}
    {message : ReviewMessage} {comment : Comment} {job : Option NotificationJobPayload}
    (hpos : s.server.handlers[position]? =
      some ⟨sender, message, some (.ok ⟨.commentArgumentCreate comment, job⟩)⟩) :
    page.Simulates s (page.serve s (.resume position)) (page.KeepsEmitted s (.resume position)) := by
  have hemitting : ReviewPage.emitting s.server (.resume position) = some (sender, comment) := by
    simp only [ReviewPage.emitting, hpos]
  have hstep : reviewStep s.server (.resume position) =
      { s.server with handlers := s.server.handlers.eraseIdx position } := by
    simp only [reviewStep, hpos]
  have hemit : ∀ room, sender.getRoomIdentifier = .ok room → deliveries s.server (.resume position) =
      s.server.emit sender room (.commentArgumentCreate comment) := by
    intro room hroom
    simp only [deliveries, hpos, hroom]
  have hlost : ∀ e, sender.getRoomIdentifier = .error e →
      deliveries s.server (.resume position) = [] := by
    intro e hroom
    simp only [deliveries, hpos, hroom]
  have hsender : sender.id ≠ page.socketId := h.sender _ (List.mem_of_getElem? hpos)
  have hperm := filterMap_eraseIdx_perm (f := page.pending) hpos
  have hsplit (hticket : sender.ticketNumber = some page.ticket) :
      (s.server.handlers.filterMap page.pending : Multiset Int) =
        comment.commentId ::ₘ ((s.server.handlers.eraseIdx position).filterMap page.pending) := by
    rw [Multiset.cons_coe, Multiset.coe_eq_coe]
    refine hperm.trans (List.Perm.of_eq ?_)
    simp only [ReviewPage.pending, hticket, if_true]
    rfl
  by_cases hears : ∃ room, sender.getRoomIdentifier = .ok room ∧ page.Hears s.server room
  · obtain ⟨room, hroom, hears⟩ := hears
    have hticket := h.ticketNumber_of_hears hroom hears
    have hdelivered : (deliveries s.server (.resume position)).filterMap page.insertedComment =
        [comment] := by
      rw [hemit room hroom]
      exact emit_heard h hsender hears
    have hkeeps : page.KeepsEmitted s (.resume position) := by
      intro sender' comment' hemitting' _ hnot
      obtain ⟨rfl, rfl⟩ := Prod.mk.inj (Option.some.inj (hemitting.symm.trans hemitting'))
      exact absurd hears (hnot room hroom)
    refine .event (.announce comment.commentId true) ?_
      (iff_of_true hkeeps fun _ hfalse => absurd hfalse (by decide))
    simp only [Feed.step, ReviewPage.toFeed, ReviewPage.serve, hdelivered, hstep, hsplit hticket,
      Multiset.mem_cons_self, Multiset.erase_cons_head, if_true, Feed.State.mk.injEq, List.map_append,
      List.map_singleton, and_self, and_true, true_and]
    exact Multiset.coe_eq_coe.2 (List.perm_append_singleton _ _)
  · have hdelivered : (deliveries s.server (.resume position)).filterMap page.insertedComment =
        [] := by
      cases hroom : sender.getRoomIdentifier with
      | ok room =>
        rw [hemit room hroom]
        exact emit_unheard fun hroom' => hears ⟨room, hroom, hroom'⟩
      | error e => rw [hlost e hroom, List.filterMap_nil]
    by_cases hticket : sender.ticketNumber = some page.ticket
    · refine .event (.announce comment.commentId false) ?_ ⟨fun hkeeps _ _ => ?_, fun hkeeps => ?_⟩
      · simp only [Feed.step, ReviewPage.toFeed, ReviewPage.serve, hdelivered, hstep,
          hsplit hticket, Multiset.mem_cons_self, Multiset.erase_cons_head, if_true,
          Bool.false_eq_true, if_false, List.append_nil]
      · exact (has_iff comment).1 (hkeeps sender comment hemitting hticket
          fun room hroom hroom' => hears ⟨room, hroom, hroom'⟩)
      · intro sender' comment' hemitting' _ _
        obtain ⟨rfl, rfl⟩ := Prod.mk.inj (Option.some.inj (hemitting.symm.trans hemitting'))
        have hmem : comment.commentId ∈ (page.toFeed s).unannounced := by
          simp only [ReviewPage.toFeed, hsplit hticket]
          exact Multiset.mem_cons_self _ _
        exact (has_iff comment).2 (hkeeps hmem rfl)
    · have hpending : page.pending
          ⟨sender, message, some (.ok ⟨.commentArgumentCreate comment, job⟩)⟩ = none := by
        simp only [ReviewPage.pending, hticket, if_false]
      refine simulates_resume_idle hpos hpending hdelivered (by rw [hstep]) (by rw [hstep]) ?_
      intro sender' comment' hemitting' hticket'
      obtain ⟨rfl, rfl⟩ := Prod.mk.inj (Option.some.inj (hemitting.symm.trans hemitting'))
      exact absurd hticket' hticket

theorem keepsEmitted_of_none {l : ReviewStep} (h : ReviewPage.emitting s.server l = none) :
    page.KeepsEmitted s l := by
  intro sender comment hemitting
  rw [h] at hemitting
  cases hemitting

theorem simulates_resume (h : page.WellFormed s.server) (position : Nat) :
    page.Simulates s (page.serve s (.resume position)) (page.KeepsEmitted s (.resume position)) := by
  rcases hpos : s.server.handlers[position]? with _ | ⟨sender, message, _ | e | ⟨event, job⟩⟩
  · refine .idle ?_ (keepsEmitted_of_none (by simp only [ReviewPage.emitting, hpos]))
    simp [ReviewPage.serve, reviewStep, deliveries, hpos]
  · refine .idle ?_ (keepsEmitted_of_none (by simp only [ReviewPage.emitting, hpos]))
    simp [ReviewPage.serve, reviewStep, deliveries, hpos]
  · refine simulates_resume_idle hpos rfl ?_ ?_ ?_
      (keepsEmitted_of_none (by simp only [ReviewPage.emitting, hpos]))
    · simp only [deliveries, hpos, List.filterMap_nil]
    · simp only [reviewStep, hpos, removeUserFromRoom_handlers]
    · simp only [reviewStep, hpos, removeUserFromRoom_db]
  · by_cases hevent : ∃ comment, event = .commentArgumentCreate comment
    · obtain ⟨comment, rfl⟩ := hevent
      exact simulates_resume_comment h hpos
    · -- an event of another kind is not for the page's list
      have hpending : page.pending ⟨sender, message, some (.ok ⟨event, job⟩)⟩ = none := by
        cases event with
        | commentArgumentCreate comment => exact absurd ⟨comment, rfl⟩ hevent
        | _ => rfl
      have hignored : ∀ room receiver, page.insertedComment (.event room receiver event) = none := by
        intro room receiver
        cases event with
        | commentArgumentCreate comment => exact absurd ⟨comment, rfl⟩ hevent
        | _ => rfl
      refine simulates_resume_idle hpos hpending ?_ ?_ ?_ (keepsEmitted_of_none ?_)
      · simp only [deliveries, hpos]
        split
        · rw [ReviewState.emit, List.filterMap_map, List.filterMap_eq_nil_iff]
          exact fun socket _ => hignored _ _
        · rfl
      · simp only [reviewStep, hpos]
      · simp only [reviewStep, hpos]
      · cases event with
        | commentArgumentCreate comment => exact absurd ⟨comment, rfl⟩ hevent
        | _ => simp only [ReviewPage.emitting, hpos]

/-- A step that neither executes nor resumes a handler delivers nothing. -/
theorem simulates_serve (h : page.WellFormed s.server) {l : ReviewStep} (hl : page.Allows l) :
    page.Simulates s (page.serve s l) (page.KeepsEmitted s l) := by
  have hidle (hdb : (reviewStep s.server l).db = s.server.db)
      (hpending : (reviewStep s.server l).handlers.filterMap page.pending =
        s.server.handlers.filterMap page.pending)
      (hdelivered : deliveries s.server l = [])
      (hemitting : ReviewPage.emitting s.server l = none) :
      page.Simulates s (page.serve s l) (page.KeepsEmitted s l) :=
    .idle (toFeed_congr hdb hpending (by simp [ReviewPage.serve, hdelivered]) rfl rfl)
      (keepsEmitted_of_none hemitting)
  cases l with
  | connect socketId ticketId =>
    refine hidle ?_ ?_ rfl rfl <;> simp only [reviewStep] <;> split <;> rfl
  | handleConnection socketId user => exact hidle rfl rfl rfl rfl
  | disconnect socketId => exact hidle rfl rfl rfl rfl
  | message socketId message =>
    refine hidle ?_ ?_ rfl rfl <;> simp only [reviewStep] <;> split
    · rfl
    · rfl
    · rfl
    · rw [List.filterMap_append]
      exact List.append_nil _
  | execute now position => exact simulates_execute h now position
  | resume position => exact simulates_resume h position
  | call c => exact absurd hl (by simp [ReviewPage.Allows, ReviewStep.OfOthers])
  | getTicketComments ticketId user =>
    exact absurd hl (by simp [ReviewPage.Allows, ReviewStep.OfOthers])

theorem ReviewPage.Simulates.congr {s' : PageState} {keeps keeps' : Prop}
    (h : page.Simulates s s' keeps) (hiff : keeps ↔ keeps') : page.Simulates s s' keeps' := by
  cases h with
  | idle heq hkeeps => exact .idle heq (hiff.1 hkeeps)
  | event e heq hkeeps => exact .event e heq (hiff.symm.trans hkeeps)

/-- The page is answered with the comments of its ticket. -/
theorem ReviewPage.WellFormed.listing (h : page.WellFormed s.server) :
    ∃ comments, CommentController.getTicketComments page.ticketId page.user s.server.db =
        .ok comments ∧
      (comments.map Comment.commentId).Perm (page.stored s.server.db) := by
  obtain ⟨comments, hok, hperm⟩ := getTicketComments_perm h.ticket h.commenter h.participant
  refine ⟨comments, ?_, hperm⟩
  simp only [CommentController.getTicketComments, page.parses, hok]

/-- **The page refines the feed.** -/
theorem simulates_step (h : page.WellFormed s.server) (l : PageStep page) :
    page.Simulates s (page.step s l) (page.Keeps s l) := by
  cases l with
  | others l hl => exact simulates_serve h (Or.inl hl)
  | connect =>
    exact (simulates_serve h (Or.inr (Or.inl rfl))).congr
      (iff_of_true (keepsEmitted_of_none rfl) trivial)
  | handleConnection =>
    exact (simulates_serve h (Or.inr (Or.inr rfl))).congr
      (iff_of_true (keepsEmitted_of_none rfl) trivial)
  | getTicketComments =>
    obtain ⟨comments, hok, hperm⟩ := h.listing
    simp only [ReviewPage.step, hok]
    cases hf : s.fetch with
    | asked =>
      refine .event .read ?_ (iff_of_true trivial trivial)
      simp only [Feed.step, ReviewPage.toFeed, hf, Fetch.map, Multiset.coe_eq_coe.2 hperm]
    | _ => exact .idle rfl trivial
  | setComments =>
    simp only [ReviewPage.step]
    cases hf : s.fetch with
    | answered comments =>
      refine .event .load ?_ (iff_of_true trivial trivial)
      simp only [Feed.step, ReviewPage.toFeed, hf, Fetch.map]
    | _ => exact .idle rfl trivial
  | commentCreated =>
    simp only [ReviewPage.step, ReviewPage.Keeps]
    cases hinbox : s.inbox with
    | nil => exact .idle rfl fun comment hcomment => by cases hcomment
    | cons comment inbox =>
      have hqueue : (page.toFeed s).queue =
          comment.commentId ::ₘ (inbox.map Comment.commentId : Multiset Int) := by
        simp only [ReviewPage.toFeed, hinbox, List.map_cons, Multiset.cons_coe]
      refine .event (.receive comment.commentId) ?_ ?_
      · simp only [Feed.step, hqueue, Multiset.mem_cons_self, Multiset.erase_cons_head, if_true]
        simp only [ReviewPage.toFeed, Feed.State.mk.injEq, List.map_append, List.map_singleton,
          true_and]
        exact Multiset.coe_eq_coe.2 (List.perm_append_singleton _ _)
      · simp only [List.head?_cons, Option.mem_some_iff, forall_eq', Feed.Keeps, hqueue,
          Multiset.mem_cons_self, forall_true_left]
        exact receives_iff comment

/-! ## Every comment once -/

/-- What holds of the page and of its feed in every state. -/
structure ReviewPage.Sound (page : ReviewPage) (s : PageState) : Prop where
  wellFormed : page.WellFormed s.server
  feed : (page.toFeed s).Sound

theorem wellFormed_start (hdb : db.Reachable)
    (hpart : db.Participant page.ticket page.user.id) :
    page.WellFormed (PageState.start db).server := by
  have hpage := hpart
  obtain ⟨t, ht, hw⟩ := hpart
  have hticket := hdb.stored.ticket_id t ht
  rw [(participantWhere_holds.1 hw).1] at hticket
  exact ⟨hticket, hdb.commenter, hpage, List.nodup_nil, fun _ h => absurd h List.not_mem_nil,
    fun _ h => absurd h List.not_mem_nil, fun _ h => absurd h List.not_mem_nil⟩

theorem nodup_stored (db : Database) : (page.stored db).Nodup :=
  db.ticketComments.nodup.sublist (List.filter_sublist.map _)

theorem sound_start (hdb : db.Reachable) (hpart : db.Participant page.ticket page.user.id) :
    page.Sound (PageState.start db) :=
  ⟨wellFormed_start hdb hpart, sound_init (Multiset.coe_nodup.2 (nodup_stored db))⟩

theorem sound_pageStep (s : PageState) (l : PageStep page) (h : page.Sound s) :
    page.Sound (page.step s l) where
  wellFormed := by
    cases l with
    | others l hl => exact h.wellFormed.step (Or.inl hl)
    | connect => exact h.wellFormed.step (Or.inr (Or.inl rfl))
    | handleConnection => exact h.wellFormed.step (Or.inr (Or.inr rfl))
    | _ =>
      simp only [ReviewPage.step]
      split <;> exact h.wellFormed
  feed := by
    cases simulates_step h.wellFormed l with
    | idle heq _ => exact heq ▸ h.feed
    | event e heq _ => exact heq ▸ sound_step h.feed e

theorem onTrack_pageStep_iff (s : PageState) (l : PageStep page) (h : page.Sound s) :
    (page.toFeed (page.step s l)).OnTrack ↔ (page.toFeed s).OnTrack ∧ page.Keeps s l := by
  cases simulates_step h.wellFormed l with
  | idle heq hkeeps => rw [heq, and_iff_left hkeeps]
  | event e heq hkeeps => rw [heq, onTrack_step_iff h.feed, hkeeps]

theorem ReviewPage.Quiet.showsOnce_iff (h : page.Quiet s) :
    page.ShowsOnce s ↔ (page.toFeed s).OnTrack := by
  have hquiet : (page.toFeed s).Quiet := by
    refine ⟨?_, ?_, ?_⟩ <;>
      simp [ReviewPage.toFeed, h.fetch, h.handlers, h.inbox, Fetch.map]
  rw [hquiet.onTrack_iff]
  simp only [ReviewPage.ShowsOnce, State.ShownOnce, ReviewPage.toFeed, ReviewPage.stored,
    Multiset.mem_coe, Multiset.coe_count, List.forall_mem_map, List.mem_filter, decide_eq_true_eq,
    and_imp]

/-- **Every comment once.** In a run of the page after which nothing is on its way, its list has
    every comment of the ticket exactly once if and only if no step loses or repeats one. -/
theorem comments_shown_once_iff (page : ReviewPage) {db : Database} (hdb : db.Reachable)
    (hpart : db.Participant page.ticket page.user.id) (ls : List (PageStep page))
    (hquiet : page.Quiet (run page.step (PageState.start db) ls)) :
    page.ShowsOnce (run page.step (PageState.start db) ls) ↔
      ∀ p ∈ steps page.step (PageState.start db) ls, page.Keeps p.1 p.2 := by
  have hrun := run_iff_steps (I := fun s => (page.toFeed s).OnTrack) sound_pageStep
    onTrack_pageStep_iff (sound_start hdb hpart) ls
  rw [hquiet.showsOnce_iff, hrun]
  exact and_iff_right trivial

/-- The user proposes an argument, and moderator one takes its ticket 2. -/
def argumentInReview : Database :=
  run step (Database.empty id)
    (createUsers ++ [proposeDebate, .createArgument 2 ⟨testUser, .int 1, sampleArgument "Argument"⟩,
      .updateTicket ⟨moderatorOne.id, 2, "IN REVIEW"⟩])

/-- The page of the user. -/
def samplePage : ReviewPage := ⟨7, "2", 2, testUser, by decide +kernel⟩

/-- The moderator's socket and that of the page join the room. -/
def bothJoin : List (PageStep samplePage) :=
  [.others (.connect 8 (some "2")) (by decide),
    .others (.handleConnection 8 moderatorOne) (by decide), .connect, .handleConnection]

/-- The moderator sends a comment, which is stored and emitted. -/
def moderatorComments : List (PageStep samplePage) :=
  [.others (.message 8 (.commentArgumentCreate ⟨"Sources?", .int 1, .int 2, "", ""⟩)) (by decide),
    .others (.execute 3 0) (by decide), .others (.resume 0) (by decide)]

/-- The comment comes when the response is there. -/
def commentAfterResponse : List (PageStep samplePage) :=
  bothJoin ++ [.getTicketComments, .setComments] ++ moderatorComments ++ [.commentCreated]

theorem comments_shown_once_sample :
    samplePage.ShowsOnce (run samplePage.step (PageState.start argumentInReview)
        commentAfterResponse) ∧
      ∀ p ∈ steps samplePage.step (PageState.start argumentInReview) commentAfterResponse,
        samplePage.Keeps p.1 p.2 := by
  have hshows : samplePage.ShowsOnce (run samplePage.step (PageState.start argumentInReview)
      commentAfterResponse) := by decide +kernel
  have hquiet : samplePage.Quiet (run samplePage.step (PageState.start argumentInReview)
      commentAfterResponse) :=
    ⟨by decide +kernel, by decide +kernel, by decide +kernel, by decide +kernel⟩
  exact ⟨hshows, (comments_shown_once_iff samplePage (Database.reachable_run id _)
    (by decide +kernel) _ hquiet).1 hshows⟩

/-- The comment comes between the snapshot and the response, and the response overwrites it. -/
def commentBeforeResponse : List (PageStep samplePage) :=
  bothJoin ++ [.getTicketComments] ++ moderatorComments ++ [.commentCreated, .setComments]

theorem comment_lost_before_response :
    ¬ ∀ (page : ReviewPage) (db : Database), db.Reachable →
      db.Participant page.ticket page.user.id → ∀ ls : List (PageStep page),
        page.Quiet (run page.step (PageState.start db) ls) →
          page.ShowsOnce (run page.step (PageState.start db) ls) := by
  intro h
  have hquiet : samplePage.Quiet (run samplePage.step (PageState.start argumentInReview)
      commentBeforeResponse) :=
    ⟨by decide +kernel, by decide +kernel, by decide +kernel, by decide +kernel⟩
  exact absurd (h samplePage argumentInReview (Database.reachable_run id _) (by decide +kernel)
    commentBeforeResponse hquiet) (by decide +kernel)

end DecentDebates

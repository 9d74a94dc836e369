import DecentDebates.ReviewScreens
import DecentDebates.Proofs.DraftPrivacy
import DecentDebates.Proofs.ReviewMessages

set_option autoImplicit false

/-! # When moderators publish what they were shown

Every text on its way to a screen, or on one, is a view of the texts in the database
(`Snapshot.View.Sound`): an answer is read from them, and an announcement that is counted as one of
the ticket's text tells what its edit has stored. -/

namespace DecentDebates

open Relational Transition Snapshot

variable {db db' : Database}

/-! ## The text of a ticket -/

theorem textOf_eq (hL : db.Linked) {a : ArgumentRow} (ha : a ∈ db.arguments.rows) {k : Int}
    (hk : a.ticketId = some k) : db.textOf k = some (a.title, a.content) := by
  unfold Database.textOf
  cases h : db.arguments.rows.find? fun a => a.ticketId = some k with
  | none => exact absurd hk (by simpa using List.find?_eq_none.1 h a ha)
  | some a' =>
    have hk' : a'.ticketId = some k := by simpa using List.find?_some h
    rw [hL.eq_of_ticketId ha (List.mem_of_find?_eq_some h) hk hk', Option.map_some]

theorem text_of_getDebateArgumentAsModerator (hL : db.Linked) {debateId argumentId : JsNumber}
    {rows : List DebateArgument} (h : getDebateArgumentAsModerator debateId argumentId db = .ok rows)
    {r : DebateArgument} (hr : r ∈ rows) {k : Int} (hk : r.ticketId = some k) :
    db.textOf k = some (r.ticketTitle.getD "", r.content.getD "") := by
  unfold getDebateArgumentAsModerator at h
  split at h
  · cases h
    obtain ⟨⟨⟨⟨a, t⟩, d⟩, u⟩, hjoined, rfl⟩ := List.mem_map.1 hr
    have ha : a ∈ db.arguments.rows :=
      (mem_innerJoin.1 (mem_innerJoin.1 (mem_innerJoin.1 (mem_selectWhere.1 hjoined).1).1).1).1
    exact textOf_eq hL ha hk
  · cases h

theorem text_of_getArgumentAsModerator (hL : db.Linked) {user : UserCookieData}
    {ticketId : JsNumber} {r : ArgumentAsModerator}
    (h : getArgumentAsModerator user ticketId db = .ok (some r)) :
    db.textOf r.ticketId = some (r.argumentTitle, r.argumentContent) := by
  unfold getArgumentAsModerator at h
  split at h
  · cases h
  · have hr := List.mem_of_mem_head? (Option.mem_def.2 (Except.ok.inj h))
    obtain ⟨⟨⟨⟨⟨t, a⟩, d⟩, u⟩, c⟩, hjoined, rfl⟩ := List.mem_map.1 hr
    have hpair := mem_of_mem_leftJoin (mem_selectWhere.1 hjoined).1
    obtain ⟨-, ha, hon⟩ := mem_innerJoin.1 (mem_innerJoin.1 (mem_innerJoin.1 hpair).1).1
    have hk : a.ticketId = some t.id := by simpa using hon
    exact textOf_eq hL ha hk

/-! ## What an announced edit has stored -/

theorem handleArgumentUpdate_text {sender : Socket} {payload : ArgumentReviewUpdated}
    {data : UpdateReviewArgumentData} {job : Option NotificationJobPayload}
    (h : (handleArgumentUpdate sender payload db).result = .ok ⟨.argumentUpdate data, job⟩)
    {a : ArgumentRow} (ha : a ∈ (handleArgumentUpdate sender payload db).db.arguments.rows)
    (hid : data.argumentId = some (.int a.id)) (hlen : (data.title.getD "").length ≤ 80) :
    a.title = data.title.getD "" ∧ a.content = data.content.getD "" := by
  unfold handleArgumentUpdate at h ha
  cases hdata : updateArgumentDataOf sender payload with
  | error e => simp [hdata] at h
  | ok q =>
    obtain ⟨data', d⟩ := q
    obtain ⟨-, -, hargumentId, htexts⟩ := updateArgumentDataOf_ok hdata
    simp only [hdata, updated_db] at h ha
    obtain ⟨hresult, n, hres, hn⟩ := updated_ok h
    cases hresult
    obtain ⟨given, title, content, argumentId, hgiven, htitle, hcontent, -, hint4, rfl, hdb⟩ :=
      (updateArgumentSql_eq_ok_of_ne_zero hn).1 (updateArgument_ok hres)
    -- the row that was updated has the announced id, so it is this one
    obtain ⟨r, hr, hwhere⟩ := List.countP_pos_iff.1 (Nat.pos_of_ne_zero hn)
    obtain ⟨t, -, ht⟩ := List.any_eq_true.1 hwhere
    have hra : r.id = a.id := by
      have hrid := (updateArgumentWhere_holds.1 ht).1
      rw [hid, Option.some.injEq] at hargumentId
      rw [← hargumentId, int4_int] at hint4
      exact hrid.trans hint4.2.symm
    rw [hdb] at ha
    have hupdated : { r with title := title, content := content } ∈ (db.arguments.updateWhere
        (fun a => db.tickets.rows.any fun t =>
          (updateArgumentWhere argumentId d.user.id a t).holds)
        fun a => { a with title := title, content := content }).rows :=
      SerialTable.updateWhere_mem hr hwhere
    have hstored := SerialTable.eq_of_rowId_eq ha hupdated hra.symm
    simp only [htexts] at hgiven hcontent
    rw [hgiven, Option.getD_some] at hlen
    have hself : title = given := by
      unfold varchar at htitle
      rw [if_pos hlen] at htitle
      split at htitle
      · cases htitle
      · exact (Except.ok.inj htitle).symm
    rw [hstored, hgiven, hcontent]
    exact ⟨hself, rfl⟩

/-! ## The invariant -/

theorem linked_handleArgumentUpdate (hL : db.Linked) (sender : Socket)
    (payload : ArgumentReviewUpdated) : (handleArgumentUpdate sender payload db).db.Linked := by
  rcases handle_db 0 sender (.argumentUpdate payload) db with h | ⟨c, -, h⟩
  · exact (congrArg Database.Linked h).mpr hL
  · exact (congrArg Database.Linked h).mpr (linked_step db c hL)

namespace ScreenState

/-- Whatever is on its way or on a screen is a view of the texts. -/
structure Faithful (s : ScreenState) : Prop where
  linked : s.db.Linked
  announcements : ∀ v ∈ s.announcements, v.Sound s.db.textOf s.changes
  inFlight : ∀ q ∈ s.inFlight, q.2.Sound s.db.textOf s.changes
  shown : ∀ u k v, s.shown u k = some v → v.key = k ∧ v.Sound s.db.textOf s.changes

variable {s : ScreenState}

theorem Faithful.setDb (h : s.Faithful) (hL : db.Linked) : (s.setDb db).Faithful where
  linked := hL
  announcements := fun v hv => (h.announcements v hv).count _
  inFlight := fun q hq => (h.inFlight q hq).count _
  shown := fun u k v hv => ⟨(h.shown u k v hv).1, (h.shown u k v hv).2.count _⟩

theorem Faithful.send (h : s.Faithful) {userId : Int} {v : ArgumentView}
    (hv : v.Sound s.db.textOf s.changes) : (s.send userId v).Faithful where
  linked := h.linked
  announcements := h.announcements
  inFlight := by
    intro q hq
    rcases List.mem_append.1 hq with hq | hq
    · exact h.inFlight q hq
    · rw [List.mem_singleton.1 hq]
      exact hv
  shown := h.shown

/-- An answer is read from the texts. -/
theorem sound_answer {ticketId : Int} {text : String × String}
    (h : s.db.textOf ticketId = some text) :
    View.Sound s.db.textOf s.changes ⟨ticketId, some text, some (s.changes ticketId)⟩ := by
  rw [← h]
  exact sound_read _ _ _

theorem Faithful.handleArgumentUpdate (h : s.Faithful) (sender : Socket)
    (payload : ArgumentReviewUpdated) : (s.handleArgumentUpdate sender payload).Faithful := by
  have hnext := h.setDb (linked_handleArgumentUpdate h.linked sender payload)
  simp only [ScreenState.handleArgumentUpdate]
  split
  · next data job ticketId hresult _ =>
    refine { hnext with announcements := fun v hv => ?_ }
    rcases List.mem_append.1 hv with hv | hv
    · exact hnext.announcements v hv
    · rw [List.mem_singleton.1 hv]
      unfold ScreenState.announcement
      split
      · next hannounces =>
        obtain ⟨⟨a, ha, hk, hid⟩, hlen⟩ := hannounces
        obtain ⟨htitle, hcontent⟩ := handleArgumentUpdate_text hresult ha hid hlen
        rw [← htitle, ← hcontent]
        exact sound_answer (textOf_eq hnext.linked ha hk)
      · exact nofun
  · exact hnext

theorem Faithful.next (h : s.Faithful) (e : ScreenEvent) : (screenStep s e).Faithful := by
  cases e with
  | call c => exact h.setDb (linked_step s.db c h.linked)
  | handleArgumentUpdate sender payload => exact h.handleArgumentUpdate sender payload
  | emit position receivers =>
    simp only [screenStep]
    split
    · next v hv =>
      have hsound := h.announcements v (List.mem_of_getElem? hv)
      refine ⟨h.linked, fun w hw => h.announcements w (List.mem_of_mem_eraseIdx hw),
        fun q hq => ?_, h.shown⟩
      rcases List.mem_append.1 hq with hq | hq
      · exact h.inFlight q hq
      · obtain ⟨userId, -, rfl⟩ := List.mem_map.1 hq
        exact hsound
    · exact h
  | getDebateArgumentAsModerator user debateId argumentId =>
    simp only [screenStep]
    split
    · next r rest hrows =>
      split
      · next v hv =>
        obtain ⟨k, hk, rfl⟩ := Option.map_eq_some_iff.1 hv
        exact h.send (sound_answer
          (text_of_getDebateArgumentAsModerator h.linked hrows List.mem_cons_self hk))
      · exact h
    · exact h
  | getArgumentAsModerator user ticketId =>
    simp only [screenStep]
    split
    · next r hr => exact h.send (sound_answer (text_of_getArgumentAsModerator h.linked hr))
    · exact h
  | receive position =>
    simp only [screenStep]
    split
    · next userId v hv =>
      refine ⟨h.linked, h.announcements,
        fun q hq => h.inFlight q (List.mem_of_mem_eraseIdx hq), fun u k w hw => ?_⟩
      simp only at hw
      split at hw
      · next hkey =>
        cases hw
        exact ⟨hkey.2.symm, h.inFlight _ (List.mem_of_getElem? hv)⟩
      · exact h.shown u k w hw
    · exact h
  | lose position =>
    exact ⟨h.linked, h.announcements, fun q hq => h.inFlight q (List.mem_of_mem_eraseIdx hq),
      h.shown⟩

theorem faithful_init (lower : String → String) : (init lower).Faithful where
  linked := Database.Linked.empty lower
  announcements := nofun
  inFlight := nofun
  shown := nofun

end ScreenState

/-! ## Approvals -/

/-- An approval publishes the argument of its ticket. -/
theorem PublishesArgument.ticketId {p : ScreenState × ScreenEvent} {user : UserCookieData}
    {ticketId : Int} {a : ArgumentRow} (h : PublishesArgument p user ticketId a) :
    a.ticketId = some ticketId := by
  obtain ⟨s, e⟩ := p
  obtain ⟨rfl, -, hunpublished, k, hk, t', ht', rfl, hacc⟩ := h
  rcases (step_effect s.db (.approveTicket user ticketId)).ticket_prev ht' with
    ⟨t, ht, hchange⟩ | hnew
  · have hid := hchange.id
    cases hchange with
    | same => exact absurd ⟨t'.id, hk, t', ht, rfl, hacc⟩ hunpublished
    | approved hwhere => exact hk.trans (congrArg some (approveTicketWhere_holds.1 hwhere).1)
  · rw [hnew.boardList] at hacc
    cases hacc

/-- **Moderators publish what they were shown as long as it is up to date**: in every run, an
    approval of a text that has not changed since the moderator's last view of it publishes the
    title and the content of that view. -/
theorem publishes_what_was_shown (lower : String → String) (events : List ScreenEvent) :
    ∀ p ∈ steps screenStep (ScreenState.init lower) events, ShownUpToDate p → PublishesWhatWasShown p := by
  intro p hp hupToDate user ticketId a hpublishes
  have hfaithful := steps_invariant (I := ScreenState.Faithful) (fun _ e h => h.next e)
    (ScreenState.faithful_init lower) events p hp
  obtain ⟨v, hshown, hversion⟩ := hupToDate user ticketId a hpublishes
  obtain ⟨rfl, hsound⟩ := hfaithful.shown user.id ticketId v hshown
  refine ⟨v, hshown, ?_⟩
  rw [hsound.value_eq hversion]
  exact textOf_eq hfaithful.linked hpublishes.argument hpublishes.ticketId

/-- The user proposes an argument, and a moderator takes its ticket and reads it. -/
def readsArgument : List ScreenEvent :=
  createUsers.map .call ++ [.call proposeDebate,
    .call (.createArgument 2 ⟨testUser, .int 1, sampleArgument "Argument"⟩),
    .call (.updateTicket ⟨moderatorOne.id, 2, "IN REVIEW"⟩),
    .getDebateArgumentAsModerator moderatorOne (.int 1) (.int 1), .receive 0]

/-- The user edits the argument on the page of its ticket. -/
def editsArgument : ScreenEvent :=
  .handleArgumentUpdate ⟨7, some "2", some testUser, [reviewRoom "2"]⟩
    ⟨some ⟨some (.int 1), some "Edited", some "Because not."⟩, .int 2, "", "", .int 1, .int 2⟩

def approvesArgument : ScreenEvent := .call (.approveTicket moderatorOne 2)

/-- The moderator is on the page as well and hears of the edit. -/
def hearsOfEdit : List ScreenEvent :=
  readsArgument ++ [editsArgument, .emit 0 [moderatorOne.id], .receive 0]

theorem publishes_what_was_shown_heard :
    (run screenStep (ScreenState.init id) hearsOfEdit).shown moderatorOne.id 2
        = some ⟨2, some ("Edited", "Because not."), some 2⟩ ∧
      PublishesWhatWasShown (run screenStep (ScreenState.init id) hearsOfEdit, approvesArgument) := by
  refine ⟨by decide +kernel, publishes_what_was_shown id (hearsOfEdit ++ [approvesArgument]) _
    (last_mem_steps _ _ _) ?_⟩
  rintro user ticketId a ⟨happroves, -, -, -⟩
  cases happroves
  exact ⟨⟨2, some ("Edited", "Because not."), some 2⟩, by decide +kernel, by decide +kernel⟩

/-- The argument as it is published. -/
def editedArgument : ArgumentRow :=
  ⟨1, 1, some 2, "Edited", "Because not.", none, 1, 2, some .pro, some false⟩

/-- An edit after the moderator has read the argument is published unseen: nobody hears of it in the
    room, or the announcement is late. -/
theorem publishes_unseen {announced : List Int} (h : announced ∈ [[], [moderatorOne.id]]) :
    ∃ p ∈ steps screenStep (ScreenState.init id)
      (readsArgument ++ [editsArgument, .emit 0 announced] ++ [approvesArgument]),
      ¬ PublishesWhatWasShown p := by
  refine ⟨_, last_mem_steps _ _ _, fun hshown => ?_⟩
  generalize hs : run screenStep (ScreenState.init id)
    (readsArgument ++ [editsArgument, .emit 0 announced]) = s at hshown
  have hfacts : editedArgument ∈ s.db.arguments.rows ∧ ¬ s.db.OnBoard 2 .accepted ∧
      (screenStep s approvesArgument).db.OnBoard 2 .accepted ∧
      s.shown moderatorOne.id 2 = some ⟨2, some ("Argument", "Because."), some 1⟩ := by
    rw [← hs]
    rcases List.mem_pair.1 h with rfl | rfl <;> decide +kernel
  obtain ⟨hmem, hunpublished, hpublished, hview⟩ := hfacts
  obtain ⟨v, hv, hvalue⟩ := hshown moderatorOne 2 editedArgument
    ⟨rfl, hmem, fun ⟨k, hk, hon⟩ => hunpublished (Option.some.inj hk ▸ hon), 2, rfl, hpublished⟩
  cases hview.symm.trans hv
  exact absurd hvalue (by decide)

theorem not_publishes_what_was_shown :
    ¬ ∀ events : List ScreenEvent, ∀ p ∈ steps screenStep (ScreenState.init id) events,
      PublishesWhatWasShown p := by
  intro h
  obtain ⟨p, hp, hnot⟩ := publishes_unseen (List.mem_cons_of_mem _ (List.mem_singleton_self _))
  exact hnot (h _ p hp)

end DecentDebates

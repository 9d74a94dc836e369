import DecentDebates.Proofs.NotificationSystem

set_option autoImplicit false

/-! # Live increments against inserted rows

Three rules decide who hears of a job: the worker's `insert … select`, the message it publishes, and
the filter of a count stream. They agree: a stream is incremented exactly when its user has got a
row. -/

namespace DecentDebates

open Relational Transition

/-- The users a job is addressed to. -/
def NotificationJobData.AddressedTo (data : NotificationJobData) (db : Database) (userId : Int) :
    Prop :=
  match data with
  | .genericModerator .. => ∃ u ∈ db.users.rows, u.id = userId ∧ u.role = some .moderator
  | .ticketParticipant _ _ _ recipientId => recipientId = .int userId

instance (data : NotificationJobData) (db : Database) (userId : Int) :
    Decidable (data.AddressedTo db userId) := by
  cases data with
  | genericModerator => exact inferInstanceAs (Decidable (∃ u ∈ db.users.rows, _))
  | ticketParticipant _ _ _ recipientId =>
    exact inferInstanceAs (Decidable (recipientId = .int userId))

theorem mem_recipients {data : NotificationJobData} {db : Database} {userId : Int} :
    userId ∈ data.recipients db ↔ data.AddressedTo db userId := by
  cases data with
  | genericModerator =>
    simp only [NotificationJobData.recipients, NotificationJobData.AddressedTo, List.mem_map,
      mem_moderators]
    constructor
    · rintro ⟨u, ⟨hu, hrole⟩, hid⟩
      exact ⟨u, hu, hid, hrole⟩
    · rintro ⟨u, hu, hid, hrole⟩
      exact ⟨u, ⟨hu, hrole⟩, hid⟩
  | ticketParticipant _ _ _ recipientId =>
    cases recipientId with
    | int n =>
      rw [NotificationJobData.recipients, NotificationJobData.AddressedTo, List.mem_singleton,
        JsNumber.int.injEq]
      exact eq_comm
    | other => simp [NotificationJobData.recipients, NotificationJobData.AddressedTo]

namespace NotificationState

/-- A stream keeps its position and its user through a run. -/
theorem run_stream {s : NotificationState} {i : Nat} {st : CountStream}
    (hst : s.streams[i]? = some st) (events : List NotificationEvent) :
    ∃ st', (run step s events).streams[i]? = some st' ∧ st'.user = st.user := by
  induction events generalizing s st with
  | nil => exact ⟨st, hst, rfl⟩
  | cons e events ih =>
    obtain ⟨st', hst', huser⟩ := ih (step_stream hst e)
    exact ⟨st', hst', huser.trans (user_streamStep s i e st)⟩

/-- **Pushes go to exactly the recipients.** A job that is handled gives one row to each of the
    users it is addressed to. When its message arrives, whatever has happened in between, a stream
    that was there before is incremented if and only if its user has got a row. -/
theorem pushes_match_inserts {s : NotificationState} (hs : s.Reachable)
    {data : NotificationJobData} {t : NotificationTable}
    (hinsert : NotificationProcessor.insert data s.db s.notifications = .ok t) :
    ∃ news, t.rows = s.notifications.rows ++ news ∧
      (∀ userId, news.countP (fun n => n.recipientId = userId)
        = if data.AddressedTo s.db userId then 1 else 0) ∧
      ∀ (i : Nat) (st : CountStream), s.streams[i]? = some st → ∀ events notice rest,
        (run step (step s (.handle data)) events).channel = notice :: rest →
        notice.msg = NotificationProcessor.message data →
        ∃ st' : CountStream,
          (run step (step s (.handle data)) events).streams[i]? = some st' ∧
          ∀ nextId, st'.phase = .live nextId →
            (step (run step (step s (.handle data)) events) .deliver).streams[i]? = some
              (if ∃ n ∈ news, n.recipientId = st.user.id then
                { st' with emitted := st'.emitted ++ [1] } else st') := by
  obtain ⟨news, hnews⟩ := insert_eq_ok hinsert
  refine ⟨news, hnews.rows, fun userId => ?_, ?_⟩
  · rw [hnews.countP (recipients_nodup data s.db)]
    simp only [mem_recipients]
  · intro i st hst events notice rest hchannel hmsg
    obtain ⟨st', hst', huser⟩ := run_stream (step_stream hst (.handle data)) events
    refine ⟨st', hst', fun nextId hlive => ?_⟩
    have hknows : s.db.Knows st.user := hs.signed.streams st (List.mem_of_getElem? hst)
    have hreach := increments_message hinsert hknows
    have huser' : st'.user = st.user := huser.trans (user_streamStep s i _ st)
    have hrow : (∃ n ∈ news, n.recipientId = st.user.id) ↔ st.user.id ∈ data.recipients s.db := by
      rw [← hnews.recipients, List.mem_map]
    rw [step_stream hst']
    simp only [streamStep, hchannel, hmsg, CountStream.next, hlive, huser']
    by_cases hid : st.user.id ∈ data.recipients s.db
    · rw [if_pos (hreach.2 hid), if_pos (hrow.2 hid)]
    · rw [if_neg (mt hreach.1 hid), if_neg (mt hrow.1 hid)]

/-! ## One moderator at her screen -/

/-- The accounts of the tests, and a moderator with a live stream. -/
def moderatorWatches : NotificationState :=
  run step (empty id) (createUsers.map .call ++
    [.signIn moderatorOne.id, .openStream 0, .snapshot 0, .resolve 0, .subscribe 0])

/-- The job of a new debate. -/
def newDebateJob : NotificationJobData :=
  .genericModerator "New proposed debate!" "<rich-text>" .debate

theorem moderatorWatches_eq : moderatorWatches =
    run step { empty id with db := .withUsers id }
      [.signIn moderatorOne.id, .openStream 0, .snapshot 0, .resolve 0, .subscribe 0] :=
  run_createUsers_append id _

theorem insert_newDebateJob : ∃ t, NotificationProcessor.insert newDebateJob moderatorWatches.db
    moderatorWatches.notifications = .ok t := by
  cases h : NotificationProcessor.insert newDebateJob moderatorWatches.db
      moderatorWatches.notifications with
  | ok t => exact ⟨t, rfl⟩
  | error e =>
    have hok : (NotificationProcessor.insert newDebateJob moderatorWatches.db
        moderatorWatches.notifications).isOk = true := by
      rw [moderatorWatches_eq]
      decide +kernel
    rw [h] at hok
    cases hok

/-- The moderators get a row each, and the stream counts the message. -/
theorem pushes_match_inserts_newDebate : ∃ news : List NotificationRow,
    news.countP (fun n => n.recipientId = moderatorOne.id) = 1 ∧
      news.countP (fun n => n.recipientId = testUser.id) = 0 ∧
      (step (run step (step moderatorWatches (.handle newDebateJob)) [.publish 0 true])
        .deliver).streams[0]? =
          some ⟨moderatorOne, .live 1, [0] ++ [1]⟩ := by
  obtain ⟨t, ht⟩ := insert_newDebateJob
  have hreachable : moderatorWatches.Reachable := ⟨id, _, rfl⟩
  obtain ⟨news, -, hcount, hstream⟩ := pushes_match_inserts hreachable ht
  have hone : news.countP (fun n => n.recipientId = moderatorOne.id) = 1 := by
    rw [hcount, if_pos (by rw [moderatorWatches_eq]; decide +kernel)]
  refine ⟨news, hone, by rw [hcount, if_neg (by rw [moderatorWatches_eq]; decide +kernel)], ?_⟩
  obtain ⟨st', hst', hdeliver⟩ := hstream 0 ⟨moderatorOne, .live 1, [0]⟩
    (by rw [moderatorWatches_eq]; decide +kernel) [.publish 0 true] ⟨.genericModerator, 3⟩ []
    (by rw [moderatorWatches_eq]; decide +kernel) rfl
  have hlive : st' = ⟨moderatorOne, .live 1, [0]⟩ := by
    have h : (run step (step moderatorWatches (.handle newDebateJob))
        [.publish 0 true]).streams[0]? = some ⟨moderatorOne, .live 1, [0]⟩ := by
      rw [moderatorWatches_eq]
      decide +kernel
    exact Option.some.inj (hst'.symm.trans h)
  subst hlive
  rw [hdeliver 1 rfl, if_pos]
  obtain ⟨n, hn, hid⟩ := List.countP_pos_iff.1 (hone ▸ Nat.one_pos)
  exact ⟨n, hn, of_decide_eq_true hid⟩

end NotificationState

end DecentDebates

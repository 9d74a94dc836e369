import DecentDebates.Proofs.NotificationSystem

set_option autoImplicit false

/-! # Nothing is marked as read unseen

A read of the notifications returns rows and leaves the ids of the unread ones to a later update
that asks for nothing but the ids. So what an update marks has to be followed back, over whatever
was inserted or read in between, to the read its ids came from. -/

namespace DecentDebates

open Relational Transition

namespace NotificationState

/-- The step is a read in which the user with this id was shown this notification as unread. -/
def ShowsUnread (p : NotificationState × NotificationEvent) (userId notifId : Int) : Prop :=
  ∃ session user, p.2 = .getNotifications session ∧ p.1.sessions[session]? = some user ∧
    user.id = userId ∧ ∃ n ∈ p.1.getNotifications user, n.id = notifId ∧ n.isRead = some false

/-- Every id that waits to be marked belongs to a row that its recipient was shown as unread, and so
    does every row that is read, but for those in `old`. -/
structure Explained (shown : Int → Int → Prop) (old : Int → Prop) (s : NotificationState) :
    Prop where
  marking : ∀ ids ∈ s.marking, ∀ id ∈ ids,
    ∃ r ∈ s.notifications.rows, r.id = id ∧ shown r.recipientId id
  read : ∀ r ∈ s.notifications.rows, r.isRead = some true → old r.id ∨ shown r.recipientId r.id

theorem mem_getNotifications {s : NotificationState} {user : UserCookieData}
    {n : NotificationRow} :
    n ∈ s.getNotifications user ↔ n ∈ s.notifications.rows ∧ n.recipientId = user.id := by
  rw [getNotifications, NotificationService.getAll, List.mem_mergeSort, mem_selectWhere,
    Truth.holds_eq_some, decide_eq_true_eq, Option.some.injEq]

/-- The ids that wait after a step were waiting before it, or a read has just returned them. -/
theorem step_marking {s : NotificationState} {e : NotificationEvent} {ids : List Int}
    (h : ids ∈ (step s e).marking) :
    ids ∈ s.marking ∨ ∃ session user, e = .getNotifications session ∧
      s.sessions[session]? = some user ∧
        ids = NotificationController.unreadNotifIds (s.getNotifications user) := by
  cases e with
  | getNotifications session =>
    simp only [step] at h
    split at h
    · next user huser =>
      split at h
      · exact Or.inl h
      · rcases List.mem_append.1 h with h | h
        · exact Or.inl h
        · exact Or.inr ⟨session, user, rfl, huser, List.mem_singleton.1 h⟩
    · exact Or.inl h
  | markNotificationsAsRead i succeeds =>
    simp only [step] at h
    split at h
    · split at h
      · exact Or.inl (List.mem_of_mem_eraseIdx h)
      · exact Or.inl (List.mem_of_mem_eraseIdx h)
    · exact Or.inl h
  | call c => exact Or.inl h
  | skipIds n => exact Or.inl h
  | snapshot i => exact Or.inl h
  | resolve i => exact Or.inl h
  | subscribe i => exact Or.inl h
  | disconnect i => exact Or.inl h
  | publish i succeeds =>
    simp only [step] at h
    split at h
    · split at h <;> exact Or.inl h
    · exact Or.inl h
  | signIn userId =>
    simp only [step] at h
    split at h <;> exact Or.inl h
  | handle data =>
    simp only [step] at h
    split at h <;> exact Or.inl h
  | deliver =>
    simp only [step] at h
    split at h <;> exact Or.inl h
  | openStream session =>
    simp only [step] at h
    split at h <;> exact Or.inl h

/-- One step: what a read returns is shown by it, and only ids that wait are marked. -/
theorem Explained.next {shown : Int → Int → Prop} {old : Int → Prop} {s : NotificationState}
    (h : Explained shown old s) (e : NotificationEvent) :
    Explained (fun userId id => shown userId id ∨ ShowsUnread (s, e) userId id) old
      (step s e) where
  marking := by
    intro ids hids id hid
    -- the row is still there, with its recipient
    have hrow : ∃ r ∈ s.notifications.rows, r.id = id ∧
        (shown r.recipientId id ∨ ShowsUnread (s, e) r.recipientId id) := by
      rcases step_marking hids with hids | ⟨session, user, rfl, huser, rfl⟩
      · obtain ⟨r, hr, hrid, hshown⟩ := h.marking ids hids id hid
        exact ⟨r, hr, hrid, Or.inl hshown⟩
      · obtain ⟨n, hn, rfl⟩ := List.mem_map.1 hid
        obtain ⟨hn, hunread⟩ := List.mem_filter.1 hn
        have hmem := mem_getNotifications.1 hn
        exact ⟨n, hmem.1, rfl, Or.inr ⟨session, user, rfl, huser, hmem.2.symm, n, hn, rfl,
          of_decide_eq_true hunread⟩⟩
    obtain ⟨r, hr, rfl, hshown⟩ := hrow
    obtain ⟨r', hr', hid', hrecipient, -⟩ := step_row_next e hr
    exact ⟨r', hr', hid', hrecipient ▸ hshown⟩
  read := by
    intro r' hr' hread
    rcases step_row_prev hr' with ⟨-, hunread⟩ | ⟨r, hr, hid, hrecipient, hsame | ⟨ids, hids, hmem⟩⟩
    · rw [hunread] at hread
      cases hread
    · subst hsame
      exact (h.read r' hr hread).imp_right Or.inl
    · obtain ⟨r₀, hr₀, hid₀, hshown⟩ := h.marking ids hids r.id hmem
      rw [SerialTable.eq_of_rowId_eq hr₀ hr hid₀, hrecipient, hid] at hshown
      exact Or.inr (Or.inl hshown)

/-- **A notification is never marked as read unseen**, and never unread again. `s` is any state in
    which no update is under way; the rows that are read in it may have been inserted so. -/
theorem read_was_shown {s : NotificationState} (hs : s.marking = [])
    (events : List NotificationEvent) :
    (∀ r ∈ (run step s events).notifications.rows, r.isRead = some true →
      (∃ r₀ ∈ s.notifications.rows, r₀.id = r.id ∧ r₀.isRead = some true) ∨
        ∃ p ∈ steps step s events, ShowsUnread p r.recipientId r.id) ∧
    ∀ p ∈ steps step s events, ∀ r ∈ p.1.notifications.rows, r.isRead = some true →
      ∃ r' ∈ (step p.1 p.2).notifications.rows, r'.id = r.id ∧ r'.isRead = some true := by
  have hexplained : Explained
      (fun userId id => ∃ p ∈ steps step s events, ShowsUnread p userId id)
      (fun id => ∃ r₀ ∈ s.notifications.rows, r₀.id = id ∧ r₀.isRead = some true)
      (run step s events) := by
    induction events using List.reverseRecOn with
    | nil =>
      refine ⟨?_, fun r hr hread => Or.inl ⟨r, hr, rfl, hread⟩⟩
      simp [hs]
    | append_singleton events e ih =>
      -- what the last step adds to the reads so far
      have hnext := ih.next e
      rw [run_append, run_cons, run_nil, steps_append]
      have hsteps : ∀ userId id,
          ((∃ p ∈ steps step s events, ShowsUnread p userId id) ∨
            ShowsUnread (run step s events, e) userId id) ↔
          ∃ p ∈ steps step s events ++ steps step (run step s events) [e],
            ShowsUnread p userId id := by
        intro userId id
        simp [steps, or_and_right, exists_or]
      simpa only [hsteps] using hnext
  refine ⟨hexplained.read, fun p _ r hr hread => ?_⟩
  obtain ⟨r', hr', hid, -, hstays⟩ := step_row_next p.2 hr
  exact ⟨r', hr', hid, hstays hread⟩

/-- A moderator is told of a new debate and reads it. -/
def moderatorReads : List NotificationEvent :=
  createUsers.map .call ++
    [.signIn moderatorOne.id, .handle (.genericModerator "New proposed debate!" "" .debate),
      .getNotifications 0, .markNotificationsAsRead 0 true]

theorem read_was_shown_moderator :
    ∃ r ∈ (run step (empty id) moderatorReads).notifications.rows, r.isRead = some true ∧
      ∃ p ∈ steps step (empty id) moderatorReads, ShowsUnread p r.recipientId r.id := by
  obtain ⟨r, hr, hread⟩ : ∃ r ∈ (run step (empty id) moderatorReads).notifications.rows,
      r.isRead = some true := by
    rw [moderatorReads, run_createUsers_append]
    decide +kernel
  refine ⟨r, hr, hread, ?_⟩
  have h₀ : (empty id).marking = [] := rfl
  rcases (read_was_shown h₀ moderatorReads).1 r hr hread with ⟨r₀, hr₀, -⟩ | hshown
  · exact absurd hr₀ List.not_mem_nil
  · exact hshown

end NotificationState

end DecentDebates

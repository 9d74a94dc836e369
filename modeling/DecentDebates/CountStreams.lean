import DecentDebates.NotificationSystem

set_option autoImplicit false

/-! # The count of unread notifications

The client adds up what a count stream emits and shows the sum as the number of unread
notifications. A stream has the first part from the count query and the rest from messages, so each
row has to be in exactly one of the two. -/

namespace DecentDebates

/-- The stream has its message where it is needed: a message that arrives after the count and before
    the subscription belongs to rows that have been counted, and one that arrives later to rows that
    have not. -/
def StreamPhase.Takes : StreamPhase → Notice → Prop
  | .connecting, _ => True
  | .counted _ nextId, notice => notice.nextId ≤ nextId
  | .resolved _ nextId, notice => notice.nextId ≤ nextId
  | .live nextId, notice => nextId < notice.nextId
  | .closed, _ => True

namespace NotificationState

/-- Messages that have not been delivered. -/
def pending (s : NotificationState) : List Notice := s.publishing ++ s.channel ++ s.unpublished

/-- Every message for the user has been delivered. -/
def SettledFor (s : NotificationState) (user : UserCookieData) : Prop :=
  ∀ notice ∈ s.pending, NotificationController.increments user notice.msg.text = false

/-- If the stream at this position is open, the counts it has emitted add up to the number of its
    user's unread notifications. -/
def CountsUnread (s : NotificationState) (i : Nat) : Prop :=
  ∀ st nextId, s.streams[i]? = some st → st.phase = .live nextId →
    st.emitted.sum = NotificationService.getUnreadCount st.user s.notifications

/-- The step is a read of the notifications by this user. -/
def ReadBy (userId : Int) (p : NotificationState × NotificationEvent) : Prop :=
  ∃ session user, p.2 = .getNotifications session ∧ p.1.sessions[session]? = some user ∧
    user.id = userId

/-- No update of the user's rows is under way. -/
def NothingToMark (s : NotificationState) (userId : Int) : Prop :=
  ∀ ids ∈ s.marking, ∀ r ∈ s.notifications.rows, r.id ∈ ids → r.recipientId ≠ userId

/-- The step delivers no message that the stream at this position loses or counts twice. -/
def OnTime (i : Nat) (p : NotificationState × NotificationEvent) : Prop :=
  p.2 = .deliver → ∀ notice rest st, p.1.channel = notice :: rest → p.1.streams[i]? = some st →
    NotificationController.increments st.user notice.msg.text = true → st.phase.Takes notice

end NotificationState

end DecentDebates

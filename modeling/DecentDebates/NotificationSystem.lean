import DecentDebates.System
import DecentDebates.Entities.AuthService
import DecentDebates.Entities.NotificationProcessor

set_option autoImplicit false

/-! # From a job to the count on the screen

The worker, the Redis channel, the count streams and the reads of the API as one transition system.
A job is handled in two steps with anything in between: its rows are inserted, then its message is
published; messages are delivered in the order of publication. A count stream takes a snapshot of
the count, its promise resolves, and only then is it subscribed to the live messages. A read of the
notifications and the update that marks them as read are two steps as well, and the second may
fail. A failed attempt of the worker leaves no row behind, and a job that is run again is handled
once more. -/

namespace DecentDebates

open Transition

/-- A message on its way. `nextId` is the next id of the table behind the rows that were inserted
    with it: it tells which rows those are, and no code reads it. -/
structure Notice where
  msg : NotificationMessage
  nextId : Int
deriving DecidableEq, Repr

/-- Where a count stream stands. `nextId` is the next id of the table when the count was taken; no
    code reads it. -/
inductive StreamPhase where
  | connecting
  | counted (unreadCount : Nat) (nextId : Int)
  | resolved (unreadCount : Nat) (nextId : Int)
  | live (nextId : Int)
  | closed
deriving DecidableEq, Repr

/-- A stream of `GET /notification/count`: the user of its session and the counts it has
    emitted. -/
structure CountStream where
  user : UserCookieData
  phase : StreamPhase
  emitted : List Nat
deriving DecidableEq, Repr

namespace CountStream

/-- The server runs the count query. -/
def snapshot (t : NotificationTable) (s : CountStream) : CountStream :=
  match s.phase with
  | .connecting =>
    { s with phase := .counted (NotificationService.getUnreadCount s.user t) t.next }
  | _ => s

/-- The promise of the count resolves. -/
def resolve (s : CountStream) : CountStream :=
  match s.phase with
  | .counted n nextId => { s with phase := .resolved n nextId }
  | _ => s

/-- `concat(from(…), …)`: the count is emitted, and its completion subscribes the stream to the
    live messages. -/
def subscribe (s : CountStream) : CountStream :=
  match s.phase with
  | .resolved n nextId => { s with phase := .live nextId, emitted := s.emitted ++ [n] }
  | _ => s

/-- A message arrives from the channel. -/
def next (raw : List Char) (s : CountStream) : CountStream :=
  match s.phase with
  | .live _ =>
    if NotificationController.increments s.user raw then { s with emitted := s.emitted ++ [1] }
    else s
  | _ => s

def close (s : CountStream) : CountStream := { s with phase := .closed }

@[simp] theorem user_snapshot (t : NotificationTable) (s : CountStream) :
    (s.snapshot t).user = s.user := by
  unfold snapshot
  split <;> rfl

@[simp] theorem user_resolve (s : CountStream) : s.resolve.user = s.user := by
  unfold resolve
  split <;> rfl

@[simp] theorem user_subscribe (s : CountStream) : s.subscribe.user = s.user := by
  unfold subscribe
  split <;> rfl

@[simp] theorem user_next (raw : List Char) (s : CountStream) : (s.next raw).user = s.user := by
  unfold next
  split
  · split <;> rfl
  · rfl

@[simp] theorem user_close (s : CountStream) : s.close.user = s.user := rfl

end CountStream

structure NotificationState where
  db : Database
  notifications : NotificationTable
  /-- The users of the open sessions, as they were stored at login. -/
  sessions : List UserCookieData
  /-- Attempts of the worker that have inserted their rows and not yet published their message. -/
  publishing : List Notice
  /-- Published messages that the API has not received. -/
  channel : List Notice
  /-- Messages that could not be published. -/
  unpublished : List Notice
  streams : List CountStream
  /-- Ids that a read has returned as unread and has not yet marked. -/
  marking : List (List Int)

inductive NotificationEvent where
  | call (c : Call)
  /-- A user signs in or registers: the session keeps what `getUserCookieFields` takes of the
      row. -/
  | signIn (userId : Int)
  /-- The worker runs the statement of a job. -/
  | handle (data : NotificationJobData)
  /-- Statements failed after they had drawn ids. -/
  | skipIds (n : Nat)
  /-- The worker publishes the message of an attempt, or fails to. -/
  | publish (i : Nat) (succeeds : Bool)
  | deliver
  | openStream (session : Nat)
  | snapshot (stream : Nat)
  | resolve (stream : Nat)
  | subscribe (stream : Nat)
  | disconnect (stream : Nat)
  /-- `GET /notification` -/
  | getNotifications (session : Nat)
  /-- The update behind a read runs, or fails. -/
  | markNotificationsAsRead (i : Nat) (succeeds : Bool)

namespace NotificationState

/-- A freshly migrated database and nobody connected. -/
def empty (lower : String → String) : NotificationState where
  db := .empty lower
  notifications := .empty
  sessions := []
  publishing := []
  channel := []
  unpublished := []
  streams := []
  marking := []

def onStream (s : NotificationState) (i : Nat) (f : CountStream → CountStream) :
    NotificationState :=
  { s with streams := s.streams.modify i f }

/-- What a read returns to a user now. -/
def getNotifications (s : NotificationState) (user : UserCookieData) : List NotificationRow :=
  NotificationService.getAll user s.notifications

def step (s : NotificationState) : NotificationEvent → NotificationState
  | .call c => { s with db := DecentDebates.step s.db c }
  | .signIn userId =>
    match s.db.users.find? userId with
    | some row => { s with sessions := s.sessions ++ [getUserCookieFields row] }
    | none => s
  | .handle data =>
    match NotificationProcessor.insert data s.db s.notifications with
    | .ok t =>
      { s with
        notifications := t
        publishing := s.publishing ++
          [⟨NotificationProcessor.message data, t.next⟩] }
    | .error _ => s
  | .skipIds n => { s with notifications := s.notifications.skip n }
  | .publish i succeeds =>
    match s.publishing[i]? with
    | some notice =>
      if succeeds then
        { s with publishing := s.publishing.eraseIdx i, channel := s.channel ++ [notice] }
      else
        { s with publishing := s.publishing.eraseIdx i, unpublished := s.unpublished ++ [notice] }
    | none => s
  | .deliver =>
    match s.channel with
    | notice :: rest =>
      { s with channel := rest, streams := s.streams.map (CountStream.next notice.msg.text) }
    | [] => s
  | .openStream session =>
    match s.sessions[session]? with
    | some user => { s with streams := s.streams ++ [⟨user, .connecting, []⟩] }
    | none => s
  | .snapshot i => s.onStream i (CountStream.snapshot s.notifications)
  | .resolve i => s.onStream i CountStream.resolve
  | .subscribe i => s.onStream i CountStream.subscribe
  | .disconnect i => s.onStream i CountStream.close
  | .getNotifications session =>
    match s.sessions[session]? with
    | some user =>
      let ids := NotificationController.unreadNotifIds (s.getNotifications user)
      if ids = [] then s else { s with marking := s.marking ++ [ids] }
    | none => s
  | .markNotificationsAsRead i succeeds =>
    match s.marking[i]? with
    | some ids =>
      if succeeds then
        { s with
          marking := s.marking.eraseIdx i
          notifications := (NotificationService.markNotificationsAsRead ids s.notifications).2 }
      else { s with marking := s.marking.eraseIdx i }
    | none => s

/-- A state that some run from a freshly migrated database reaches. -/
def Reachable (s : NotificationState) : Prop :=
  ∃ lower, Transition.Reachable step (empty lower) s

theorem Reachable.invariant {I : NotificationState → Prop} {s : NotificationState}
    (hempty : ∀ lower, I (empty lower)) (hstep : ∀ s e, I s → I (step s e)) (h : s.Reachable) :
    I s := by
  obtain ⟨lower, h⟩ := h
  exact h.invariant (hempty lower) hstep

theorem Reachable.run {s : NotificationState} (h : s.Reachable) (events : List NotificationEvent) :
    (run step s events).Reachable := by
  obtain ⟨lower, h⟩ := h
  exact ⟨lower, h.run events⟩

end NotificationState

end DecentDebates

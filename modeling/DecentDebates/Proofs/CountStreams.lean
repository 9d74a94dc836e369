import Mathlib.Data.List.Perm.Basic
import DecentDebates.CountStreams
import DecentDebates.Proofs.ReadMarks

set_option autoImplicit false

/-! # When the count of a stream is right

From the count query on, the sum of a stream and the messages that are due to it make up the number
of unread rows (`Balanced`): a job that is handled adds one to both sides, and a delivery on time
takes a message that is due and adds it to the sum. -/

namespace DecentDebates

open Relational Transition

namespace NotificationState

/-! ## Messages on their way -/

/-- What a step may do to the messages on their way. -/
inductive PendingStep (s : NotificationState) : NotificationEvent → List Notice → Prop
  | same {e : NotificationEvent} {pending : List Notice} : ¬ s.Handles e →
      (e = .deliver → s.channel = []) → pending.Perm s.pending → PendingStep s e pending
  | handle {data : NotificationJobData} {t : NotificationTable} {pending : List Notice} :
      NotificationProcessor.insert data s.db s.notifications = .ok t →
      pending.Perm (⟨NotificationProcessor.message data, t.next⟩ :: s.pending) →
      PendingStep s (.handle data) pending
  | deliver {notice : Notice} {rest pending : List Notice} : s.channel = notice :: rest →
      s.pending.Perm (notice :: pending) → PendingStep s .deliver pending

theorem pendingStep (s : NotificationState) (e : NotificationEvent) :
    PendingStep s e (step s e).pending := by
  have hsame : ∀ e, (∀ data, e ≠ .handle data) → e ≠ .deliver → PendingStep s e s.pending :=
    fun e he hd => .same (not_handles he) (fun h => absurd h hd) (.refl _)
  cases e with
  | call c => exact hsame _ (by simp) (by simp)
  | signIn userId =>
    simp only [step]
    split <;> exact hsame _ (by simp) (by simp)
  | handle data =>
    simp only [step]
    split
    · next t ht =>
      refine .handle ht ?_
      simp only [pending, List.append_assoc, List.singleton_append]
      exact List.perm_middle
    · next err herr => exact .same (not_handles_of_error herr) (by simp) (.refl _)
  | skipIds n => exact hsame _ (by simp) (by simp)
  | publish i succeeds =>
    simp only [step]
    split
    · next notice hnotice =>
      obtain ⟨hi, rfl⟩ := List.getElem?_eq_some_iff.1 hnotice
      have herase := List.getElem_cons_eraseIdx_perm hi
      split
      · refine .same (not_handles (by simp)) (by simp) ?_
        simp only [pending, List.append_assoc, List.singleton_append]
        refine .trans ?_ (herase.append_right _)
        rw [List.cons_append, ← List.append_assoc, ← List.append_assoc]
        exact List.perm_middle
      · refine .same (not_handles (by simp)) (by simp) ?_
        simp only [pending, ← List.append_assoc]
        refine (List.perm_append_singleton ..).trans ?_
        rw [List.append_assoc, List.append_assoc, ← List.cons_append]
        exact herase.append_right _
    · exact hsame _ (by simp) (by simp)
  | deliver =>
    simp only [step]
    split
    · next notice rest hchannel =>
      refine .deliver hchannel ?_
      simp only [pending, hchannel, List.append_assoc, List.cons_append]
      exact List.perm_middle
    · next hchannel => exact .same (not_handles (by simp)) (fun _ => hchannel) (.refl _)
  | openStream session =>
    simp only [step]
    split <;> exact hsame _ (by simp) (by simp)
  | snapshot i => exact hsame _ (by simp) (by simp)
  | resolve i => exact hsame _ (by simp) (by simp)
  | subscribe i => exact hsame _ (by simp) (by simp)
  | disconnect i => exact hsame _ (by simp) (by simp)
  | getNotifications session =>
    simp only [step]
    split
    · split <;> exact hsame _ (by simp) (by simp)
    · exact hsame _ (by simp) (by simp)
  | markNotificationsAsRead i succeeds =>
    simp only [step]
    split
    · split <;> exact hsame _ (by simp) (by simp)
    · exact hsame _ (by simp) (by simp)

theorem next_le_step (s : NotificationState) (e : NotificationEvent) :
    s.notifications.next ≤ (step s e).notifications.next := by
  have hstep := tableStep s e
  generalize (step s e).notifications = t at hstep ⊢
  cases hstep with
  | same _ _ hnext => exact hnext
  | insert _ hnews => exact hnews.next
  | mark hids => exact Int.le_of_eq (markNotificationsAsRead_next ..).symm

/-- The rows of a message are in the table. -/
def Bounded (s : NotificationState) : Prop :=
  ∀ notice ∈ s.pending, notice.nextId ≤ s.notifications.next

theorem Reachable.bounded {s : NotificationState} (h : s.Reachable) : s.Bounded := by
  refine h.invariant (fun lower => by simp [Bounded, pending, empty]) fun s e hs notice hnotice => ?_
  have hnext := next_le_step s e
  have hpending := pendingStep s e
  generalize hp : (step s e).pending = p at hnotice hpending
  cases hpending with
  | same _ _ hperm => exact Int.le_trans (hs notice (hperm.mem_iff.1 hnotice)) hnext
  | @handle data t _ hinsert hperm =>
    rcases List.mem_cons.1 (hperm.mem_iff.1 hnotice) with rfl | hnotice
    · have ht : (step s (.handle data)).notifications = t := by simp only [step, hinsert]
      exact ht ▸ Int.le_refl _
    · exact Int.le_trans (hs notice hnotice) hnext
  | deliver _ hperm =>
    exact Int.le_trans (hs notice (hperm.mem_iff.2 (List.mem_cons_of_mem _ hnotice))) hnext

/-! ## What waits to be marked -/

/-- Ids that wait to be marked are ids of rows. -/
theorem Reachable.exists_marking {s : NotificationState} (h : s.Reachable) {ids : List Int}
    (hids : ids ∈ s.marking) {id : Int} (hid : id ∈ ids) :
    ∃ r ∈ s.notifications.rows, r.id = id := by
  have hexplained : Explained (fun _ _ => True) (fun _ => True) s := by
    refine h.invariant (fun lower => ⟨by simp [empty], by simp⟩) fun s e hs => ?_
    have := hs.next e
    simpa only [true_or] using this
  obtain ⟨r, hr, hrid, -⟩ := hexplained.marking ids hids id hid
  exact ⟨r, hr, hrid⟩

theorem NothingToMark.next {s : NotificationState} {userId : Int} (h : s.NothingToMark userId)
    (hs : s.Reachable) {e : NotificationEvent} (hquiet : ¬ ReadBy userId (s, e)) :
    (step s e).NothingToMark userId := by
  intro ids hids r' hr' hid
  -- the ids belonged to rows before the step, and to none of the user's
  have hold : ∃ r ∈ s.notifications.rows, r.id = r'.id ∧ r.recipientId ≠ userId := by
    rcases step_marking hids with hids | ⟨session, user, rfl, huser, rfl⟩
    · obtain ⟨r, hr, hrid⟩ := hs.exists_marking hids hid
      exact ⟨r, hr, hrid, h ids hids r hr (hrid ▸ hid)⟩
    · obtain ⟨n, hn, hnid⟩ := List.mem_map.1 hid
      obtain ⟨hmem, hrecipient⟩ := mem_getNotifications.1 (List.mem_filter.1 hn).1
      refine ⟨n, hmem, hnid, fun he => hquiet ⟨session, user, rfl, huser, ?_⟩⟩
      rw [← hrecipient, he]
  obtain ⟨r, hr, hrid, hne⟩ := hold
  rcases step_row_prev hr' with ⟨hfresh, -⟩ | ⟨r₀, hr₀, hid₀, hrecipient, -⟩
  · have := s.notifications.fresh r hr
    simp only [rowId_notification] at this
    omega
  · rw [← hrecipient, SerialTable.eq_of_rowId_eq hr₀ hr (hid₀.trans hrid.symm)]
    exact hne

/-! ## The accounts of a stream -/

/-- The messages for the user whose rows come after `nextId`. -/
def due (s : NotificationState) (user : UserCookieData) (nextId : Int) : Nat :=
  s.pending.countP fun notice =>
    NotificationController.increments user notice.msg.text && nextId < notice.nextId

/-- The rows that a step inserts for the user. -/
def gained (s : NotificationState) (userId : Int) : NotificationEvent → Nat
  | .handle data =>
    match NotificationProcessor.insert data s.db s.notifications with
    | .ok _ => if userId ∈ data.recipients s.db then 1 else 0
    | .error _ => 0
  | _ => 0

theorem gained_eq_zero {s : NotificationState} {userId : Int} {e : NotificationEvent}
    (h : ¬ s.Handles e) : s.gained userId e = 0 := by
  cases e with
  | handle data =>
    unfold gained
    simp only
    split
    · next t ht => exact absurd ⟨data, t, rfl, ht⟩ h
    · rfl
  | _ => rfl

theorem getUnreadCount_eq (user : UserCookieData) (t : NotificationTable) :
    NotificationService.getUnreadCount user t =
      t.rows.countP fun n => (NotificationService.unreadWhere user.id n).holds := by
  rw [NotificationService.getUnreadCount, selectWhere, ← List.countP_eq_length_filter]

theorem getUnreadCount_eq_countP (user : UserCookieData) (t : NotificationTable) :
    NotificationService.getUnreadCount user t =
      t.rows.countP fun n => n.recipientId = user.id && n.isRead = some false := by
  rw [getUnreadCount_eq]
  exact List.countP_congr fun n _ => by simp [NotificationService.unreadWhere]

/-- As long as none of the user's rows is marked, the unread rows grow by what is inserted. -/
theorem getUnreadCount_step {s : NotificationState} {user : UserCookieData}
    (hmark : s.NothingToMark user.id) (e : NotificationEvent) :
    NotificationService.getUnreadCount user (step s e).notifications
      = NotificationService.getUnreadCount user s.notifications + s.gained user.id e := by
  have hstep := tableStep s e
  generalize (step s e).notifications = t at hstep ⊢
  simp only [getUnreadCount_eq_countP]
  cases hstep with
  | same hhandles hrows => rw [hrows, gained_eq_zero hhandles, Nat.add_zero]
  | @insert data t news hinsert hnews =>
    have hcount : news.countP (fun n => n.recipientId = user.id && n.isRead = some false)
        = news.countP (fun n => n.recipientId = user.id) :=
      List.countP_congr fun n hn => by simp [hnews.unread n hn]
    rw [hnews.rows, List.countP_append, hcount,
      hnews.countP (recipients_nodup data s.db) user.id]
    simp only [gained, hinsert]
  | @mark i ids hids =>
    rw [markNotificationsAsRead_rows, List.countP_map, gained_eq_zero (not_handles (by simp)),
      Nat.add_zero]
    refine List.countP_congr fun n hn => ?_
    by_cases hid : n.id ∈ ids
    · have hne := hmark ids (List.mem_of_getElem? hids) n hn hid
      simp [hid, hne]
    · simp [hid]

/-- The due message that a step delivers. -/
def delivered (s : NotificationState) (user : UserCookieData) (nextId : Int) :
    NotificationEvent → Nat
  | .deliver =>
    match s.channel with
    | notice :: _ =>
      if NotificationController.increments user notice.msg.text && nextId < notice.nextId then 1
      else 0
    | [] => 0
  | _ => 0

theorem delivered_eq_zero {s : NotificationState} {user : UserCookieData} {k : Int}
    {e : NotificationEvent} (h : e = .deliver → s.channel = []) : s.delivered user k e = 0 := by
  cases e with
  | deliver => simp only [delivered, h rfl]
  | _ => rfl

/-- The messages that are due grow by what is inserted and shrink by what is delivered. -/
theorem due_step {s : NotificationState} {user : UserCookieData} (huser : s.db.Knows user)
    {k : Int} (hk : k ≤ s.notifications.next) (e : NotificationEvent) :
    (step s e).due user k + s.delivered user k e = s.due user k + s.gained user.id e := by
  have hpending := pendingStep s e
  unfold due
  generalize (step s e).pending = p at hpending ⊢
  cases hpending with
  | same hhandles hdeliver hperm =>
    rw [hperm.countP_eq, gained_eq_zero hhandles, delivered_eq_zero hdeliver]
  | @handle data t _ hinsert hperm =>
    have hreach := increments_message hinsert huser
    obtain ⟨news, hnews⟩ := insert_eq_ok hinsert
    rw [hperm.countP_eq, List.countP_cons, delivered_eq_zero (by simp), Nat.add_zero]
    simp only [gained, hinsert]
    by_cases hid : user.id ∈ data.recipients s.db
    · -- the rows of the message are new
      have hnext : s.notifications.next < t.next := by
        rw [← hnews.recipients] at hid
        obtain ⟨n, hn, -⟩ := List.mem_map.1 hid
        have h₁ := hnews.fresh n hn
        have h₂ := t.fresh n (hnews.rows ▸ List.mem_append_right _ hn)
        simp only [rowId_notification] at h₂
        omega
      have hlt : k < t.next := by omega
      simp [hreach.2 hid, hid, hlt]
    · simp [mt hreach.1 hid, hid]
  | @deliver notice rest _ hchannel hperm =>
    rw [hperm.countP_eq, List.countP_cons, gained_eq_zero (not_handles (by simp)), Nat.add_zero]
    simp only [delivered, hchannel]

/-- `n` has been emitted or is about to be, and the rest of the unread rows is due. -/
structure Balanced (s : NotificationState) (user : UserCookieData) (nextId : Int) (n : Nat) :
    Prop where
  next : nextId ≤ s.notifications.next
  sum : n + s.due user nextId = NotificationService.getUnreadCount user s.notifications

/-- The accounts of a stream, phase by phase. -/
def Accounts (s : NotificationState) (st : CountStream) : Prop :=
  match st.phase with
  | .connecting => st.emitted = []
  | .counted n nextId => st.emitted = [] ∧ s.Balanced st.user nextId n
  | .resolved n nextId => st.emitted = [] ∧ s.Balanced st.user nextId n
  | .live nextId => s.Balanced st.user nextId st.emitted.sum
  | .closed => True

/-- What is due and delivered has to be added to keep the balance. -/
theorem Balanced.step {s : NotificationState} {user : UserCookieData} {k : Int} {n : Nat}
    (h : s.Balanced user k n) (huser : s.db.Knows user) (hmark : s.NothingToMark user.id)
    (e : NotificationEvent) :
    (NotificationState.step s e).Balanced user k (n + s.delivered user k e) := by
  have hdue := due_step huser h.next e
  have hcount := getUnreadCount_step hmark e
  have hsum := h.sum
  exact ⟨Int.le_trans h.next (next_le_step s e), by omega⟩

theorem OnTime.delivered_eq_zero {s : NotificationState} {i : Nat} {e : NotificationEvent}
    {st : CountStream} {k : Int} (h : OnTime i (s, e)) (hst : s.streams[i]? = some st)
    (htakes : ∀ notice, st.phase.Takes notice → notice.nextId ≤ k) :
    s.delivered st.user k e = 0 := by
  cases e with
  | deliver =>
    simp only [delivered]
    split
    · next notice rest hchannel =>
      refine if_neg fun hdue => ?_
      rw [Bool.and_eq_true, decide_eq_true_eq] at hdue
      have := htakes notice (h rfl notice rest st hchannel hst hdue.1)
      omega
    · rfl
  | _ => rfl

theorem OnTime.sum_streamStep {s : NotificationState} {i : Nat} {e : NotificationEvent}
    {st : CountStream} {k : Int} (h : OnTime i (s, e)) (hst : s.streams[i]? = some st)
    (hlive : st.phase = .live k) (hopen : (s.streamStep i e st).phase = .live k) :
    (s.streamStep i e st).emitted.sum = st.emitted.sum + s.delivered st.user k e := by
  cases e with
  | deliver =>
    cases hchannel : s.channel with
    | nil => simp [streamStep, delivered, hchannel]
    | cons notice rest =>
      simp only [streamStep, delivered, hchannel, CountStream.next, hlive]
      by_cases hreach : NotificationController.increments st.user notice.msg.text = true
      · have htakes := h rfl notice rest st hchannel hst hreach
        rw [hlive] at htakes
        have hlt : k < notice.nextId := htakes
        simp [hreach, hlt]
      · simp [hreach]
  | snapshot j => simp [streamStep, delivered, CountStream.snapshot, hlive]
  | resolve j => simp [streamStep, delivered, CountStream.resolve, hlive]
  | subscribe j => simp [streamStep, delivered, CountStream.subscribe, hlive]
  | disconnect j =>
    by_cases hj : j = i
    · simp [streamStep, hj, CountStream.close] at hopen
    · simp [streamStep, delivered, hj]
  | _ => rfl

/-- A stream that stays as it is. -/
theorem Accounts.stay {s : NotificationState} {i : Nat} {e : NotificationEvent}
    {st : CountStream} (h : s.Accounts st) (huser : s.db.Knows st.user)
    (hst : s.streams[i]? = some st) (hmark : s.NothingToMark st.user.id)
    (htime : OnTime i (s, e))
    (hlive : ∀ k, st.phase = .live k → s.delivered st.user k e = 0) :
    (step s e).Accounts st := by
  unfold Accounts at h ⊢
  cases hphase : st.phase with
  | connecting =>
    rw [hphase] at h
    exact h
  | counted n k =>
    rw [hphase] at h
    have hzero : s.delivered st.user k e = 0 :=
      htime.delivered_eq_zero hst fun notice htakes => by rwa [hphase] at htakes
    have hstep := h.2.step huser hmark e
    rw [hzero] at hstep
    exact ⟨h.1, hstep⟩
  | resolved n k =>
    rw [hphase] at h
    have hzero : s.delivered st.user k e = 0 :=
      htime.delivered_eq_zero hst fun notice htakes => by rwa [hphase] at htakes
    have hstep := h.2.step huser hmark e
    rw [hzero] at hstep
    exact ⟨h.1, hstep⟩
  | live k =>
    rw [hphase] at h
    have hstep := h.step huser hmark e
    rw [hlive k hphase] at hstep
    exact hstep
  | closed => trivial

/-- The query counts the rows there are, and nothing is due yet. -/
theorem Accounts.snapshot {s : NotificationState} {st : CountStream} (h : s.Accounts st)
    (hbounded : s.Bounded) : s.Accounts (st.snapshot s.notifications) := by
  unfold CountStream.snapshot
  split
  · next hphase =>
    simp only [Accounts, hphase] at h
    have hdue : s.due st.user s.notifications.next = 0 := by
      refine List.countP_eq_zero.2 fun notice hnotice hdue => ?_
      rw [Bool.and_eq_true, decide_eq_true_eq] at hdue
      have := hbounded notice hnotice
      omega
    exact ⟨h, Int.le_refl _, by rw [hdue, Nat.add_zero]⟩
  · exact h

theorem Accounts.resolve {s : NotificationState} {st : CountStream} (h : s.Accounts st) :
    s.Accounts st.resolve := by
  unfold CountStream.resolve
  split
  · next hphase =>
    simp only [Accounts, hphase] at h
    exact h
  · exact h

theorem Accounts.subscribe {s : NotificationState} {st : CountStream} (h : s.Accounts st) :
    s.Accounts st.subscribe := by
  unfold CountStream.subscribe
  split
  · next n k hphase =>
    simp only [Accounts, hphase] at h
    obtain ⟨hemitted, hbalanced⟩ := h
    have hsum : (st.emitted ++ [n]).sum = n := by simp [hemitted]
    simp only [Accounts, hsum]
    exact hbalanced
  · exact h

/-- **One step keeps the accounts of a stream**, if it delivers what it delivers on time. -/
theorem Accounts.next {s : NotificationState} {i : Nat} {st : CountStream} (h : s.Accounts st)
    (hs : s.Reachable) (hst : s.streams[i]? = some st) (hmark : s.NothingToMark st.user.id)
    {e : NotificationEvent} (htime : OnTime i (s, e)) :
    (step s e).Accounts (s.streamStep i e st) := by
  have huser : s.db.Knows st.user := hs.signed.streams st (List.mem_of_getElem? hst)
  have hother : e ≠ .deliver → (step s e).Accounts st := fun he =>
    h.stay huser hst hmark htime fun k _ => delivered_eq_zero fun hd => absurd hd he
  cases e with
  | deliver =>
    by_cases hlive : ∃ k, st.phase = .live k
    · obtain ⟨k, hlive⟩ := hlive
      have hopen : (s.streamStep i .deliver st).phase = .live k := by
        simp only [streamStep, CountStream.next]
        repeat' split
        all_goals exact hlive
      have hsum := htime.sum_streamStep hst hlive hopen
      simp only [Accounts, hlive] at h
      have hstep := h.step huser hmark .deliver
      rw [← hsum] at hstep
      simp only [Accounts, hopen, user_streamStep]
      exact hstep
    · have hsame : s.streamStep i .deliver st = st := by
        simp only [streamStep, CountStream.next]
        split
        · split
          · next k hk => exact absurd ⟨k, hk⟩ hlive
          · rfl
        · rfl
      rw [hsame]
      exact h.stay huser hst hmark htime fun k hk => absurd ⟨k, hk⟩ hlive
  | snapshot j =>
    have hbounded : (step s (.snapshot j)).Bounded := hs.bounded
    simp only [streamStep]
    split
    · exact (hother (by simp)).snapshot hbounded
    · exact hother (by simp)
  | resolve j =>
    simp only [streamStep]
    split
    · exact (hother (by simp)).resolve
    · exact hother (by simp)
  | subscribe j =>
    simp only [streamStep]
    split
    · exact (hother (by simp)).subscribe
    · exact hother (by simp)
  | disconnect j =>
    simp only [streamStep]
    split
    · trivial
    · exact hother (by simp)
  | _ => exact hother (by simp)

/-- What is known of a stream in the states of a run. -/
structure Watched (user : UserCookieData) (i : Nat) (s : NotificationState) : Prop where
  reachable : s.Reachable
  unmarked : s.NothingToMark user.id
  stream : ∃ st, s.streams[i]? = some st ∧ st.user = user ∧ s.Accounts st

/-- **The count stream loses and repeats nothing** in a run in which every message is delivered on
    time: from the opening of the stream on, as long as its user reads nothing, the counts it has
    emitted add up to the number of unread rows in every state in which all messages for the user
    have been delivered. -/
theorem countsUnread_of_onTime {s : NotificationState} (hs : s.Reachable) {user : UserCookieData}
    {i : Nat} (hopen : s.streams[i]? = some ⟨user, .connecting, []⟩)
    (hmark : s.NothingToMark user.id) {events : List NotificationEvent}
    (hquiet : ∀ p ∈ steps step s events, ¬ ReadBy user.id p)
    (htime : ∀ p ∈ steps step s events, OnTime i p) :
    ∀ x ∈ states step s events, x.SettledFor user → x.CountsUnread i := by
  have hwatched : ∀ x ∈ states step s events, Watched user i x := by
    refine states_invariant_of_steps (C := fun x e => ¬ ReadBy user.id (x, e) ∧ OnTime i (x, e))
      ?_ ⟨hs, hmark, _, hopen, rfl, rfl⟩ fun p hp => ⟨hquiet p hp, htime p hp⟩
    rintro x e ⟨hx, hunmarked, st, hst, rfl, haccounts⟩ ⟨hread, honTime⟩
    exact ⟨hx.run [e], hunmarked.next hx hread, _, step_stream hst e, user_streamStep x i e st,
      haccounts.next hx hst hunmarked honTime⟩
  intro x hx hsettled st nextId hst hlive
  obtain ⟨-, -, st', hst', rfl, haccounts⟩ := hwatched x hx
  cases hst.symm.trans hst'
  simp only [Accounts, hlive] at haccounts
  have hdue : x.due st.user nextId = 0 :=
    List.countP_eq_zero.2 fun notice hnotice => by simp [hsettled notice hnotice]
  rw [← haccounts.sum, hdue, Nat.add_zero]

/-! ## A moderator opens her stream -/

/-- The accounts of the tests, and a moderator whose stream has just been opened. -/
def moderatorConnects : NotificationState :=
  run step (empty id) (createUsers.map .call ++ [.signIn moderatorOne.id, .openStream 0])

/-- The job of a new debate. -/
def debateJob : NotificationJobData :=
  .genericModerator "New proposed debate!" "<rich-text>" .debate

/-- The job is handled and its message delivered while the promise of the count is under way. -/
def deliveredTooEarly : List NotificationEvent :=
  [.snapshot 0, .handle debateJob, .publish 0 true, .deliver, .resolve 0, .subscribe 0]

/-- The row is there when the query runs, and the message arrives after the subscription. -/
def deliveredTooLate : List NotificationEvent :=
  [.handle debateJob, .snapshot 0, .resolve 0, .subscribe 0, .publish 0 true, .deliver]

/-- The job is handled once the stream is live. -/
def deliveredOnTime : List NotificationEvent :=
  [.snapshot 0, .resolve 0, .subscribe 0, .handle debateJob, .publish 0 true, .deliver]

theorem moderatorConnects_eq : moderatorConnects =
    run step { empty id with db := .withUsers id } [.signIn moderatorOne.id, .openStream 0] :=
  run_createUsers_append id _

/-- Nothing is being marked, and the count of the stream has not been asked for. -/
theorem moderatorConnects_starts : moderatorConnects.marking = [] ∧
    moderatorConnects.streams[0]? = some ⟨moderatorOne, .connecting, []⟩ := by
  rw [moderatorConnects_eq]
  decide +kernel

theorem moderatorConnects_reachable : moderatorConnects.Reachable := ⟨id, _, rfl⟩

theorem not_readBy_of_events {s : NotificationState} {events : List NotificationEvent}
    {userId : Int} (h : ∀ session, .getNotifications session ∉ events) :
    ∀ p ∈ steps step s events, ¬ ReadBy userId p := by
  rintro p hp ⟨session, user, he, -⟩
  obtain ⟨pre, post, rfl, -⟩ := mem_steps_iff.1 hp
  exact h session (by simp [he])

/-- **A message between the count and the subscription is lost, and a message for a counted row is
    counted twice.** -/
theorem not_countsUnread :
    moderatorConnects.Reachable ∧
      moderatorConnects.streams[0]? = some ⟨moderatorOne, .connecting, []⟩ ∧
      moderatorConnects.marking = [] ∧
      (∀ events ∈ [deliveredTooEarly, deliveredTooLate],
        (∀ p ∈ steps step moderatorConnects events, ¬ ReadBy moderatorOne.id p) ∧
        (run step moderatorConnects events).SettledFor moderatorOne ∧
        ¬ (run step moderatorConnects events).CountsUnread 0) := by
  obtain ⟨hmark, hopen⟩ := moderatorConnects_starts
  refine ⟨moderatorConnects_reachable, hopen, hmark, fun events h => ?_⟩
  rcases List.mem_pair.1 h with rfl | rfl
  · refine ⟨not_readBy_of_events (by simp [deliveredTooEarly]), ?_, fun hcounts => ?_⟩
    · rw [moderatorConnects_eq]
      unfold SettledFor
      decide +kernel
    · have hcount := hcounts ⟨moderatorOne, .live 1, [0]⟩ 1
      rw [moderatorConnects_eq] at hcount
      exact absurd (hcount (by decide +kernel) rfl) (by decide +kernel)
  · refine ⟨not_readBy_of_events (by simp [deliveredTooLate]), ?_, fun hcounts => ?_⟩
    · rw [moderatorConnects_eq]
      unfold SettledFor
      decide +kernel
    · have hcount := hcounts ⟨moderatorOne, .live 3, [1, 1]⟩ 3
      rw [moderatorConnects_eq] at hcount
      exact absurd (hcount (by decide +kernel) rfl) (by decide +kernel)

theorem onTime_deliveredOnTime :
    ∀ p ∈ steps step moderatorConnects deliveredOnTime, OnTime 0 p := by
  intro p hp hdeliver notice rest st hchannel hst _
  rw [moderatorConnects_eq] at hp
  simp only [deliveredOnTime, steps, List.mem_cons, List.not_mem_nil, or_false] at hp
  rcases hp with rfl | rfl | rfl | rfl | rfl | rfl
  case inr.inr.inr.inr.inr =>
    -- the one delivery
    cases hchannel.symm.trans (show _ = [⟨.genericModerator, 3⟩] by decide +kernel)
    cases hst.symm.trans (show _ = some ⟨moderatorOne, .live 1, [0]⟩ by decide +kernel)
    show (1 : Int) < 3
    decide
  all_goals cases hdeliver

theorem countsUnread_deliveredOnTime :
    (run step moderatorConnects deliveredOnTime).CountsUnread 0 := by
  obtain ⟨hnone, hopen⟩ := moderatorConnects_starts
  have hmark : moderatorConnects.NothingToMark moderatorOne.id := by
    intro ids hids
    rw [hnone] at hids
    cases hids
  refine countsUnread_of_onTime moderatorConnects_reachable hopen hmark
    (not_readBy_of_events (by simp [deliveredOnTime])) onTime_deliveredOnTime _
    (run_mem_states _ _) ?_
  rw [moderatorConnects_eq]
  unfold SettledFor
  decide +kernel

end NotificationState

end DecentDebates

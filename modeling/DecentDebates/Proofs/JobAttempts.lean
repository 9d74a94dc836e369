import DecentDebates.JobAttempts
import DecentDebates.Proofs.Pushes

set_option autoImplicit false

/-! # How often a job inserts its rows

A job gives its recipients a row for each statement of it that is committed. Nothing tells a later
attempt of an earlier one, so there is one statement exactly as long as no attempt is repeated after
its statement. -/

namespace DecentDebates

open Relational Transition

namespace JobState

variable {data : NotificationJobData}

/-! ## What the steps preserve -/

/-- The rows of the job: each entry is addressed as the job is, and all of them are different rows
    of the table. -/
structure Recorded (data : NotificationJobData) (s : JobState) : Prop where
  addressed : ∀ q ∈ s.inserted, ∀ userId,
    q.2.countP (fun n => n.recipientId = userId) = if data.AddressedTo q.1 userId then 1 else 0
  kept : ∀ n ∈ s.rows, ∃ r ∈ s.notifications.rows, r.id = n.id ∧ r.recipientId = n.recipientId
  nodup : (s.rows.map NotificationRow.id).Nodup

/-- Rows stay in a table, with their recipients. -/
def Keeps (t t' : NotificationTable) : Prop :=
  ∀ r ∈ t.rows, ∃ r' ∈ t'.rows, r'.id = r.id ∧ r'.recipientId = r.recipientId

theorem Recorded.keeps {s s' : JobState} (h : Recorded data s)
    (hkeeps : Keeps s.notifications s'.notifications) (hinserted : s'.inserted = s.inserted) :
    Recorded data s' := by
  have hrows : s'.rows = s.rows := by rw [rows, rows, hinserted]
  refine ⟨hinserted ▸ h.addressed, ?_, hrows ▸ h.nodup⟩
  intro n hn
  obtain ⟨r, hr, hid, hrecipient⟩ := h.kept n (hrows ▸ hn)
  obtain ⟨r', hr', hid', hrecipient'⟩ := hkeeps r hr
  exact ⟨r', hr', hid'.trans hid, hrecipient'.trans hrecipient⟩

theorem Inserts.keeps {ids : List Int} {t t' : NotificationTable} {news : List NotificationRow}
    (h : Inserts ids t t' news) : Keeps t t' :=
  fun r hr => ⟨r, h.rows ▸ List.mem_append_left _ hr, rfl, rfl⟩

theorem Keeps.refl (t : NotificationTable) : Keeps t t := fun r hr => ⟨r, hr, rfl, rfl⟩

theorem keeps_markNotificationsAsRead (ids : List Int) (t : NotificationTable) :
    Keeps t (NotificationService.markNotificationsAsRead ids t).2 := by
  intro r hr
  refine ⟨_, markNotificationsAsRead_rows ids t ▸ List.mem_map_of_mem hr, ?_⟩
  split
  · exact ⟨rfl, rfl⟩
  · exact ⟨rfl, rfl⟩

theorem Recorded.commits {s : JobState} (h : Recorded data s) {t : NotificationTable}
    (hinsert : NotificationProcessor.insert data s.db s.notifications = .ok t) :
    Recorded data (s.commits t) := by
  obtain ⟨news, hnews⟩ := insert_eq_ok hinsert
  have hdrop : t.rows.drop s.notifications.rows.length = news := by
    rw [hnews.rows, List.drop_left]
  have hrows : (s.commits t).rows = s.rows ++ news := by
    simp [rows, JobState.commits, hdrop]
  refine ⟨?_, ?_, ?_⟩
  · intro q hq userId
    rcases List.mem_append.1 hq with hq | hq
    · exact h.addressed q hq userId
    · rw [List.mem_singleton.1 hq, hdrop, hnews.countP (recipients_nodup data s.db)]
      simp only [mem_recipients]
  · intro n hn
    rcases List.mem_append.1 (hrows ▸ hn) with hn | hn
    · obtain ⟨r, hr, hid, hrecipient⟩ := h.kept n hn
      exact ⟨r, hnews.rows ▸ List.mem_append_left _ hr, hid, hrecipient⟩
    · exact ⟨n, hnews.rows ▸ List.mem_append_right _ hn, rfl, rfl⟩
  · have hnodup := t.nodup
    rw [hnews.rows, List.map_append] at hnodup
    rw [hrows, List.map_append]
    refine h.nodup.append (List.Nodup.of_append_right hnodup) ?_
    -- the new ids are above those of the rows that were there
    intro id hid hid'
    obtain ⟨n, hn, rfl⟩ := List.mem_map.1 hid
    obtain ⟨n', hn', he⟩ := List.mem_map.1 hid'
    obtain ⟨r, hr, hrid, -⟩ := h.kept n hn
    have h₁ := s.notifications.fresh r hr
    have h₂ := hnews.fresh n' hn'
    simp only [rowId_notification] at h₁
    omega

theorem Recorded.runInsert {s : JobState} (h : Recorded data s) (outcome : InsertOutcome) :
    Recorded data (s.runInsert data outcome) := by
  have hthrows : Recorded data s.throws := h.keeps (.refl _) rfl
  unfold JobState.runInsert
  split
  · exact hthrows
  · exact hthrows
  · split
    · next t ht => exact (h.commits ht).keeps (.refl _) rfl
    · exact hthrows
  · split
    · next t ht => exact (h.commits ht).keeps (.refl _) rfl
    · exact hthrows

theorem Recorded.next {s : JobState} (h : Recorded data s) (e : JobEvent) :
    Recorded data (step data s e) := by
  cases e with
  | call c => exact h.keeps (.refl _) rfl
  | otherJob other =>
    simp only [step]
    split
    · next t ht =>
      obtain ⟨news, hnews⟩ := insert_eq_ok ht
      exact h.keeps (Inserts.keeps hnews) rfl
    · exact h
  | markNotificationsAsRead ids => exact h.keeps (keeps_markNotificationsAsRead ids _) rfl
  | take =>
    simp only [step]
    split
    · exact h.keeps (.refl _) rfl
    · exact h
  | insert outcome =>
    simp only [step]
    split
    · exact h.runInsert outcome
    · exact h
  | publish succeeds =>
    simp only [step]
    split
    · exact h.keeps (.refl _) rfl
    · exact h
  | acknowledge =>
    simp only [step]
    split
    · exact h.keeps (.refl _) rfl
    · exact h
  | stop =>
    simp only [step]
    split <;> exact h.keeps (.refl _) rfl

/-! ## How many statements there are -/

/-- The stages behind a committed statement. -/
def AfterInsert : JobStage → Prop
  | .inserted | .published | .completed => True
  | _ => False

/-- Behind the insert of an attempt there is a committed statement. -/
def Counted (s : JobState) : Prop := AfterInsert s.stage → s.inserted ≠ []

/-- And no other one. -/
def Once (s : JobState) : Prop :=
  (AfterInsert s.stage → ∃ q, s.inserted = [q]) ∧ (¬ AfterInsert s.stage → s.inserted = [])

/-- What an attempt does with the statement: it throws without it, or commits it. -/
theorem runInsert_cases (s : JobState) (outcome : InsertOutcome) :
    ((s.runInsert data outcome).inserted = s.inserted ∧
        ¬ AfterInsert (s.runInsert data outcome).stage) ∨
      ∃ q, (s.runInsert data outcome).inserted = s.inserted ++ [q] ∧
        (outcome ≠ .unanswered → (s.runInsert data outcome).stage = .inserted) := by
  have hthrows : s.throws.inserted = s.inserted ∧ ¬ AfterInsert s.throws.stage := by
    refine ⟨rfl, ?_⟩
    simp only [JobState.throws]
    split <;> exact id
  unfold JobState.runInsert
  split
  · exact Or.inl hthrows
  · exact Or.inl hthrows
  · split
    · exact Or.inr ⟨_, rfl, fun h => absurd rfl h⟩
    · exact Or.inl hthrows
  · split
    · exact Or.inr ⟨_, rfl, fun _ => rfl⟩
    · exact Or.inl hthrows

theorem Counted.next {s : JobState} (h : Counted s) (e : JobEvent) : Counted (step data s e) := by
  cases e with
  | call c => exact h
  | otherJob other =>
    simp only [step]
    split <;> exact h
  | markNotificationsAsRead ids => exact h
  | take =>
    simp only [step]
    split
    · exact fun hstage => absurd hstage id
    · exact h
  | insert outcome =>
    simp only [step]
    split
    · rcases runInsert_cases s outcome with ⟨-, hstage⟩ | ⟨q, hq, -⟩
      · exact fun hafter => absurd hafter hstage
      · exact fun _ => by simp [hq]
    · exact h
  | publish succeeds =>
    simp only [step]
    split
    · next hstage => exact fun _ => h (hstage ▸ trivial)
    · exact h
  | acknowledge =>
    simp only [step]
    split
    · next hstage => exact fun _ => h (hstage ▸ trivial)
    · exact h
  | stop =>
    simp only [step]
    split
    · exact fun hstage => absurd hstage id
    · exact fun hstage => absurd hstage id
    · exact fun hstage => absurd hstage id
    · exact h

theorem Once.next {s : JobState} (h : Once s) {e : JobEvent} (hinformed : Informed (s, e)) :
    Once (step data s e) := by
  cases e with
  | call c => exact h
  | otherJob other =>
    simp only [step]
    split <;> exact h
  | markNotificationsAsRead ids => exact h
  | take =>
    simp only [step]
    split
    · next hstage =>
      have hnone : s.inserted = [] := h.2 (by rw [hstage]; exact id)
      exact ⟨fun hafter => absurd hafter id, fun _ => hnone⟩
    · exact h
  | insert outcome =>
    simp only [step]
    split
    · next hstage =>
      have hnone : s.inserted = [] := h.2 (by rw [hstage]; exact id)
      rcases runInsert_cases s outcome with ⟨hinserted, hafter⟩ | ⟨q, hq, hanswered⟩
      · exact ⟨fun h => absurd h hafter, fun _ => hinserted.trans hnone⟩
      · have hinsert := hanswered fun he => hinformed.2 (he ▸ rfl)
        refine ⟨fun _ => ⟨q, by rw [hq, hnone, List.nil_append]⟩, fun hafter => ?_⟩
        exact absurd (hinsert ▸ trivial) hafter
    · exact h
  | publish succeeds =>
    simp only [step]
    split
    · next hstage => exact ⟨fun _ => h.1 (hstage ▸ trivial), fun hafter => absurd trivial hafter⟩
    · exact h
  | acknowledge =>
    simp only [step]
    split
    · next hstage => exact ⟨fun _ => h.1 (hstage ▸ trivial), fun hafter => absurd trivial hafter⟩
    · exact h
  | stop =>
    have hstop := hinformed.1 rfl
    simp only [step]
    split
    · next hstage =>
      have hnone : s.inserted = [] := h.2 (by rw [hstage]; exact id)
      exact ⟨fun hafter => absurd hafter id, fun _ => hnone⟩
    · next hstage => exact absurd hstage hstop.1
    · next hstage => exact absurd hstage hstop.2
    · exact h

/-! ## The rows of a run -/

theorem Recorded.rowsFor {s : JobState} (h : Recorded data s) (userId : Int) :
    s.rowsFor userId = s.inserted.countP fun q => data.AddressedTo q.1 userId := by
  unfold JobState.rowsFor JobState.rows
  have haddressed := h.addressed
  generalize s.inserted = inserted at haddressed ⊢
  induction inserted with
  | nil => rfl
  | cons q rest ih =>
    rw [List.forall_mem_cons] at haddressed
    rw [List.flatMap_cons, List.countP_append, haddressed.1, ih haddressed.2, List.countP_cons]
    by_cases hq : data.AddressedTo q.1 userId
    · simp [hq, Nat.add_comm]
    · simp [hq]

/-- **How many rows a job inserts.** A user gets one row for each statement of the job that was
    committed while the job was addressed to the user, and a completed job has committed one. As
    long as no worker stops between its insert and its acknowledgement and no answer is lost, that
    is at most one row, and exactly one for each recipient once the job is completed. -/
theorem rows_of_job (data : NotificationJobData) (db : Database) (t : NotificationTable)
    (events : List JobEvent) :
    let s := run (step data) (enqueue db t) events
    (∀ userId, s.rowsFor userId = s.inserted.countP fun q => data.AddressedTo q.1 userId) ∧
      (∀ n ∈ s.rows, ∃ r ∈ s.notifications.rows,
        r.id = n.id ∧ r.recipientId = n.recipientId) ∧
      (s.rows.map NotificationRow.id).Nodup ∧
      (s.stage = .completed → s.inserted ≠ []) ∧
      ((∀ p ∈ steps (step data) (enqueue db t) events, Informed p) →
        (∀ userId, s.rowsFor userId ≤ 1) ∧
        (s.stage = .completed → ∃ q, s.inserted = [q] ∧ ∀ userId,
          s.rowsFor userId = if data.AddressedTo q.1 userId then 1 else 0)) := by
  intro s
  have hrecorded : Recorded data (run (step data) (enqueue db t) events) :=
    run_invariant (fun _ e h => h.next e) ⟨by simp [enqueue], by simp [rows, enqueue],
      by simp [rows, enqueue]⟩ events
  have hcounted : Counted (run (step data) (enqueue db t) events) :=
    run_invariant (fun _ e h => h.next e) (fun h => absurd h id) events
  refine ⟨hrecorded.rowsFor, hrecorded.kept, hrecorded.nodup,
    fun hstage => hcounted (hstage ▸ trivial), fun hinformed => ?_⟩
  have honce : Once (run (step data) (enqueue db t) events) :=
    states_invariant_of_steps (fun _ _ h hinformed => h.next hinformed)
      ⟨fun h => absurd h id, fun _ => rfl⟩ hinformed _ (run_mem_states _ _)
  have hrows : ∀ q, (run (step data) (enqueue db t) events).inserted = [q] → ∀ userId,
      (run (step data) (enqueue db t) events).rowsFor userId
        = if data.AddressedTo q.1 userId then 1 else 0 := by
    intro q hq userId
    rw [hrecorded.rowsFor, hq, List.countP_singleton]
    simp
  refine ⟨fun userId => ?_, fun hstage => ?_⟩
  · by_cases hafter : AfterInsert (run (step data) (enqueue db t) events).stage
    · obtain ⟨q, hq⟩ := honce.1 hafter
      rw [hrows q hq]
      split <;> decide
    · rw [hrecorded.rowsFor, honce.2 hafter]
      exact Nat.zero_le 1
  · obtain ⟨q, hq⟩ := honce.1 (hstage ▸ trivial)
    exact ⟨q, hq, hrows q hq⟩

/-- The worker stops between the insert of its first attempt and the acknowledgement. -/
def stopsBeforeAcknowledgement : List JobEvent :=
  createUsers.map .call ++
    [.take, .insert .answered, .stop, .take, .insert .answered, .publish true, .acknowledge]

/-- **A job that is delivered again inserts its rows again.** -/
theorem inserts_twice :
    let job := .genericModerator "New proposed debate!" "<rich-text>" .debate
    let s := run (step job) (enqueue (.empty id) .empty) stopsBeforeAcknowledgement
    s.stage = .completed ∧ s.attemptsMade = 0 ∧ s.rowsFor moderatorOne.id = 2 := by
  decide +kernel

end JobState

end DecentDebates

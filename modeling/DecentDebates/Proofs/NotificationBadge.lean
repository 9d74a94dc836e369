import DecentDebates.Proofs.CountStreams
import DecentDebates.NotificationBadge

set_option autoImplicit false

/-! # When the badge shows the number of unread notifications

As long as no response is to come, the badge and the messages on their way add up to the unread
notifications that are not about to be marked (`Balanced`). Every step keeps this, but for a stream
that opens and a last response that arrives or is lost (`balanced_step`). Whatever is on its way can
be brought to its end, so a state that is not balanced leads to a wrong badge (`balanced_iff`). -/

namespace DecentDebates.NotificationWidget

open Relational Transition

variable {user : UserCookieData}

/-! ## Unread notifications -/

theorem unmarked_of_nil {s : State} (h : s.marking = []) :
    s.unmarked user = NotificationService.getUnreadCount user s.table := by
  simp only [State.unmarked, NotificationState.getUnreadCount_eq, h, List.all_nil, Bool.and_true]

theorem unmarked_le (user : UserCookieData) (s : State) :
    s.unmarked user ≤ NotificationService.getUnreadCount user s.table := by
  rw [NotificationState.getUnreadCount_eq]
  refine List.countP_mono_left fun n _ h => ?_
  exact (Bool.and_eq_true _ _ ▸ h).1

theorem mem_marking_iff {s : State} {i : Nat} {ids ids' : List Int} (h : s.marking[i]? = some ids) :
    ids' ∈ s.marking ↔ ids' = ids ∨ ids' ∈ s.marking.eraseIdx i := by
  obtain ⟨hi, rfl⟩ := List.getElem?_eq_some_iff.1 h
  rw [← (List.getElem_cons_eraseIdx_perm hi).mem_iff, List.mem_cons]

/-- An update that runs marks what it was about to mark. -/
theorem unmarked_mark {s : State} {i : Nat} {ids : List Int} (h : s.marking[i]? = some ids) :
    State.unmarked user { s with
      marking := s.marking.eraseIdx i
      table := (NotificationService.markNotificationsAsRead ids s.table).2 } = s.unmarked user := by
  simp only [State.unmarked, markNotificationsAsRead_rows, List.countP_map]
  refine List.countP_congr fun n _ => ?_
  simp only [Function.comp, Bool.and_eq_true, List.all_eq_true, decide_eq_true_eq,
    mem_marking_iff h, forall_eq_or_imp]
  by_cases hid : n.id ∈ ids
  · simp [hid, NotificationService.unreadWhere]
  · simp [hid]

/-- Only ids that have been given out are about to be marked. -/
def Bounded (s : State) : Prop := ∀ ids ∈ s.marking, ∀ id ∈ ids, id < s.table.next

theorem unmarked_insert {s : State} (h : Bounded s) (title content : String) (recipientId : Int)
    (event : NotificationEvents) (stream : Option (List Nat)) :
    State.unmarked user { s with
      table := s.table.insert fun id => ⟨id, title, content, recipientId, event, some false⟩
      stream } = s.unmarked user + if recipientId = user.id then 1 else 0 := by
  have hnew : (s.marking.all fun ids => s.table.next ∉ ids) = true := by
    simp only [List.all_eq_true, decide_eq_true_eq]
    intro ids hids hmem
    exact absurd (h ids hids _ hmem) (Int.lt_irrefl _)
  simp only [State.unmarked, SerialTable.rows_insert, List.countP_append, List.countP_singleton,
    hnew, Bool.and_true]
  simp [NotificationService.unreadWhere]

/-! ## Every step -/

theorem mem_unreadNotifIds {t : NotificationTable} {id : Int}
    (h : id ∈ NotificationController.unreadNotifIds (NotificationService.getAll user t)) :
    id < t.next := by
  obtain ⟨n, hn, rfl⟩ := List.mem_map.1 h
  have hn := (List.mem_filter.1 hn).1
  rw [NotificationService.getAll, List.mem_mergeSort, mem_selectWhere] at hn
  exact t.fresh n hn.1

theorem bounded_step (s : State) (e : Step) (h : Bounded s) : Bounded (step user s e) := by
  cases e with
  | notify title content recipientId event =>
    intro ids hids id hid
    have hlt := h ids hids id hid
    show id < s.table.next + 1
    omega
  | getNotifications =>
    simp only [step]
    split
    · exact h
    · intro ids hids
      split at hids
      · exact h ids hids
      · rcases List.mem_append.1 hids with hids | hids
        · exact h ids hids
        · intro id hid
          rw [List.mem_singleton.1 hids] at hid
          exact mem_unreadNotifIds hid
  | markNotificationsAsRead i =>
    simp only [step]
    split
    · intro ids hids id hid
      rw [markNotificationsAsRead_next]
      exact h ids (List.mem_of_mem_eraseIdx hids) id hid
    · exact h
  | handleInteraction nextState =>
    simp only [step, handleInteraction]
    split_ifs <;> exact h
  | connect =>
    simp only [step]
    split <;> exact h
  | onMessage =>
    simp only [step]
    split <;> exact h
  | fetched i =>
    simp only [step]
    split <;> exact h
  | timeout i =>
    simp only [step]
    split <;> exact h
  | disconnect => exact h
  | requestFails => exact h
  | responseFails i => exact h

/-- With no response to come, the badge shows what it should once all messages have arrived and all
    updates have run. -/
def Balanced (user : UserCookieData) (s : State) : Prop :=
  ∀ queue, s.stream = some queue → s.requests = 0 → s.responses = [] →
    s.badge + queue.sum = s.unmarked user

@[simp] theorem getD_nextCount (count : Option Nat) (n : Nat) :
    (nextCount count n).getD 0 = count.getD 0 + n := by
  unfold nextCount
  simp only
  split
  · next h => exact h.symm
  · rfl

/-- Nothing that counts has changed. -/
theorem balanced_congr {s s' : State} (hstream : s'.stream = s.stream)
    (hrequests : s'.requests = s.requests) (hresponses : s'.responses = s.responses)
    (hbadge : s'.badge = s.badge) (hunmarked : s'.unmarked user = s.unmarked user) :
    Balanced user s' ↔ Balanced user s := by
  simp only [Balanced, hstream, hrequests, hresponses, hbadge, hunmarked]

/-- A message that arrives moves its count from the stream to the badge. -/
theorem balanced_onMessage (s : State) :
    Balanced user (step user s .onMessage) ↔ Balanced user s := by
  simp only [step]
  split
  · next unreadCount rest hstream =>
    have hsum : (nextCount s.unreadNotificationsCount unreadCount).getD 0 + rest.sum
        = s.badge + (unreadCount :: rest).sum := by
      rw [getD_nextCount, List.sum_cons, Nat.add_assoc]
      rfl
    constructor
    · intro h queue hqueue hreq hres
      obtain rfl := Option.some.inj (hstream.symm.trans hqueue)
      exact hsum.symm.trans (h rest rfl hreq hres)
    · intro h queue hqueue hreq hres
      obtain rfl := Option.some.inj hqueue
      exact hsum.trans (h _ hstream hreq hres)
  · exact Iff.rfl

theorem balanced_mark (s : State) (i : Nat) :
    Balanced user (step user s (.markNotificationsAsRead i)) ↔ Balanced user s := by
  simp only [step]
  split
  · next ids hids => exact balanced_congr rfl rfl rfl rfl (unmarked_mark hids)
  · exact Iff.rfl

theorem balanced_connect_iff {s : State} (h : Balanced user s) :
    Balanced user (step user s .connect) ↔ Fine user s .connect := by
  cases hstream : s.stream with
  | some queue =>
    simp only [step, Fine, hstream]
    exact ⟨fun _ => nofun, fun _ => h⟩
  | none =>
    simp only [step, Fine, hstream]
    have hle := unmarked_le user s
    constructor
    · intro hbalanced _ hreq hres
      have hsum : s.badge + [NotificationService.getUnreadCount user s.table].sum
          = s.unmarked user := hbalanced _ rfl hreq hres
      rw [List.sum_singleton] at hsum
      omega
    · intro hfine queue hqueue hreq hres
      obtain ⟨hbadge, hunmarked⟩ := hfine trivial hreq hres
      obtain rfl := Option.some.inj hqueue
      show s.badge + [NotificationService.getUnreadCount user s.table].sum = s.unmarked user
      rw [List.sum_singleton]
      omega

theorem balanced_fetched_iff {s : State} (h : Balanced user s) (i : Nat) :
    Balanced user (step user s (.fetched i)) ↔ Fine user s (.fetched i) := by
  cases hi : s.responses[i]? with
  | none =>
    simp only [step, Fine, hi]
    refine ⟨fun _ queue _ _ hlen hzero => ?_, fun _ => h⟩
    rw [hzero, List.getElem?_eq_none_iff, hlen] at hi
    exact absurd hi (by decide)
  | some rows =>
    simp only [step, Fine, hi]
    constructor
    · intro hbalanced queue hqueue hreq hlen hzero
      have hsum : 0 + queue.sum = s.unmarked user :=
        hbalanced queue hqueue hreq (List.eraseIdx_eq_nil_iff.2 (Or.inr ⟨hlen, hzero⟩))
      omega
    · intro hfine queue hqueue hreq hres
      rcases List.eraseIdx_eq_nil_iff.1 hres with hnil | ⟨hlen, hzero⟩
      · rw [hnil] at hi
        cases hi
      · show 0 + queue.sum = s.unmarked user
        rw [hfine queue hqueue hreq hlen hzero, Nat.zero_add]

theorem balanced_requestFails_iff {s : State} (h : Balanced user s) :
    Balanced user (step user s .requestFails) ↔ Fine user s .requestFails := by
  constructor
  · intro hbalanced queue hqueue hreq hres
    exact hbalanced queue hqueue (show s.requests - 1 = 0 by omega) hres
  · intro hfine queue hqueue hreq hres
    have hreq : s.requests - 1 = 0 := hreq
    obtain hzero | hone : s.requests = 0 ∨ s.requests = 1 := by omega
    · exact h queue hqueue hzero hres
    · exact hfine queue hqueue hone hres

theorem balanced_responseFails_iff {s : State} (h : Balanced user s) (i : Nat) :
    Balanced user (step user s (.responseFails i)) ↔ Fine user s (.responseFails i) := by
  constructor
  · intro hbalanced queue hqueue hreq hlen hzero
    exact hbalanced queue hqueue hreq (List.eraseIdx_eq_nil_iff.2 (Or.inr ⟨hlen, hzero⟩))
  · intro hfine queue hqueue hreq hres
    rcases List.eraseIdx_eq_nil_iff.1 hres with hnil | ⟨hlen, hzero⟩
    · exact h queue hqueue hreq hnil
    · exact hfine queue hqueue hreq hlen hzero

theorem balanced_step (s : State) (e : Step) (hs : Bounded s) (h : Balanced user s) :
    Balanced user (step user s e) ↔ Fine user s e := by
  cases e with
  | connect => exact balanced_connect_iff h
  | fetched i => exact balanced_fetched_iff h i
  | requestFails => exact balanced_requestFails_iff h
  | responseFails i => exact balanced_responseFails_iff h i
  | onMessage => exact ⟨fun _ => trivial, fun _ => (balanced_onMessage s).2 h⟩
  | markNotificationsAsRead i => exact ⟨fun _ => trivial, fun _ => (balanced_mark s i).2 h⟩
  | disconnect => exact ⟨fun _ => trivial, fun _ _ hqueue => nomatch hqueue⟩
  | notify title content recipientId event =>
    refine ⟨fun _ => trivial, fun _ queue hqueue hreq hres => ?_⟩
    simp only [step] at hqueue ⊢
    rw [unmarked_insert hs]
    by_cases huser : recipientId = user.id
    · simp only [if_pos huser] at hqueue ⊢
      obtain ⟨queue₀, hqueue₀, rfl⟩ := Option.map_eq_some_iff.1 hqueue
      rw [← h queue₀ hqueue₀ hreq hres, List.sum_append, List.sum_singleton, Nat.add_assoc]
      rfl
    · simp only [if_neg huser] at hqueue ⊢
      exact h queue hqueue hreq hres
  | handleInteraction nextState =>
    refine ⟨fun _ => trivial, fun _ => ?_⟩
    simp only [step, handleInteraction]
    split_ifs
    · exact h
    · exact (balanced_congr rfl rfl rfl rfl rfl).2 h
    · exact fun queue _ hreq => absurd hreq (Nat.succ_ne_zero _)
    · exact (balanced_congr rfl rfl rfl rfl rfl).2 h
  | getNotifications =>
    refine ⟨fun _ => trivial, fun _ => ?_⟩
    simp only [step]
    split
    · exact h
    · exact fun queue _ _ hres => absurd hres (List.append_ne_nil_of_right_ne_nil _ (by simp))
  | timeout i =>
    refine ⟨fun _ => trivial, fun _ => ?_⟩
    simp only [step]
    split
    · exact (balanced_congr rfl rfl rfl rfl rfl).2 h
    · exact h

/-! ## Bringing things to their end -/

/-- All messages that are on their way arrive. -/
theorem exists_run_onMessage (user : UserCookieData) (s : State) (queue : List Nat)
    (h : s.stream = some queue) :
    ∃ es : List Step, (∀ e ∈ es, e.Completes) ∧ (run (step user) s es).stream = some [] ∧
      (run (step user) s es).requests = s.requests ∧
      (run (step user) s es).responses = s.responses ∧
      (run (step user) s es).marking = s.marking := by
  induction queue generalizing s with
  | nil => exact ⟨[], by simp, h, rfl, rfl, rfl⟩
  | cons n queue ih =>
    have hstep : step user s .onMessage = { s with
        stream := some queue
        unreadNotificationsCount := nextCount s.unreadNotificationsCount n } := by
      simp only [step, h]
    obtain ⟨es, hes, hrun⟩ := ih (step user s .onMessage) (by rw [hstep])
    refine ⟨.onMessage :: es, List.forall_mem_cons.2 ⟨trivial, hes⟩, ?_⟩
    rw [hstep] at hrun
    rw [run_cons, hstep]
    exact hrun

/-- All updates that are under way run. -/
theorem exists_run_mark (user : UserCookieData) (s : State) :
    ∃ es : List Step, (∀ e ∈ es, e.Completes) ∧ (run (step user) s es).stream = s.stream ∧
      (run (step user) s es).requests = s.requests ∧
      (run (step user) s es).responses = s.responses ∧
      (run (step user) s es).marking = [] := by
  induction hmarking : s.marking generalizing s with
  | nil => exact ⟨[], by simp, rfl, rfl, rfl, hmarking⟩
  | cons ids marking ih =>
    have hstep : step user s (.markNotificationsAsRead 0) = { s with
        marking := marking
        table := (NotificationService.markNotificationsAsRead ids s.table).2 } := by
      simp only [step, hmarking]
      rfl
    obtain ⟨es, hes, hrun⟩ := ih (step user s (.markNotificationsAsRead 0)) (by rw [hstep])
    refine ⟨.markNotificationsAsRead 0 :: es, List.forall_mem_cons.2 ⟨trivial, hes⟩, ?_⟩
    rw [hstep] at hrun
    rw [run_cons, hstep]
    exact hrun

theorem balanced_completes (s : State) (e : Step) (he : e.Completes) :
    Balanced user (step user s e) ↔ Balanced user s := by
  cases e with
  | onMessage => exact balanced_onMessage s
  | markNotificationsAsRead i => exact balanced_mark s i
  | _ => exact absurd he id

/-- With the stream connected and no response to come, everything on its way can be brought to its
    end. -/
theorem exists_run_quiet (user : UserCookieData) {s : State} {queue : List Nat}
    (hstream : s.stream = some queue) (hreq : s.requests = 0) (hres : s.responses = []) :
    ∃ es : List Step, (∀ e ∈ es, e.Completes) ∧ (run (step user) s es).Quiet := by
  obtain ⟨es, hes, hstream₁, hreq₁, hres₁, -⟩ := exists_run_onMessage user s queue hstream
  obtain ⟨es', hes', hstream₂, hreq₂, hres₂, hmarking₂⟩ :=
    exists_run_mark user (run (step user) s es)
  refine ⟨es ++ es', List.forall_mem_append.2 ⟨hes, hes'⟩, ?_⟩
  rw [run_append]
  exact ⟨hstream₂.trans hstream₁, hreq₂.trans (hreq₁.trans hreq), hres₂.trans (hres₁.trans hres),
    hmarking₂⟩

theorem Balanced.showsUnread {s : State} (h : Balanced user s) : s.ShowsUnread user := by
  intro ⟨hstream, hreq, hres, hmarking⟩
  rw [← unmarked_of_nil hmarking, ← h [] hstream hreq hres, List.sum_nil, Nat.add_zero]

theorem balanced_of_quiet {s : State} (hquiet : s.Quiet) (h : s.ShowsUnread user) :
    Balanced user s := by
  intro queue hqueue _ _
  have hmarking : s.marking = [] := hquiet.2.2.2
  obtain rfl := Option.some.inj (hquiet.1.symm.trans hqueue)
  rw [List.sum_nil, Nat.add_zero, unmarked_of_nil hmarking]
  exact h hquiet

/-- A state is balanced exactly when the badge will be right, whatever is brought to its end first. -/
theorem balanced_iff (s : State) :
    Balanced user s ↔ ∀ es : List Step, (∀ e ∈ es, e.Completes) →
      (run (step user) s es).ShowsUnread user := by
  constructor
  · intro h es hes
    exact ((run_iff_of_forall balanced_completes hes s).2 h).showsUnread
  · intro h queue hqueue hreq hres
    obtain ⟨es, hes, hquiet⟩ := exists_run_quiet user hqueue hreq hres
    have hbalanced := balanced_of_quiet hquiet (h es hes)
    exact (run_iff_of_forall balanced_completes hes s).1 hbalanced queue hqueue hreq hres

/-! ## Whole runs -/

theorem bounded_mount (t : NotificationTable) : Bounded (.mount t) :=
  fun _ hids => absurd hids List.not_mem_nil

theorem balanced_mount (t : NotificationTable) : Balanced user (.mount t) :=
  fun _ hqueue => nomatch hqueue

/-- **The badge.** Whatever the table holds when the widget is mounted, and whatever happens then,
    the badge shows the number of unread notifications whenever nothing is on its way, and goes on to
    do so when what is on its way comes to its end, exactly when every step is fine. -/
theorem badge_shows_unread_iff (user : UserCookieData) (t : NotificationTable)
    (es : List Step) :
    (∀ s ∈ states (step user) (.mount t) es, ∀ es' : List Step, (∀ e ∈ es', e.Completes) →
      (run (step user) s es').ShowsUnread user) ↔
    ∀ p ∈ steps (step user) (.mount t) es, Fine user p.1 p.2 := by
  simp only [← balanced_iff]
  exact states_iff_steps bounded_step balanced_step (bounded_mount t) (balanced_mount t) es

/-- A user with one unread notification. -/
def oneUnread : NotificationTable :=
  (Relational.SerialTable.empty : NotificationTable).insert fun id =>
    ⟨id, "New comment!", "", testUser.id, .argument, some false⟩

/-- The connection is lost once, and the count is added to itself. -/
theorem reconnection_doubles_badge :
    ¬ ∀ (user : UserCookieData) (t : NotificationTable) (es : List Step),
      (run (step user) (.mount t) es).ShowsUnread user := by
  intro h
  have hquiet := h testUser oneUnread [.connect, .onMessage, .disconnect, .connect, .onMessage]
    ⟨rfl, rfl, rfl, rfl⟩
  exact absurd hquiet (by decide)

end DecentDebates.NotificationWidget

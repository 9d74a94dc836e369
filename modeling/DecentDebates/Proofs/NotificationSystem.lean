import DecentDebates.NotificationSystem
import DecentDebates.Proofs.Rows

set_option autoImplicit false

/-! # What a job inserts and whom its message reaches

The rows of a job and the messages that reach a count stream are both described by the job's
recipients: `insert_eq_ok` for the worker's statements, `increments_message` for the filter of the
API behind the JSON round trip. -/

namespace DecentDebates

open Relational Transition

/-! ## The worker's statements -/

/-- The ids that a job's statement inserts a row for, one by one. -/
def NotificationJobData.recipients (db : Database) : NotificationJobData → List Int
  | .genericModerator .. => (NotificationProcessor.moderators db).map UserRow.id
  | .ticketParticipant _ _ _ (.int recipientId) => [recipientId]
  | .ticketParticipant _ _ _ .other => []

/-- `t'` is `t` with new unread rows for the given recipients. -/
structure Inserts (recipients : List Int) (t t' : NotificationTable)
    (news : List NotificationRow) : Prop where
  rows : t'.rows = t.rows ++ news
  recipients : news.map NotificationRow.recipientId = recipients
  fresh : ∀ n ∈ news, t.next ≤ n.id
  unread : ∀ n ∈ news, n.isRead = some false
  next : t.next ≤ t'.next

theorem Inserts.nil (t : NotificationTable) : Inserts [] t t [] :=
  ⟨by simp, rfl, by simp, by simp, Int.le_refl _⟩

theorem Inserts.trans {ids ids' : List Int} {t t' t'' : NotificationTable}
    {news news' : List NotificationRow} (h : Inserts ids t t' news)
    (h' : Inserts ids' t' t'' news') : Inserts (ids ++ ids') t t'' (news ++ news') where
  rows := by rw [h'.rows, h.rows, List.append_assoc]
  recipients := by rw [List.map_append, h.recipients, h'.recipients]
  fresh := by
    intro n hn
    rcases List.mem_append.1 hn with hn | hn
    · exact h.fresh n hn
    · exact Int.le_trans h.next (h'.fresh n hn)
  unread := by
    intro n hn
    rcases List.mem_append.1 hn with hn | hn
    · exact h.unread n hn
    · exact h'.unread n hn
  next := Int.le_trans h.next h'.next

section Statements

variable {title content : String} {event : NotificationEvents} {db : Database}
  {t t' : NotificationTable}

theorem insertNotification_eq_ok {recipientId : Int}
    (h : NotificationProcessor.insertNotification title content event recipientId t = .ok t') :
    ∃ news, Inserts [recipientId] t t' news := by
  obtain ⟨title', -, h⟩ := except_bind_eq_ok.1 h
  split at h
  · cases h
    refine ⟨[⟨t.next, title', content, recipientId, event, some false⟩], rfl, rfl, ?_, ?_, ?_⟩
    · simp
    · simp
    · simp only [SerialTable.next_insert]
      omega
  · cases h

theorem insertFor_eq_ok {users : List UserRow}
    (h : users.foldlM (fun t u =>
      NotificationProcessor.insertNotification title content event u.id t) t = .ok t') :
    ∃ news, Inserts (users.map UserRow.id) t t' news := by
  induction users generalizing t with
  | nil =>
    cases h
    exact ⟨[], .nil _⟩
  | cons u users ih =>
    rw [List.foldlM_cons] at h
    obtain ⟨t₁, h₁, h⟩ := except_bind_eq_ok.1 h
    obtain ⟨news, hnews⟩ := insertNotification_eq_ok h₁
    obtain ⟨news', hnews'⟩ := ih h
    exact ⟨news ++ news', hnews.trans hnews'⟩

/-- **What the worker inserts for a job.** -/
theorem insert_eq_ok {data : NotificationJobData}
    (h : NotificationProcessor.insert data db t = .ok t') :
    ∃ news, Inserts (data.recipients db) t t' news := by
  cases data with
  | genericModerator title content event =>
    obtain ⟨title', -, h⟩ := except_bind_eq_ok.1 h
    obtain ⟨content', -, h⟩ := except_bind_eq_ok.1 h
    exact insertFor_eq_ok h
  | ticketParticipant title content event recipientId =>
    obtain ⟨id, hid, hrest⟩ := except_bind_eq_ok.1 h
    obtain ⟨content', -, hrest⟩ := except_bind_eq_ok.1 hrest
    obtain ⟨t₁, ht₁, hrest⟩ := except_bind_eq_ok.1 hrest
    obtain ⟨rfl, -⟩ := int4_eq_ok.1 hid
    split at hrest
    · cases hrest
      exact insertNotification_eq_ok ht₁
    · cases hrest

/-- The recipient of a job that succeeds is a column value. -/
theorem isInt4_of_insert {recipientId : JsNumber}
    (h : NotificationProcessor.insert (.ticketParticipant title content event recipientId) db t
      = .ok t') : ∃ n, recipientId = .int n ∧ IsInt4 n := by
  obtain ⟨id, hid, -⟩ := except_bind_eq_ok.1 h
  exact ⟨id, int4_eq_ok.1 hid⟩

end Statements

theorem mem_moderators {db : Database} {u : UserRow} :
    u ∈ NotificationProcessor.moderators db ↔ u ∈ db.users.rows ∧ u.role = some .moderator := by
  rw [NotificationProcessor.moderators, mem_selectWhere, Truth.holds_eq_some, decide_eq_true_eq]

/-- Nobody is inserted for twice. -/
theorem recipients_nodup (data : NotificationJobData) (db : Database) :
    (data.recipients db).Nodup := by
  cases data with
  | genericModerator =>
    exact db.users.nodup.sublist (List.filter_sublist.map UserRow.id)
  | ticketParticipant _ _ _ recipientId =>
    cases recipientId with
    | int n => exact List.nodup_singleton n
    | other => exact List.nodup_nil

theorem Inserts.countP {ids : List Int} {t t' : NotificationTable} {news : List NotificationRow}
    (h : Inserts ids t t' news) (hids : ids.Nodup) (userId : Int) :
    news.countP (fun n => n.recipientId = userId) = if userId ∈ ids then 1 else 0 := by
  have hcount : news.countP (fun n => n.recipientId = userId) = ids.count userId := by
    rw [← h.recipients, List.count, List.countP_map]
    rfl
  rw [hcount]
  by_cases hu : userId ∈ ids
  · rw [if_pos hu, List.count_eq_one_of_mem hids hu]
  · rw [if_neg hu, List.count_eq_zero_of_not_mem hu]

/-! ## The message behind the JSON round trip -/

theorem increments_generic (user : UserCookieData) :
    NotificationController.increments user NotificationMessage.genericModerator.text
      = decide (user.role = some .moderator) := by
  rw [NotificationController.increments, NotificationMessage.text, Json.parse_print]
  rfl

theorem increments_participant (user : UserCookieData) {n : Int} (hn : IsInt4 n) :
    NotificationController.increments user (NotificationMessage.ticketParticipant (.int n)).text
      = decide (n = user.id) := by
  rw [NotificationController.increments, NotificationMessage.text, Json.parse_print]
  have hround : JsNumber.ofLexeme (.ofInt n) = .int n := by
    refine ofLexeme_ofInt ?_
    simp only [IsInt4, int4Min, int4Max] at hn
    omega
  show decide (JsNumber.ofLexeme (.ofInt n) = .int user.id) = _
  rw [hround]
  simp

/-- The session of a user whose row is in the table, with the id and the role that the row has. -/
def Database.Knows (db : Database) (user : UserCookieData) : Prop :=
  ∃ u ∈ db.users.rows, getUserCookieFields u = user

theorem Database.Knows.next {db : Database} {user : UserCookieData} (h : db.Knows user)
    (c : Call) : (step db c).Knows user := by
  obtain ⟨u, hu, rfl⟩ := h
  exact ⟨u, (step_effect db c).user_next hu, rfl⟩

/-- **A message reaches exactly the recipients of its job.** -/
theorem increments_message {data : NotificationJobData} {db : Database} {t t' : NotificationTable}
    (h : NotificationProcessor.insert data db t = .ok t') {user : UserCookieData}
    (huser : db.Knows user) :
    NotificationController.increments user (NotificationProcessor.message data).text = true ↔
      user.id ∈ data.recipients db := by
  obtain ⟨u, hu, rfl⟩ := huser
  cases data with
  | genericModerator =>
    rw [NotificationProcessor.message, increments_generic, decide_eq_true_eq,
      NotificationJobData.recipients, List.mem_map]
    constructor
    · exact fun hrole => ⟨u, mem_moderators.2 ⟨hu, hrole⟩, rfl⟩
    · rintro ⟨u', hu', hid⟩
      obtain ⟨hmem, hrole⟩ := mem_moderators.1 hu'
      rwa [SerialTable.eq_of_rowId_eq hmem hu hid] at hrole
  | ticketParticipant _ _ _ recipientId =>
    obtain ⟨n, rfl, hn⟩ := isInt4_of_insert h
    rw [NotificationProcessor.message, increments_participant _ hn, decide_eq_true_eq,
      NotificationJobData.recipients, List.mem_singleton]
    exact eq_comm

/-! ## One step of the system -/

theorem markNotificationsAsRead_rows (ids : List Int) (t : NotificationTable) :
    (NotificationService.markNotificationsAsRead ids t).2.rows = t.rows.map fun n =>
      if decide (n.id ∈ ids) then { n with isRead := some true } else n := by
  unfold NotificationService.markNotificationsAsRead
  simp only
  split <;> rfl

theorem markNotificationsAsRead_next (ids : List Int) (t : NotificationTable) :
    (NotificationService.markNotificationsAsRead ids t).2.next = t.next := by
  unfold NotificationService.markNotificationsAsRead
  simp only
  split <;> rfl

namespace NotificationState

/-- A run of the tests starts with the accounts. -/
theorem run_createUsers_append (lower : String → String) (events : List NotificationEvent) :
    run step (empty lower) (createUsers.map .call ++ events) =
      run step { empty lower with db := .withUsers lower } events := by
  have hcalls : run step (empty lower) (createUsers.map .call) =
      { empty lower with db := run DecentDebates.step (.empty lower) createUsers } :=
    run_map (fun db => ({ empty lower with db } : NotificationState)) (fun _ _ => rfl) _ _
  rw [run_append, hcalls, DecentDebates.run_createUsers]

/-- What a step does to the stream at a position. -/
def streamStep (s : NotificationState) (i : Nat) (e : NotificationEvent) (st : CountStream) :
    CountStream :=
  match e with
  | .deliver =>
    match s.channel with
    | notice :: _ => st.next notice.msg.text
    | [] => st
  | .snapshot j => if j = i then st.snapshot s.notifications else st
  | .resolve j => if j = i then st.resolve else st
  | .subscribe j => if j = i then st.subscribe else st
  | .disconnect j => if j = i then st.close else st
  | _ => st

theorem user_streamStep (s : NotificationState) (i : Nat) (e : NotificationEvent)
    (st : CountStream) : (s.streamStep i e st).user = st.user := by
  cases e with
  | deliver =>
    simp only [streamStep]
    split
    · exact CountStream.user_next ..
    · rfl
  | snapshot j =>
    simp only [streamStep]
    split
    · exact CountStream.user_snapshot ..
    · rfl
  | resolve j =>
    simp only [streamStep]
    split
    · exact CountStream.user_resolve ..
    · rfl
  | subscribe j =>
    simp only [streamStep]
    split
    · exact CountStream.user_subscribe ..
    · rfl
  | disconnect j =>
    simp only [streamStep]
    split <;> rfl
  | _ => rfl

theorem onStream_getElem? {s : NotificationState} {i j : Nat} {f : CountStream → CountStream}
    {st : CountStream} (hst : s.streams[i]? = some st) :
    (s.onStream j f).streams[i]? = some (if j = i then f st else st) := by
  rw [onStream, List.getElem?_modify, hst]
  by_cases hij : j = i
  · simp [hij]
  · simp [hij]

/-- Streams keep their position. -/
theorem step_stream {s : NotificationState} {i : Nat} {st : CountStream}
    (hst : s.streams[i]? = some st) (e : NotificationEvent) :
    (step s e).streams[i]? = some (s.streamStep i e st) := by
  cases e with
  | call c => exact hst
  | signIn userId =>
    simp only [step]
    split <;> exact hst
  | handle data =>
    simp only [step]
    split <;> exact hst
  | skipIds n => exact hst
  | publish j succeeds =>
    simp only [step]
    split
    · split <;> exact hst
    · exact hst
  | deliver =>
    cases hchannel : s.channel with
    | nil =>
      simp only [step, streamStep, hchannel]
      exact hst
    | cons notice rest =>
      simp only [step, streamStep, hchannel, List.getElem?_map, hst, Option.map_some]
  | openStream session =>
    simp only [step]
    split
    · have hi := (List.getElem?_eq_some_iff.1 hst).1
      rw [List.getElem?_append_left hi]
      exact hst
    · exact hst
  | snapshot j => exact onStream_getElem? hst
  | resolve j => exact onStream_getElem? hst
  | subscribe j => exact onStream_getElem? hst
  | disconnect j => exact onStream_getElem? hst
  | getNotifications session =>
    simp only [step]
    split
    · split <;> exact hst
    · exact hst
  | markNotificationsAsRead j succeeds =>
    simp only [step]
    split
    · split <;> exact hst
    · exact hst

/-- The step is a job that is handled: its statement succeeds. -/
def Handles (s : NotificationState) (e : NotificationEvent) : Prop :=
  ∃ data t, e = .handle data ∧ NotificationProcessor.insert data s.db s.notifications = .ok t

/-- What a step can do to the `notification` table. -/
inductive TableStep (s : NotificationState) : NotificationEvent → NotificationTable → Prop
  | same {e : NotificationEvent} {t : NotificationTable} : ¬ s.Handles e →
      t.rows = s.notifications.rows → s.notifications.next ≤ t.next → TableStep s e t
  | insert {data : NotificationJobData} {t : NotificationTable} {news : List NotificationRow} :
      NotificationProcessor.insert data s.db s.notifications = .ok t →
        Inserts (data.recipients s.db) s.notifications t news → TableStep s (.handle data) t
  | mark {i : Nat} {ids : List Int} :
      s.marking[i]? = some ids → TableStep s (.markNotificationsAsRead i true)
        (NotificationService.markNotificationsAsRead ids s.notifications).2

theorem not_handles {s : NotificationState} {e : NotificationEvent}
    (he : ∀ data, e ≠ .handle data) : ¬ s.Handles e := by
  rintro ⟨data, t, rfl, -⟩
  exact he data rfl

theorem not_handles_of_error {s : NotificationState} {data : NotificationJobData} {err : SqlError}
    (h : NotificationProcessor.insert data s.db s.notifications = .error err) :
    ¬ s.Handles (.handle data) := by
  rintro ⟨data', t, he, ht⟩
  cases he
  rw [h] at ht
  cases ht

theorem tableStep (s : NotificationState) (e : NotificationEvent) :
    TableStep s e (step s e).notifications := by
  have hsame : ∀ e, (∀ data, e ≠ .handle data) → TableStep s e s.notifications :=
    fun e he => .same (not_handles he) rfl (Int.le_refl _)
  cases e with
  | call c => exact hsame _ (by simp)
  | signIn userId =>
    simp only [step]
    split <;> exact hsame _ (by simp)
  | handle data =>
    simp only [step]
    split
    · next t ht =>
      obtain ⟨news, hnews⟩ := insert_eq_ok ht
      exact .insert ht hnews
    · next err herr => exact .same (not_handles_of_error herr) rfl (Int.le_refl _)
  | skipIds n =>
    refine .same (not_handles (by simp)) rfl ?_
    show s.notifications.next ≤ s.notifications.next + n
    omega
  | publish i succeeds =>
    simp only [step]
    split
    · split <;> exact hsame _ (by simp)
    · exact hsame _ (by simp)
  | deliver =>
    simp only [step]
    split <;> exact hsame _ (by simp)
  | openStream session =>
    simp only [step]
    split <;> exact hsame _ (by simp)
  | snapshot i => exact hsame _ (by simp)
  | resolve i => exact hsame _ (by simp)
  | subscribe i => exact hsame _ (by simp)
  | disconnect i => exact hsame _ (by simp)
  | getNotifications session =>
    simp only [step]
    split
    · split <;> exact hsame _ (by simp)
    · exact hsame _ (by simp)
  | markNotificationsAsRead i succeeds =>
    simp only [step]
    split
    · next ids hids =>
      split
      · next hsucceeds =>
        subst hsucceeds
        exact .mark hids
      · exact hsame _ (by simp)
    · exact hsame _ (by simp)

/-- A row after a step is new and unread, or it was there before and is as it was, or one of the
    ids that wait to be marked is its id. -/
theorem step_row_prev {s : NotificationState} {e : NotificationEvent} {r' : NotificationRow}
    (h : r' ∈ (step s e).notifications.rows) :
    (s.notifications.next ≤ r'.id ∧ r'.isRead = some false) ∨
      ∃ r ∈ s.notifications.rows, r.id = r'.id ∧ r.recipientId = r'.recipientId ∧
        (r' = r ∨ ∃ ids ∈ s.marking, r.id ∈ ids) := by
  have hstep := tableStep s e
  generalize (step s e).notifications = t at h hstep
  cases hstep with
  | same _ hrows =>
    rw [hrows] at h
    exact Or.inr ⟨r', h, rfl, rfl, Or.inl rfl⟩
  | insert hinsert hnews =>
    rw [hnews.rows] at h
    rcases List.mem_append.1 h with h | h
    · exact Or.inr ⟨r', h, rfl, rfl, Or.inl rfl⟩
    · exact Or.inl ⟨hnews.fresh r' h, hnews.unread r' h⟩
  | @mark i ids hids =>
    rw [markNotificationsAsRead_rows] at h
    obtain ⟨r, hr, rfl⟩ := List.mem_map.1 h
    right
    by_cases hmem : r.id ∈ ids
    · refine ⟨r, hr, ?_, ?_, Or.inr ⟨_, List.mem_of_getElem? hids, hmem⟩⟩
      · split <;> rfl
      · split <;> rfl
    · refine ⟨r, hr, ?_, ?_, Or.inl ?_⟩
      · split <;> rfl
      · split <;> rfl
      · rw [if_neg (by simpa using hmem)]

/-- Rows stay, with their recipients, and what is read stays read. -/
theorem step_row_next {s : NotificationState} (e : NotificationEvent) {r : NotificationRow}
    (h : r ∈ s.notifications.rows) :
    ∃ r' ∈ (step s e).notifications.rows, r'.id = r.id ∧ r'.recipientId = r.recipientId ∧
      (r.isRead = some true → r'.isRead = some true) := by
  have hstep := tableStep s e
  generalize (step s e).notifications = t at hstep ⊢
  cases hstep with
  | same _ hrows => exact ⟨r, hrows ▸ h, rfl, rfl, id⟩
  | insert hinsert hnews =>
    exact ⟨r, hnews.rows ▸ List.mem_append_left _ h, rfl, rfl, id⟩
  | mark hids =>
    refine ⟨_, markNotificationsAsRead_rows _ _ ▸ List.mem_map_of_mem h, ?_⟩
    split
    · exact ⟨rfl, rfl, fun _ => rfl⟩
    · exact ⟨rfl, rfl, id⟩

/-- Whoever has a session or a stream is in the table, with the same id and role. -/
structure Signed (s : NotificationState) : Prop where
  sessions : ∀ user ∈ s.sessions, s.db.Knows user
  streams : ∀ st ∈ s.streams, s.db.Knows st.user

theorem signed_empty (lower : String → String) : (empty lower).Signed :=
  ⟨by simp [empty], by simp [empty]⟩

theorem Signed.onStream {s : NotificationState} (h : s.Signed) (i : Nat)
    {f : CountStream → CountStream} (hf : ∀ st, (f st).user = st.user) :
    (s.onStream i f).Signed := by
  refine ⟨h.sessions, fun st hst => ?_⟩
  obtain ⟨j, hj⟩ := List.getElem?_of_mem hst
  rw [NotificationState.onStream, List.getElem?_modify] at hj
  obtain ⟨st₀, hst₀, rfl⟩ := Option.map_eq_some_iff.1 hj
  have hknows := h.streams st₀ (List.mem_of_getElem? hst₀)
  split
  · rwa [hf]
  · exact hknows

theorem Signed.next {s : NotificationState} (h : s.Signed) (e : NotificationEvent) :
    (step s e).Signed := by
  cases e with
  | call c =>
    exact ⟨fun user huser => (h.sessions user huser).next c,
      fun st hst => (h.streams st hst).next c⟩
  | signIn userId =>
    simp only [step]
    split
    · next row hrow =>
      obtain ⟨hmem, -⟩ := SerialTable.find?_eq_some.1 hrow
      refine ⟨fun user huser => ?_, h.streams⟩
      rcases List.mem_append.1 huser with huser | huser
      · exact h.sessions user huser
      · rw [List.mem_singleton.1 huser]
        exact ⟨row, hmem, rfl⟩
    · exact h
  | handle data =>
    simp only [step]
    split
    · exact ⟨h.sessions, h.streams⟩
    · exact h
  | skipIds n => exact ⟨h.sessions, h.streams⟩
  | publish i succeeds =>
    simp only [step]
    split
    · split
      · exact ⟨h.sessions, h.streams⟩
      · exact ⟨h.sessions, h.streams⟩
    · exact h
  | deliver =>
    simp only [step]
    split
    · refine ⟨h.sessions, fun st hst => ?_⟩
      obtain ⟨st₀, hst₀, rfl⟩ := List.mem_map.1 hst
      rw [CountStream.user_next]
      exact h.streams st₀ hst₀
    · exact h
  | openStream session =>
    simp only [step]
    split
    · next user huser =>
      refine ⟨h.sessions, fun st hst => ?_⟩
      rcases List.mem_append.1 hst with hst | hst
      · exact h.streams st hst
      · rw [List.mem_singleton.1 hst]
        exact h.sessions user (List.mem_of_getElem? huser)
    · exact h
  | snapshot i => exact h.onStream i (CountStream.user_snapshot _)
  | resolve i => exact h.onStream i CountStream.user_resolve
  | subscribe i => exact h.onStream i CountStream.user_subscribe
  | disconnect i => exact h.onStream i CountStream.user_close
  | getNotifications session =>
    simp only [step]
    split
    · split
      · exact h
      · exact ⟨h.sessions, h.streams⟩
    · exact h
  | markNotificationsAsRead i succeeds =>
    simp only [step]
    split
    · split
      · exact ⟨h.sessions, h.streams⟩
      · exact ⟨h.sessions, h.streams⟩
    · exact h

theorem Reachable.signed {s : NotificationState} (h : s.Reachable) : s.Signed :=
  h.invariant signed_empty fun _ e hs => hs.next e

end NotificationState

end DecentDebates

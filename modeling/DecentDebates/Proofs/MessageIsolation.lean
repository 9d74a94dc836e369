import DecentDebates.MessageIsolation
import DecentDebates.Proofs.ReviewMessages

set_option autoImplicit false

/-! # A failed message affects only its sender: proofs

Each service either accepts its arguments and writes one row, or leaves the tables as they are
(`Decides`). A handler does nothing before its service call but look at the payload and the socket,
so it ends in one of two ways (`Refused`, `Written`); only the second may still throw. -/

namespace DecentDebates

open Relational Effects Json

variable {P : Platform} {db db' : Database} {socket : Socket} {user : UserCookieData}

/-! ## Services -/

theorem RowChange.oneRowWritten {message : ReviewMessage} {ticketId : String}
    (h : RowChange db db' message ticketId) : OneRowWritten db db' := by
  cases h with
  | inserted tc _ hnew _ hrows => exact .inserted _ hnew hrows
  | updated r r' hr _ hkey _ hrows => exact .updated r r' hr hkey hrows

/-- A service writes one row if it accepts its arguments, and otherwise it rejects or reports that
    it has touched no row. -/
structure Decides {α : Type} (P : Platform) (service : Database → Outcome α) (touched : α → Prop)
    (accepted : Prop) (db : Database) : Prop where
  accepts : accepted → ∃ a db', touched a ∧ service db = .resolve a db' ∧ OneRowWritten db db' ∧
    db.SameElsewhere db'
  refuses : ¬ accepted →
    (∃ e, service db = .reject e db ∧ (HandlerError.service e).message P ≠ "") ∨
    ∃ a, ¬ touched a ∧ service db = .resolve a db

theorem addCommentSql_accepted {linked : Database → Int → Bool} (now : Timestamp)
    {d : AddCommentData} (h : d.Accepted linked db) :
    ∃ comment db', addCommentSql linked now d db = .ok ([comment], db') := by
  obtain ⟨ticketId, hticket, htext, hlinked, hconnected, hnext, u, hu, hid⟩ := h
  have hcond : (linked db ticketId &&
      db.tickets.rows.any fun t => (participantWhere ticketId d.commenterId t).holds) = true := by
    rw [Bool.and_eq_true, participantWhere_any]
    exact ⟨hlinked, hconnected⟩
  have huser : (db.users.rows.any fun u => u.id = d.commenterId) = true :=
    List.any_eq_true.2 ⟨u, hu, decide_eq_true hid⟩
  let row := d.row now ticketId d.content
  refine ⟨Comment.ofRows (row db.ticketComments.next, u),
    { db with ticketComments := db.ticketComments.insert row }, ?_⟩
  simp only [addCommentSql, Sql.bind_eq_ok, Sql.get_eq_ok, Sql.lift_eq_ok, text_eq_ok]
  refine ⟨_, _, ⟨rfl, rfl⟩, ticketId, _, ⟨hticket, rfl⟩, _, _, ⟨⟨htext, rfl⟩, rfl⟩, ?_⟩
  simp only [hcond, if_true, Sql.bind_eq_ok, Sql.check_eq_ok, Sql.set_eq_ok, Sql.pure_eq_ok]
  exact ⟨⟨⟩, _, ⟨decide_eq_true hnext, rfl⟩, ⟨⟩, _, ⟨huser, rfl⟩, ⟨⟩, _, rfl,
    innerJoin_author _ hu hid, rfl⟩

theorem addCommentSql_cons {linked : Database → Int → Bool} {now : Timestamp} {d : AddCommentData}
    {comment : Comment} {comments : List Comment}
    (h : addCommentSql linked now d db = .ok (comment :: comments, db')) :
    d.Accepted linked db := by
  simp only [addCommentSql, Sql.bind_eq_ok, Sql.get_eq_ok, Sql.lift_eq_ok, text_eq_ok] at h
  obtain ⟨_, _, ⟨rfl, rfl⟩, ticketId, _, ⟨hticket, rfl⟩, content, _, ⟨⟨htext, -⟩, rfl⟩, h⟩ := h
  split at h
  · next hcond =>
    simp only [Sql.bind_eq_ok, Sql.check_eq_ok] at h
    obtain ⟨_, _, ⟨hnext, rfl⟩, _, _, ⟨huser, rfl⟩, -⟩ := h
    rw [Bool.and_eq_true, participantWhere_any] at hcond
    obtain ⟨u, hu, hid⟩ := List.any_eq_true.1 huser
    exact ⟨ticketId, hticket, htext, hcond.1, hcond.2, of_decide_eq_true hnext, u, hu,
      of_decide_eq_true hid⟩
  · rw [Sql.pure_eq_ok] at h
    exact nomatch h.1

theorem addComment_reject_message {linked : Database → Int → Bool} {now : Timestamp}
    {d : AddCommentData} {e : ServiceError} (h : (addComment linked now d db).result = .error e) :
    (HandlerError.service e).message P ≠ "" := by
  unfold addComment at h
  split at h
  · cases h
    show "Entity " ++ "ticket" ++ " not found." ≠ ""
    decide
  · cases h
  · cases h
    exact P.message_ne _

theorem addComment_decides (linked : Database → Int → Bool) (now : Timestamp)
    (d : AddCommentData) :
    Decides P (addComment linked now d) (fun _ => True) (d.Accepted linked db) db where
  accepts := by
    intro h
    obtain ⟨comment, db₁, hok⟩ := addCommentSql_accepted now h
    rcases addComment_cases linked now d db with
      ⟨ticketId, content, u, -, -, -, -, -, hadd⟩ | ⟨e, hadd⟩
    · exact ⟨_, _, trivial, hadd, .inserted _ (fun _ hr => reviewRow_key_ne_next (fun _ => rfl) hr)
        (fun _ => mem_reviewRows_insert (fun _ => rfl)), rfl⟩
    · simp [addComment, Sql.commit_of_ok hok, Outcome.resolve, Outcome.reject] at hadd
  refuses := by
    intro h
    rcases addComment_cases linked now d db with
      ⟨ticketId, content, u, -, -, -, -, -, hadd⟩ | ⟨e, hadd⟩
    · exfalso
      unfold addComment at hadd
      split at hadd
      · cases congrArg Outcome.result hadd
      · next hcommit =>
        refine h (addCommentSql_cons (Sql.commit_eq_ok.1 (congrArg Prod.fst hcommit)))
      · cases congrArg Outcome.result hadd
    · exact Or.inl ⟨e, hadd, addComment_reject_message (congrArg Outcome.result hadd)⟩

/-- The services that run one update and return how many rows it has touched. -/
theorem Decides.of_update {service : Database → Outcome Nat} {accepted : Prop} (sql : Sql Nat)
    (message : String) (hmessage : message ≠ "")
    (hservice : service db = match sql.commit db with
      | (.ok rowCount, db') => .resolve rowCount db'
      | (.error _, db') => .reject (.error message) db')
    (haccepts : accepted → ∃ n db', n ≠ 0 ∧ sql db = .ok (n, db'))
    (htouched : ∀ n db', sql db = .ok (n, db') → n ≠ 0 →
      accepted ∧ OneRowWritten db db' ∧ db.SameElsewhere db')
    (huntouched : ∀ db', sql db = .ok (0, db') → db' = db) :
    Decides P service (· ≠ 0) accepted db where
  accepts := by
    intro h
    obtain ⟨n, db', hn, hok⟩ := haccepts h
    obtain ⟨-, hrow, helse⟩ := htouched n db' hok hn
    rw [Sql.commit_of_ok hok] at hservice
    exact ⟨n, db', hn, hservice, hrow, helse⟩
  refuses := by
    intro h
    rcases Sql.commit_cases sql db with ⟨n, db', hok, hcommit⟩ | ⟨e, -, hcommit⟩
    · rw [hcommit] at hservice
      by_cases hn : n = 0
      · subst hn
        obtain rfl := huntouched db' hok
        exact Or.inr ⟨0, not_not.2 rfl, hservice⟩
      · exact absurd (htouched n db' hok hn).1 h
    · rw [hcommit] at hservice
      exact Or.inl ⟨_, hservice, hmessage⟩

theorem updateComment_decides (now : Timestamp) (user : UserCookieData) (d : UpdateCommentData) :
    Decides P (updateComment now user d) (· ≠ 0) (d.Accepted user.id db) db := by
  refine .of_update (updateCommentSql now user d)
    "An error occurred while fetching the comments." (by decide) rfl ?_ ?_ ?_
  · rintro ⟨htext, tc, htc, hid, hauthor⟩
    refine ⟨_, _, ?_, updateCommentSql_eq_ok.2 ⟨some tc.id, htext, hid, rfl, rfl⟩⟩
    exact (List.countP_pos_iff.2 ⟨tc, htc, updateCommentWhere_holds.2 ⟨rfl, hauthor⟩⟩).ne'
  · intro n db' hok hn
    have hrow : RowChange db db' (.commentDebateUpdate d) "" :=
      .of_updateComment (fun _ => Iff.rfl) hok hn
    obtain ⟨commentId, htext, hid, rfl, rfl⟩ := updateCommentSql_eq_ok.1 hok
    obtain ⟨tc, htc, hw⟩ := List.countP_pos_iff.1 (Nat.pos_of_ne_zero hn)
    obtain ⟨rfl, hauthor⟩ := updateCommentWhere_holds.1 hw
    exact ⟨⟨htext, tc, htc, hid, hauthor⟩, hrow.oneRowWritten, rfl⟩
  · intro db' hok
    obtain ⟨commentId, -, -, hn, rfl⟩ := updateCommentSql_eq_ok.1 hok
    rw [SerialTable.updateWhere_eq_self _ hn.symm]

theorem updateArgument_decides (d : UpdateArgumentData) :
    Decides P (updateArgument d) (· ≠ 0) (d.Accepted db) db := by
  refine .of_update (updateArgumentSql d)
    "An error occurred while updating the argument." (by decide) rfl ?_ ?_ ?_
  · rintro ⟨⟨given, title, hgiven, htitle⟩, ⟨content, hcontent, htext⟩, a, ha, t, ht, hid, hauthor,
      hopen, hticket⟩
    have hw := updateArgumentWhere_holds.2 ⟨rfl, hauthor, hopen, hticket⟩
    refine ⟨_, _, ?hn, (updateArgumentSql_eq_ok_of_ne_zero ?hn).2
      ⟨given, title, content, a.id, hgiven, htitle, hcontent, htext, hid, rfl, rfl⟩⟩
    exact (List.countP_pos_iff.2 ⟨a, ha, List.any_eq_true.2 ⟨t, ht, hw⟩⟩).ne'
  · intro n db' hok hn
    have hrow : RowChange db db'
        (.argumentUpdate ⟨some ⟨some d.argumentId, none, none⟩, .other, "", "", .other, .other⟩) "" :=
      .of_updateArgument (fun a ha => ⟨_, rfl, congrArg some ha⟩) hok hn
    obtain ⟨given, title, content, argumentId, hgiven, htitle, hcontent, htext, hid, rfl, rfl⟩ :=
      (updateArgumentSql_eq_ok_of_ne_zero hn).1 hok
    obtain ⟨a, ha, hw⟩ := List.countP_pos_iff.1 (Nat.pos_of_ne_zero hn)
    obtain ⟨t, ht, hw⟩ := List.any_eq_true.1 hw
    obtain ⟨rfl, hauthor, hopen, hticket⟩ := updateArgumentWhere_holds.1 hw
    exact ⟨⟨⟨given, title, hgiven, htitle⟩, ⟨content, hcontent, htext⟩, a, ha, t, ht, hid, hauthor,
      hopen, hticket⟩, hrow.oneRowWritten, rfl⟩
  · exact fun db' hok => updateArgumentSql_of_zero hok

theorem updateDebate_decides (d : UpdateDebateData) :
    Decides P (updateDebate d) (· ≠ 0) (d.Accepted db) db := by
  refine .of_update (updateDebateSql d)
    "An error occurred while updating the debate." (by decide) rfl ?_ ?_ ?_
  · rintro ⟨⟨given, title, hgiven, htitle⟩, x, hx, t, ht, hid, hauthor, hticket, hopen⟩
    have hw := updateDebateWhere_holds.2 ⟨rfl, hauthor, hticket, hopen⟩
    refine ⟨_, _, ?hn, (updateDebateSql_eq_ok_of_ne_zero ?hn).2
      ⟨given, title, x.id, hgiven, htitle, hid, rfl, rfl⟩⟩
    exact (List.countP_pos_iff.2 ⟨x, hx, List.any_eq_true.2 ⟨t, ht, hw⟩⟩).ne'
  · intro n db' hok hn
    have hrow : RowChange db db'
        (.debateUpdate ⟨some ⟨some d.debateId, none⟩, "", .other, .other, .other⟩) "" :=
      .of_updateDebate (fun x hx => ⟨_, rfl, congrArg some hx⟩) hok hn
    obtain ⟨given, title, debateId, hgiven, htitle, hid, rfl, rfl⟩ :=
      (updateDebateSql_eq_ok_of_ne_zero hn).1 hok
    obtain ⟨x, hx, hw⟩ := List.countP_pos_iff.1 (Nat.pos_of_ne_zero hn)
    obtain ⟨t, ht, hw⟩ := List.any_eq_true.1 hw
    obtain ⟨rfl, hauthor, hticket, hopen⟩ := updateDebateWhere_holds.1 hw
    exact ⟨⟨⟨given, title, hgiven, htitle⟩, x, hx, t, ht, hid, hauthor, hticket, hopen⟩,
      hrow.oneRowWritten, rfl⟩
  · exact fun db' hok => updateDebateSql_of_zero hok

/-! ## Values -/

/-- Reading a property either works for every name, or throws for every name. -/
theorem JsValue.get_cases (v : JsValue) :
    (∀ name, v.get name = .ok (v.member name)) ∨
      ∀ name, v.member name = none ∧ ∃ message, v.get name = .error message ∧ message ≠ "" := by
  have herror : ∀ what name : String,
      ("Cannot read properties of " ++ what ++ " (reading '") ++ name ++ "')" ≠ "" := by
    simp
  rcases v with _ | v
  · exact Or.inr fun name => ⟨rfl, _, rfl, herror "undefined" name⟩
  · cases v
    case null => exact Or.inr fun name => ⟨rfl, _, rfl, herror "null" name⟩
    all_goals exact Or.inl fun name => rfl

theorem JsValue.get_of_truthy {v : JsValue} (h : v.truthy = true) (name : String) :
    v.get name = .ok (v.member name) := by
  rcases v with _ | v
  · exact nomatch h
  · cases v
    case null => exact nomatch h
    all_goals rfl

theorem unaryPlus_cases (v : JsValue) :
    (v.Convertible ∧ ∃ n, unaryPlus v = .ok n) ∨
      ¬ v.Convertible ∧ unaryPlus v = .error "Cannot convert object to primitive value" := by
  rcases v with _ | v
  · exact Or.inl ⟨trivial, _, rfl⟩
  · by_cases h : hasText v = true
    · exact Or.inl ⟨h, numberOf v, if_pos h⟩
    · exact Or.inr ⟨h, if_neg h⟩

namespace ReviewGateway

/-! ## Steps of a handler -/

variable {s : GatewayState} {room : String} {event : ReviewEventName} {writes late : Prop}
  {α : Type} {x : HandlerM Reply}

@[simp] theorem run_orTypeError (r : Except String α) :
    (orTypeError r).run s = (r.mapError .typeError, s) := rfl

theorem run_throwIf_of_not {c : Prop} [Decidable c] {e : HandlerError} (h : ¬ c) :
    (throwIf c e).run s = (.ok (), s) := by
  rw [throwIf, if_neg h, Comp.run_pure]

theorem run_throwIf {c : Prop} [Decidable c] {e : HandlerError} (h : c) :
    (throwIf c e).run s = (.error e, s) := by
  rw [throwIf, if_pos h, Comp.run_throw]

theorem run_call_resolve {service : Database → Outcome α} {a : α}
    (h : service s.db = .resolve a db') : (call service).run s = (.ok a, { s with db := db' }) := by
  show ((service s.db).result.mapError HandlerError.service, { s with db := (service s.db).db }) = _
  rw [h]
  rfl

theorem run_call_reject {service : Database → Outcome α} {e : ServiceError}
    (h : service s.db = .reject e s.db) : (call service).run s = (.error (.service e), s) := by
  show ((service s.db).result.mapError HandlerError.service, { s with db := (service s.db).db }) = _
  rw [h]
  rfl

theorem run_emitToRoom {data : EventData} (hroom : socket.getRoomIdentifier = .ok room) :
    (emitToRoom socket event data).run s =
      (.ok ⟨⟩, { s with emitted := s.emitted ++ [.toRoom socket.id room event data] }) := by
  unfold emitToRoom
  rw [hroom]
  rfl

/-! ## The two ends of a handler -/

/-- The `try` block has written a row and announced it. It returns, or it throws in spite of
    that. -/
structure Written (socket : Socket) (room : String) (event : ReviewEventName) (late : Prop)
    (x : HandlerM Reply) (s : GatewayState) : Prop where
  returns : ¬ late → ∃ reply s', x.run s = (.ok reply, s') ∧ Announced socket room event s s'
  throws : late → ∃ e s', x.run s = (.error e, s') ∧ Announced socket room event s s'

/-- The `try` block writes a row, or it throws and has done nothing. -/
structure Behaves (P : Platform) (socket : Socket) (room : String) (event : ReviewEventName)
    (writes late : Prop) (x : HandlerM Reply) (s : GatewayState) : Prop where
  written : writes → Written socket room event late x s
  refused : ¬ writes → x.Throws s fun e => e.message P ≠ ""

/-- The end of a handler: what it does after its service call. -/
def Announces (socket : Socket) (room : String) (event : ReviewEventName) (late : Prop)
    (x : HandlerM Reply) : Prop :=
  ∀ s, ∃ data,
    (¬ late → ∃ reply jobs, x.run s = (.ok reply,
      { s with
        emitted := s.emitted ++ [.toRoom socket.id room event data]
        jobs := jobs })) ∧
    (late → ∃ e, x.run s =
      (.error e, { s with emitted := s.emitted ++ [.toRoom socket.id room event data] }))

theorem Behaves.of_throws (hx : x.Throws s fun e => e.message P ≠ "") (h : ¬ writes) :
    Behaves P socket room event writes late x s := ⟨fun hw => absurd hw h, fun _ => hx⟩

theorem Behaves.after {y : HandlerM α} {f : α → HandlerM Reply} {a : α}
    (hy : y.run s = (.ok a, s)) (h : Behaves P socket room event writes late (f a) s) :
    Behaves P socket room event writes late (y >>= f) s where
  written := by
    intro hw
    refine ⟨fun hl => ?_, fun hl => ?_⟩
    · rw [Comp.run_bind_ok hy]
      exact (h.written hw).returns hl
    · rw [Comp.run_bind_ok hy]
      exact (h.written hw).throws hl
  refused := fun hw => .after hy (h.refused hw)

theorem Behaves.of_call {service : Database → Outcome α} (touched : α → Prop)
    {k : α → HandlerM Reply} (hd : Decides P service touched writes s.db)
    (hk : ∀ a, touched a → Announces socket room event late (k a))
    (hn : ∀ a, ¬ touched a → (k a).Throws s fun e => e.message P ≠ "") :
    Behaves P socket room event writes late (call service >>= k) s where
  written := by
    intro hw
    obtain ⟨a, db', ha, hservice, hrow, helse⟩ := hd.accepts hw
    obtain ⟨data, hreturns, hthrows⟩ := hk a ha { s with db := db' }
    have hcall := Comp.run_bind_ok (f := k) (run_call_resolve hservice)
    constructor
    · intro hl
      obtain ⟨reply, jobs, hrun⟩ := hreturns hl
      exact ⟨reply, _, hcall.trans hrun, hrow, helse, data, rfl⟩
    · intro hl
      obtain ⟨e, hrun⟩ := hthrows hl
      exact ⟨e, _, hcall.trans hrun, hrow, helse, data, rfl⟩
  refused := by
    intro hw
    rcases hd.refuses hw with ⟨e, hservice, he⟩ | ⟨a, ha, hservice⟩
    · exact .bind ⟨_, run_call_reject hservice, he⟩
    · exact .after (run_call_resolve hservice) (hn a ha)

/-! ## The handlers -/

theorem recipientId_eq {payload : JsValue}
    (hget : ∀ name, payload.get name = .ok (payload.member name)) :
    recipientId user payload = (unaryPlus (payload.member "userId")).bind fun n =>
      if .int user.id = n then unaryPlus (payload.member "assignedToId") else .ok n := by
  unfold recipientId
  simp only [hget]
  rfl

/-- The recipient is known, or its conversion throws. -/
theorem recipientId_cases {payload : JsValue}
    (hget : ∀ name, payload.get name = .ok (payload.member name))
    (hlate : late ↔ ¬ (payload.member "userId").Convertible ∨
      unaryPlus (payload.member "userId") = .ok (.int user.id) ∧
        ¬ (payload.member "assignedToId").Convertible) :
    (¬ late ∧ ∃ n, recipientId user payload = .ok n) ∨
      late ∧ ∃ message, recipientId user payload = .error message := by
  rw [hlate, recipientId_eq hget]
  rcases unaryPlus_cases (payload.member "userId") with ⟨hconv, n, hn⟩ | ⟨hconv, herror⟩
  · rw [hn]
    by_cases huser : .int user.id = n
    · subst huser
      rcases unaryPlus_cases (payload.member "assignedToId") with ⟨hconv', n, hn'⟩ | ⟨hconv', h'⟩
      · exact Or.inl ⟨by simp [hconv, hconv'], n, (if_pos rfl).trans hn'⟩
      · exact Or.inr ⟨Or.inr ⟨rfl, hconv'⟩, _, (if_pos rfl).trans h'⟩
    · refine Or.inl ⟨?_, n, if_neg huser⟩
      rintro (h | ⟨h, -⟩)
      · exact h hconv
      · exact huser (Except.ok.inj h).symm
  · rw [herror]
    exact Or.inr ⟨Or.inl hconv, _, rfl⟩

theorem announces_return (event : ReviewEventName) (data : EventData) (reply : Reply)
    (hroom : socket.getRoomIdentifier = .ok room) (hl : ¬ late) :
    Announces socket room event late
      (do
        emitToRoom socket event data
        return reply) := by
  refine fun s => ⟨data, fun _ => ⟨reply, s.jobs, ?_⟩, fun h => absurd h hl⟩
  rw [Comp.run_bind_ok (run_emitToRoom hroom), Comp.run_pure]

theorem announces_notify (event : ReviewEventName) (data : EventData) (reply : Reply)
    (notificationEvent : NotificationEvents) {newEvent : Except String PayloadEvent}
    (hroom : socket.getRoomIdentifier = .ok room)
    (hev : (¬ late ∧ ∃ ev, newEvent = .ok ev) ∨ late ∧ ∃ message, newEvent = .error message) :
    Announces socket room event late
      (do
        emitToRoom socket event data
        let ev ← orTypeError newEvent
        enqueueNotification notificationEvent ev
        return reply) := by
  intro s
  refine ⟨data, fun hl => ?_, fun hl => ?_⟩
  · obtain ⟨-, ev, hev⟩ := hev.resolve_right fun h => hl h.1
    refine ⟨reply, s.jobs ++ [⟨ev.getTitle, ev, notificationEvent, ev.recipientId⟩], ?_⟩
    rw [Comp.run_bind_ok (run_emitToRoom hroom), hev]
    rfl
  · obtain ⟨-, message, hev⟩ := hev.resolve_left fun h => h.1 hl
    refine ⟨.typeError message, ?_⟩
    rw [Comp.run_bind_ok (run_emitToRoom hroom), hev]
    rfl

theorem throws_orTypeError {r : Except String α} {message : String} (h : r = .error message)
    (hne : message ≠ "") : (orTypeError r).Throws s fun e => e.message P ≠ "" :=
  ⟨.typeError message, by rw [h, run_orTypeError]; rfl, hne⟩

theorem throws_wsException {c : Prop} [Decidable c] {message : String} (h : c)
    (hne : message ≠ "") :
    (throwIf c (.wsException message)).Throws s fun e => e.message P ≠ "" :=
  ⟨_, run_throwIf h, hne⟩

theorem throws_dataUser {property : String} (h : socket.user = none) :
    (Comp.ofExcept (socket.dataUser property) : HandlerM UserCookieData).Throws s fun e =>
      e.message P ≠ "" := by
  refine Comp.throws_ofExcept (e := .typeError _) (by rw [Socket.dataUser, h]) ?_
  simp [HandlerError.message]

theorem run_dataUser {property : String} (h : socket.user = some user) :
    (Comp.ofExcept (socket.dataUser property) : HandlerM UserCookieData).run s = (.ok user, s) := by
  rw [Socket.dataUser, h]
  rfl

theorem createComment_behaves {linked : Database → Int → Bool} {ticketId : String}
    {newEvent : JsNumber → Int → UserCookieData → JsValue → Except String PayloadEvent}
    {notificationEvent : NotificationEvents} {payload : JsValue} (now : Timestamp)
    (hticket : socket.getTicketIdFromSocket = .ok ticketId)
    (hlate : ∀ n id user, socket.user = some user →
      (∀ name, payload.get name = .ok (payload.member name)) →
        (¬ late ∧ ∃ ev, newEvent n id user payload = .ok ev) ∨
          late ∧ ∃ message, newEvent n id user payload = .error message)
    (hwrites : writes ↔ ∃ user, socket.user = some user ∧
      (payload.member "comment").truthy = true ∧
      AddCommentData.Accepted
        ⟨toNumber ticketId, P.contentParam (payload.member "comment"), user.id⟩ linked s.db) :
    Behaves P socket (reviewRoom ticketId) event writes late
      (createComment P (addComment linked) event newEvent notificationEvent now socket payload)
      s := by
  have hroom : socket.getRoomIdentifier = .ok (reviewRoom ticketId) :=
    getRoomIdentifier_eq_ok.2 ⟨ticketId, hticket, rfl⟩
  unfold createComment
  rcases payload.get_cases with hget | hget
  · refine .after (by rw [hget]; rfl) ?_
    by_cases htruthy : (payload.member "comment").truthy = true
    · refine .after (run_throwIf_of_not (by simp [htruthy])) ?_
      refine .after (by rw [hticket]; rfl) ?_
      cases huser : socket.user with
      | none => exact .of_throws (.bind (throws_dataUser huser)) (by simp [hwrites, huser])
      | some user =>
        refine .after (run_dataUser huser) (.of_call (fun _ => True) ?_ (fun comment _ => ?_)
          fun _ h => absurd trivial h)
        · simpa [hwrites, huser, htruthy] using addComment_decides (P := P) linked now
            ⟨toNumber ticketId, P.contentParam (payload.member "comment"), user.id⟩
        · exact announces_notify _ _ _ _ hroom (hlate _ _ user huser hget)
    · refine .of_throws (.bind (throws_wsException (by simpa using htruthy) (by decide))) ?_
      simp [hwrites, htruthy]
  · obtain ⟨hmember, message, herror, hne⟩ := hget "comment"
    refine .of_throws (.bind (throws_orTypeError herror hne)) ?_
    simp [hwrites, hmember, JsValue.truthy]

theorem editComment_behaves {ticketId : String} {payload : JsValue} (now : Timestamp)
    (hticket : socket.getTicketIdFromSocket = .ok ticketId) (hl : ¬ late)
    (hwrites : writes ↔ ∃ user, socket.user = some user ∧
      (payload.member "content").truthy = true ∧
      UpdateCommentData.Accepted
        ⟨P.int4Param (payload.member "commentId"), P.contentParam (payload.member "content")⟩
        user.id s.db) :
    Behaves P socket (reviewRoom ticketId) event writes late
      (editComment P event now socket payload) s := by
  have hroom : socket.getRoomIdentifier = .ok (reviewRoom ticketId) :=
    getRoomIdentifier_eq_ok.2 ⟨ticketId, hticket, rfl⟩
  unfold editComment
  rcases payload.get_cases with hget | hget
  · refine .after (by rw [hget]; rfl) ?_
    by_cases htruthy : (payload.member "content").truthy = true
    · refine .after (run_throwIf_of_not (by simp [htruthy])) ?_
      refine .after (by rw [hget]; rfl) ?_
      cases huser : socket.user with
      | none => exact .of_throws (.bind (throws_dataUser huser)) (by simp [hwrites, huser])
      | some user =>
        refine .after (run_dataUser huser) (.of_call (· ≠ 0) ?_ (fun n hn => ?_)
          fun n hn => .bind (throws_wsException (not_not.1 hn) (by decide)))
        · simpa [hwrites, huser, htruthy] using updateComment_decides (P := P) now user
            ⟨P.int4Param (payload.member "commentId"), P.contentParam (payload.member "content")⟩
        · intro s₁
          have hreturn := announces_return event (.updatedComment payload) .ok hroom hl s₁
          rwa [Comp.run_bind_ok (run_throwIf_of_not hn)]
    · refine .of_throws (.bind (throws_wsException (by simpa using htruthy) (by decide))) ?_
      simp [hwrites, htruthy]
  · obtain ⟨hmember, message, herror, hne⟩ := hget "content"
    refine .of_throws (.bind (throws_orTypeError herror hne)) ?_
    simp [hwrites, hmember, JsValue.truthy]

theorem editSubmission_behaves {ticketId missing notYours : String} {payload : JsValue}
    {update : UserCookieData → JsValue → Except String (Database → Outcome Nat)}
    {newEvent : UserCookieData → JsValue → Except String PayloadEvent}
    {notificationEvent : NotificationEvents} {accepted : UserCookieData → Prop}
    (hticket : socket.getTicketIdFromSocket = .ok ticketId)
    (hmissing : missing ≠ "") (hnotYours : notYours ≠ "")
    (hupdate : ∀ user, (payload.member "data").truthy = true →
      (∃ service, update user (payload.member "data") = .ok service ∧
        Decides P service (· ≠ 0) (accepted user) s.db) ∨
      ¬ accepted user ∧
        ∃ message, update user (payload.member "data") = .error message ∧ message ≠ "")
    (hlate : ∀ user, socket.user = some user →
      (∀ name, payload.get name = .ok (payload.member name)) →
        (payload.member "data").truthy = true →
          (¬ late ∧ ∃ ev, newEvent user payload = .ok ev) ∨
            late ∧ ∃ message, newEvent user payload = .error message)
    (hwrites : writes ↔ ∃ user, socket.user = some user ∧
      (payload.member "data").truthy = true ∧ user.role = some .user ∧ accepted user) :
    Behaves P socket (reviewRoom ticketId) event writes late
      (editSubmission missing notYours update event newEvent notificationEvent socket payload)
      s := by
  have hroom : socket.getRoomIdentifier = .ok (reviewRoom ticketId) :=
    getRoomIdentifier_eq_ok.2 ⟨ticketId, hticket, rfl⟩
  unfold editSubmission
  rcases payload.get_cases with hget | hget
  · refine .after (by rw [hget]; rfl) ?_
    by_cases htruthy : (payload.member "data").truthy = true
    · refine .after (run_throwIf_of_not (by simp [htruthy])) ?_
      cases huser : socket.user with
      | none => exact .of_throws (.bind (throws_dataUser huser)) (by simp [hwrites, huser])
      | some user =>
        refine .after (run_dataUser huser) ?_
        by_cases hrole : user.role = some .user
        · refine .after (run_throwIf_of_not (not_not.2 hrole)) ?_
          rcases hupdate user htruthy with ⟨service, hservice, hdecides⟩ | ⟨hnot, message, herror, hne⟩
          · refine .after (by rw [hservice]; rfl) (.of_call (· ≠ 0) ?_ (fun n hn => ?_)
              fun n hn => .bind (throws_wsException (not_not.1 hn) (by decide)))
            · simpa [hwrites, huser, htruthy, hrole] using hdecides
            · intro s₁
              have hnotify := announces_notify event (.data (payload.member "data")) .ok
                notificationEvent hroom (hlate user huser hget htruthy) s₁
              rwa [Comp.run_bind_ok (run_throwIf_of_not hn)]
          · refine .of_throws (.bind (throws_orTypeError herror hne)) ?_
            simp [hwrites, huser, hnot]
        · refine .of_throws (.bind (throws_wsException hrole hnotYours)) ?_
          simp [hwrites, huser, hrole]
    · refine .of_throws (.bind (throws_wsException (by simpa using htruthy) hmissing)) ?_
      simp [hwrites, htruthy]
  · obtain ⟨hmember, message, herror, hne⟩ := hget "data"
    refine .of_throws (.bind (throws_orTypeError herror hne)) ?_
    simp [hwrites, hmember, JsValue.truthy]

/-- An event is built as soon as its recipient is known. -/
theorem newEvent_cases (user : UserCookieData) {payload : JsValue} {newEvent : Except String PayloadEvent}
    {f : JsNumber → PayloadEvent} (hget : ∀ name, payload.get name = .ok (payload.member name))
    (hlate : late ↔ ¬ (payload.member "userId").Convertible ∨
      unaryPlus (payload.member "userId") = .ok (.int user.id) ∧
        ¬ (payload.member "assignedToId").Convertible)
    (hnew : newEvent = (recipientId user payload).map f) :
    (¬ late ∧ ∃ ev, newEvent = .ok ev) ∨ late ∧ ∃ message, newEvent = .error message := by
  rw [hnew]
  rcases recipientId_cases hget hlate with ⟨hl, n, hn⟩ | ⟨hl, message, herror⟩
  · exact Or.inl ⟨hl, f n, by rw [hn]; rfl⟩
  · exact Or.inr ⟨hl, message, by rw [herror]; rfl⟩

theorem toStringParam_cases (P : Platform) (call : String) (v : JsValue) :
    (∃ n, P.toStringParam call v = .ok n) ∨
      ∃ message, P.toStringParam call v = .error message ∧ message ≠ "" := by
  rcases v with _ | v
  · exact Or.inr ⟨_, rfl, by decide⟩
  · cases v <;> simp only [Platform.toStringParam]
    case null => exact Or.inr ⟨_, rfl, by decide⟩
    all_goals split <;> simp

theorem updateArgumentOf_decides (user : UserCookieData) {data : JsValue}
    (htruthy : data.truthy = true) :
    (∃ service, updateArgumentOf P user data = .ok service ∧
        Decides P service (· ≠ 0) (AcceptsArgument P db data user) db) ∨
      ¬ AcceptsArgument P db data user ∧
        ∃ message, updateArgumentOf P user data = .error message ∧ message ≠ "" := by
  unfold updateArgumentOf AcceptsArgument
  simp only [JsValue.get_of_truthy htruthy]
  rcases toStringParam_cases P "payload.data.argumentId.toString" (data.member "argumentId") with
    ⟨n, hn⟩ | ⟨message, herror, hne⟩
  · refine Or.inl ⟨updateArgument
      ⟨user, n, ⟨P.textParam (data.member "title"), P.textParam (data.member "content")⟩⟩, ?_, ?_⟩
    · simp only [bind, Except.bind, hn]
      rfl
    · simpa [hn] using updateArgument_decides _
  · refine Or.inr ⟨by simp [herror], message, ?_, hne⟩
    simp only [bind, Except.bind, herror]

theorem updateDebateOf_decides (user : UserCookieData) {data : JsValue}
    (htruthy : data.truthy = true) :
    (∃ service, updateDebateOf P user data = .ok service ∧
        Decides P service (· ≠ 0) (AcceptsDebate P db data user) db) ∨
      ¬ AcceptsDebate P db data user ∧
        ∃ message, updateDebateOf P user data = .error message ∧ message ≠ "" := by
  unfold updateDebateOf AcceptsDebate
  simp only [JsValue.get_of_truthy htruthy]
  rcases toStringParam_cases P "payload.data.debateId.toString" (data.member "debateId") with
    ⟨n, hn⟩ | ⟨message, herror, hne⟩
  · refine Or.inl ⟨updateDebate ⟨user, n, P.textParam (data.member "title")⟩, ?_, ?_⟩
    · simp only [bind, Except.bind, hn]
      rfl
    · simpa [hn] using updateDebate_decides _
  · refine Or.inr ⟨by simp [herror], message, ?_, hne⟩
    simp only [bind, Except.bind, herror]

/-- **How the handler of a message ends.** -/
theorem handler_behaves {ticketId : String} (now : Timestamp) (event : ReviewEventName)
    (payload : JsValue) (hticket : socket.getTicketIdFromSocket = .ok ticketId) :
    Behaves P socket (reviewRoom ticketId) event
      (∃ user, socket.user = some user ∧ WritesRow P user ticketId payload s.db event)
      (∃ user, socket.user = some user ∧ ThrowsLate user payload event)
      (handler P now socket event payload) s := by
  cases event with
  | commentDebateCreate =>
    exact createComment_behaves now hticket (fun n id user huser hget =>
      newEvent_cases user hget (by simp [huser, ThrowsLate])
        (by simp only [debateReviewNewComment, hget]; rfl)) Iff.rfl
  | commentArgumentCreate =>
    exact createComment_behaves now hticket (fun n id user huser hget =>
      newEvent_cases user hget (by simp [huser, ThrowsLate])
        (by simp only [argumentReviewNewComment, hget]; rfl)) Iff.rfl
  | commentDebateUpdate =>
    exact editComment_behaves now hticket (by simp [ThrowsLate]) Iff.rfl
  | commentArgumentUpdate =>
    exact editComment_behaves now hticket (by simp [ThrowsLate]) Iff.rfl
  | argumentUpdate =>
    exact editSubmission_behaves hticket (by decide) (by decide)
      (fun user htruthy => updateArgumentOf_decides user htruthy)
      (fun user huser hget htruthy => newEvent_cases user hget (by simp [huser, ThrowsLate])
        (by simp only [argumentUpdated, hget]; rfl)) Iff.rfl
  | debateUpdate =>
    exact editSubmission_behaves hticket (by decide) (by decide)
      (fun user htruthy => updateDebateOf_decides user htruthy)
      (fun user huser hget htruthy => newEvent_cases user hget (by simp [huser, ThrowsLate])
        (by simp only [debateTitleUpdated, hget, bind, Except.bind, JsValue.get_of_truthy htruthy]
            rfl)) Iff.rfl

/-! ## Isolation -/

theorem run_removeUserFromRoom (hroom : socket.getRoomIdentifier = .ok room) (message : String) :
    (removeUserFromRoom socket message).run s =
      (.ok ⟨⟩, { s with
        sockets := s.sockets.map fun x => if x.id = socket.id then x.leave room else x
        emitted := if message ≠ "" then s.emitted ++ [.error socket.id message] else s.emitted }) := by
  unfold removeUserFromRoom
  rw [hroom]
  by_cases h : message = ""
  · rw [if_neg (not_not.2 h), if_neg (not_not.2 h)]
    rfl
  · rw [if_pos h, if_pos h]
    rfl

/-- Leaving a room takes the sender out of it, and nobody else. -/
theorem failedAlone_of_leave (message : String) :
    FailedAlone socket room s { s with
      sockets := s.sockets.map fun x => if x.id = socket.id then x.leave room else x
      emitted := s.emitted ++ [.error socket.id message] } where
  db := rfl
  emitted := ⟨message, rfl⟩
  jobs := rfl
  left := by
    intro x hx hid
    obtain ⟨y, hy, rfl⟩ := List.mem_map.1 hx
    by_cases h : y.id = socket.id
    · simp [h, Socket.leave]
    · rw [if_neg h] at hid
      exact absurd hid h
  others := by
    rw [List.filter_map]
    have hleave : ((fun x : Socket => decide (x.id ≠ socket.id)) ∘ fun x : Socket =>
        if x.id = socket.id then x.leave room else x) = fun x => decide (x.id ≠ socket.id) := by
      funext x
      by_cases h : x.id = socket.id <;> simp [h, Socket.leave]
    rw [hleave]
    refine (List.map_congr_left fun x hx => ?_).trans (List.map_id _)
    rw [if_neg (by simpa using (List.mem_filter.1 hx).2)]
    rfl

variable {ticketId : String} {payload : JsValue} {now : Timestamp}

/-- A `try` block that throws ends in the sender leaving the room. -/
theorem run_handle_of_throws {s' : GatewayState} {e : HandlerError}
    (hroom : socket.getRoomIdentifier = .ok room)
    (h : (handler P now socket event payload).run s = (.error e, s')) :
    (handle P now socket event payload).run s =
      (.ok none, { s' with
        sockets := s'.sockets.map fun x => if x.id = socket.id then x.leave room else x
        emitted := if e.message P ≠ "" then s'.emitted ++ [.error socket.id (e.message P)]
          else s'.emitted }) := by
  unfold handle
  rw [Comp.run_tryCatch, Comp.run_map, h]
  simp only
  rw [Comp.run_bind_ok (run_removeUserFromRoom hroom _), Comp.run_pure]

/-- After the broadcast there is no failing alone. -/
theorem not_isolated_of_throwsLate (hticket : socket.getTicketIdFromSocket = .ok ticketId)
    (huser : socket.user = some user) (hwrites : WritesRow P user ticketId payload s.db event)
    (hlate : ThrowsLate user payload event) :
    ¬ Isolated P now socket (reviewRoom ticketId) event payload s := by
  have hroom : socket.getRoomIdentifier = .ok (reviewRoom ticketId) :=
    getRoomIdentifier_eq_ok.2 ⟨ticketId, hticket, rfl⟩
  obtain ⟨e, s', hhandler, hann⟩ := ((handler_behaves (P := P) (s := s) now event payload
    hticket).written ⟨user, huser, hwrites⟩).throws ⟨user, huser, hlate⟩
  have hend := run_handle_of_throws hroom hhandler
  obtain ⟨data, hemitted⟩ := hann.emitted
  rintro (⟨reply, s₁, hok, -⟩ | ⟨s₁, hok, hfail⟩)
  · rw [hend] at hok
    exact nomatch congrArg Prod.fst hok
  · obtain rfl := congrArg Prod.snd (hend.symm.trans hok)
    obtain ⟨reason, hreason⟩ := hfail.emitted
    simp only [hemitted] at hreason
    split at hreason
    · rw [List.append_assoc] at hreason
      exact nomatch List.append_cancel_left hreason
    · exact nomatch List.append_cancel_left hreason

/-- **A message fails alone, except after its broadcast.** On a socket with a ticket id, a message
    is acknowledged with one row written and announced, or fails with no effect on anybody but its
    sender, exactly if it is not one whose row is written and whose handler then throws. -/
theorem isolated_iff (hticket : socket.getTicketIdFromSocket = .ok ticketId) :
    Isolated P now socket (reviewRoom ticketId) event payload s ↔
      ¬ ∃ user, socket.user = some user ∧ WritesRow P user ticketId payload s.db event ∧
        ThrowsLate user payload event := by
  have hroom : socket.getRoomIdentifier = .ok (reviewRoom ticketId) :=
    getRoomIdentifier_eq_ok.2 ⟨ticketId, hticket, rfl⟩
  have hbehaves := handler_behaves (P := P) (s := s) now event payload hticket
  constructor
  · rintro h ⟨user, huser, hwrites, hlate⟩
    exact not_isolated_of_throwsLate hticket huser hwrites hlate h
  · intro h
    by_cases hwrites : ∃ user, socket.user = some user ∧
        WritesRow P user ticketId payload s.db event
    · obtain ⟨user, huser, hwrites⟩ := hwrites
      obtain ⟨reply, s', hhandler, hann⟩ := (hbehaves.written ⟨user, huser, hwrites⟩).returns
        fun ⟨user', huser', hlate⟩ =>
          h ⟨user, huser, hwrites, Option.some.inj (huser.symm.trans huser') ▸ hlate⟩
      refine Or.inl ⟨reply, s', ?_, hann⟩
      unfold handle
      rw [Comp.run_tryCatch, Comp.run_map, hhandler]
    · obtain ⟨e, hhandler, he⟩ := hbehaves.refused hwrites
      have hend := run_handle_of_throws hroom hhandler
      rw [if_pos he] at hend
      exact Or.inr ⟨_, hend, failedAlone_of_leave (e.message P)⟩

/-- A platform that reads ids as `Number` does. -/
def samplePlatform : Platform := ⟨fun _ => "{}", toNumber, fun _ => "error", fun _ => by decide⟩

/-- The user's socket is the only one, and the user has proposed two debates. -/
def sampleGateway : GatewayState := ⟨twoDebates, [firstSocket], [], []⟩

/-- A comment by the author of the ticket, whose id is given as `userId`. -/
def commentBy (userId : Value) : JsValue :=
  some (.object [("comment", .string "A comment"), ("userId", userId)])

theorem isolated_sample :
    Isolated samplePlatform 2 firstSocket (reviewRoom "1") .commentDebateCreate
      (commentBy (.string "1")) sampleGateway := by
  refine (isolated_iff rfl).2 ?_
  rintro ⟨user, -, -, hlate | ⟨-, hlate⟩⟩
  · exact hlate rfl
  · exact hlate trivial

/-- The author comments with an object as `userId` whose `toString` cannot be called: the comment is
    stored and announced, and the author is thrown out of the room. -/
theorem comment_stored_with_error :
    ¬ ∀ (P : Platform) (now : Timestamp) (s : GatewayState) (socket : Socket) (ticketId : String)
      (event : ReviewEventName) (payload : JsValue), s.db.Reachable → socket ∈ s.sockets →
      socket.getTicketIdFromSocket = .ok ticketId →
        Isolated P now socket (reviewRoom ticketId) event payload s := by
  intro h
  have hsent := h samplePlatform 2 sampleGateway firstSocket "1" .commentDebateCreate
    (commentBy (.object [("toString", .bool true)])) (Database.reachable_run id _)
    (List.mem_singleton_self _) rfl
  have hwrites : WritesRow samplePlatform testUser "1"
      (commentBy (.object [("toString", .bool true)])) twoDebates .commentDebateCreate := by
    rw [twoDebates_eq]
    refine ⟨by decide, 1, by decide, by decide, by decide +kernel, ?_, by decide +kernel, ?_⟩
    · unfold Database.ConnectedTo
      decide +kernel
    · decide +kernel
  have hlate : ThrowsLate testUser (commentBy (.object [("toString", .bool true)]))
      .commentDebateCreate := Or.inl nofun
  exact not_isolated_of_throwsLate rfl rfl hwrites hlate hsent

end ReviewGateway

end DecentDebates

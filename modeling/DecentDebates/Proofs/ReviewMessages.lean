import DecentDebates.ReviewMessages
import DecentDebates.Proofs.Comments
import DecentDebates.Proofs.ReviewRooms

set_option autoImplicit false

/-! # What a review message writes, and whom it tells: proofs

`handle_effect` says once what a message does that is handled successfully: it inserts one comment
on the socket's ticket, or it replaces the one row its payload addresses, and it leaves accounts and
tickets alone. What a room hears and who is notified follow from that and the payload. -/

namespace DecentDebates

open Relational Transition

variable {db db' : Database} {socket : Socket} {message : ReviewMessage} {result : HandlerResult}
  {user : UserCookieData} {ticketId : String}

/-! ## The effect of a message -/

/-- Two addressed rows are one. -/
theorem ReviewMessage.Addresses.key_eq {r r' : ReviewRow} (h : message.Addresses r)
    (h' : message.Addresses r') : r.key = r'.key := by
  cases message <;> rcases r with tc | (x | a) <;> rcases r' with tc' | (x' | a') <;>
    simp_all [ReviewMessage.Addresses, ReviewRow.key, Submission.key]
  all_goals
    obtain ⟨data, hdata, hid⟩ := h
    obtain ⟨data', hdata', hid'⟩ := h'
    simp_all

/-- The rows before and after a message. -/
inductive RowChange (db db' : Database) (message : ReviewMessage) (ticketId : String) : Prop
  | inserted (tc : TicketCommentRow) (hmessage : ∀ r, ¬ message.Addresses r)
      (hnew : ∀ r ∈ db.reviewRows, r.key ≠ (ReviewRow.comment tc).key)
      (hticket : (ReviewRow.comment tc).OnTicket ticketId)
      (hrows : ∀ x, x ∈ db'.reviewRows ↔ x ∈ db.reviewRows ∨ x = .comment tc)
  | updated (r r' : ReviewRow) (hr : r ∈ db.reviewRows) (hmessage : message.Addresses r)
      (hkey : r'.key = r.key) (hticket : r'.ticketId = r.ticketId)
      (hrows : ∀ x, x ∈ db'.reviewRows ↔ (x ∈ db.reviewRows ∧ x ≠ r) ∨ x = r')

/-- What a message that `user` sends on a socket of a ticket does when it succeeds. -/
structure MessageEffect (db db' : Database) (message : ReviewMessage) (user : UserCookieData)
    (ticketId : String) (result : HandlerResult) : Prop where
  users : db'.users = db.users
  tickets : db'.tickets = db.tickets
  rows : RowChange db db' message ticketId
  job : result.job.map NotificationJobPayload.recipientId? =
    message.participants?.map fun p => some (recipientOf user p.1 p.2)

theorem dataUser_eq_ok {property : String} :
    socket.dataUser property = .ok user ↔ socket.user = some user := by
  unfold Socket.dataUser
  cases socket.user <;> simp

/-- `updated` succeeds if the statement has touched a row. -/
theorem updated_ok {outcome : Outcome Nat} {res : HandlerResult}
    (h : (updated outcome res).result = .ok result) :
    result = res ∧ ∃ n, outcome.result = .ok n ∧ n ≠ 0 := by
  unfold updated at h
  cases hout : outcome.result with
  | error e => simp [hout] at h
  | ok n =>
    simp only [hout] at h
    split at h
    · exact nomatch h
    · next hn => exact ⟨(Except.ok.inj h).symm, n, rfl, hn⟩

/-- An update of rows that the message addresses, if it touches one, replaces this one. -/
theorem RowChange.of_update {ρ : Type} [SerialRow ρ] (row : ρ → ReviewRow) {t : SerialTable ρ}
    {p : ρ → Bool} {f : ρ → ρ} (hf : ∀ y, SerialRow.rowId (f y) = SerialRow.rowId y)
    (hinj : Function.Injective row) (hbefore : ∀ y, row y ∈ db.reviewRows ↔ y ∈ t.rows)
    (hafter : ∀ y, row y ∈ db'.reviewRows ↔ y ∈ (t.updateWhere p f hf).rows)
    (hother : ∀ x, (∀ y, x ≠ row y) → (x ∈ db'.reviewRows ↔ x ∈ db.reviewRows))
    (hid : ∀ y y', (row y).key = (row y').key → SerialRow.rowId y = SerialRow.rowId y')
    (hkey : ∀ y, (row (f y)).key = (row y).key)
    (hticket : ∀ y, (row (f y)).ticketId = (row y).ticketId) (hn : t.rows.countP p ≠ 0)
    (hmessage : ∀ y, p y = true → message.Addresses (row y)) :
    RowChange db db' message ticketId := by
  obtain ⟨r, hr, hp⟩ := List.countP_pos_iff.1 (Nat.pos_of_ne_zero hn)
  have hsingle : ∀ y, p y = true → SerialRow.rowId y = SerialRow.rowId r :=
    fun y hy => hid y r ((hmessage y hy).key_eq (hmessage r hp))
  refine .updated (row r) (row (f r)) ((hbefore r).2 hr) (hmessage r hp) (hkey r) (hticket r)
    fun x => ?_
  by_cases hx : ∃ y, x = row y
  · obtain ⟨y, rfl⟩ := hx
    rw [hafter, hbefore, SerialTable.mem_updateWhere_single hsingle hr hp hf, hinj.ne_iff,
      hinj.eq_iff]
  · have hne : ∀ y, x ≠ row y := not_exists.1 hx
    rw [hother x hne]
    simp [hne]

/-! ## Comments -/

theorem commentDataOf_ok {content : String} {d : AddCommentData}
    (h : commentDataOf socket content = .ok (user, d)) :
    ∃ ticketId, socket.getTicketIdFromSocket = .ok ticketId ∧ socket.user = some user ∧
      d = ⟨toNumber ticketId, content, user.id⟩ := by
  unfold commentDataOf at h
  split at h
  · exact nomatch h
  · simp only at h
    obtain ⟨ticketId, hticket, h⟩ := except_bind_eq_ok.1 h
    obtain ⟨user, huser, h⟩ := except_bind_eq_ok.1 h
    cases h
    exact ⟨ticketId, hticket, dataUser_eq_ok.1 huser, rfl⟩

theorem reviewRow_key_ne_next {mk : Int → TicketCommentRow}
    (hmk : ∀ n, SerialRow.rowId (mk n) = n) {r : ReviewRow} (hr : r ∈ db.reviewRows) :
    r.key ≠ (ReviewRow.comment (mk db.ticketComments.next)).key := by
  cases r with
  | comment tc =>
    intro hkey
    exact SerialTable.ne_next (mem_reviewRows_comment.1 hr) ((Sum.inl.inj hkey).trans (hmk _))
  | submission s => exact nofun

theorem mem_reviewRows_insert {mk : Int → TicketCommentRow}
    (hmk : ∀ n, SerialRow.rowId (mk n) = n) {x : ReviewRow} :
    x ∈ ({ db with ticketComments := db.ticketComments.insert mk hmk } : Database).reviewRows ↔
      x ∈ db.reviewRows ∨ x = .comment (mk db.ticketComments.next) := by
  cases x with
  | comment tc => simp [SerialTable.mem_insert hmk]
  | submission s => simp [Database.submissions]

theorem RowChange.of_insert {mk : Int → TicketCommentRow} (hmk : ∀ n, SerialRow.rowId (mk n) = n)
    (hmessage : ∀ r, ¬ message.Addresses r)
    (hticket : (ReviewRow.comment (mk db.ticketComments.next)).OnTicket ticketId) :
    RowChange db { db with ticketComments := db.ticketComments.insert mk hmk } message
      ticketId :=
  .inserted (mk db.ticketComments.next) hmessage (fun _ hr => reviewRow_key_ne_next hmk hr) hticket
    fun _ => mem_reviewRows_insert hmk

/-- A successful message of one of the two kinds that create a comment. -/
theorem handleCommentCreate_effect {linked : Database → Int → Bool} {event : Comment → ReviewEvent}
    {job : UserCookieData → JsNumber → Comment → NotificationJobPayload} {now : Timestamp}
    {content : String} {p : JsNumber × JsNumber} (hmessage : ∀ r, ¬ message.Addresses r)
    (hp : message.participants? = some p)
    (hjob : ∀ user n comment, (job user n comment).recipientId? = some (recipientOf user p.1 p.2))
    (hticket : socket.getTicketIdFromSocket = .ok ticketId)
    (h : (handleCommentCreate (addComment linked) event job now socket content db).result =
      .ok result) :
    ∃ user, socket.user = some user ∧
      MessageEffect db (handleCommentCreate (addComment linked) event job now socket content db).db
        message user ticketId result := by
  unfold handleCommentCreate at h ⊢
  cases hdata : commentDataOf socket content with
  | error e => simp [hdata] at h
  | ok q =>
    obtain ⟨user, d⟩ := q
    obtain ⟨ticketId', hticket', huser, hd⟩ := commentDataOf_ok hdata
    obtain rfl : ticketId = ticketId' := by simpa [hticket] using hticket'
    simp only [hdata] at h ⊢
    rcases addComment_cases linked now d db with
      ⟨n, text, u, hn, -, -, -, -, hadd⟩ | ⟨e, hadd⟩
    · simp only [hadd, Outcome.result_resolve, Outcome.db_resolve, Except.ok.injEq] at h ⊢
      subst h
      have hnumber : toNumber ticketId = .int n := by
        rw [hd] at hn
        exact (int4_eq_ok.1 hn).1
      refine ⟨user, huser, rfl, rfl, .of_insert (fun _ => rfl) hmessage ⟨n, rfl, hnumber⟩, ?_⟩
      simp [hp, hjob]
    · simp [hadd] at h

theorem updateComment_ok {now : Timestamp} {d : UpdateCommentData} {n : Nat}
    (h : (updateComment now user d db).result = .ok n) :
    updateCommentSql now user d db = .ok (n, (updateComment now user d db).db) := by
  rw [updateComment_commit, ← Sql.commit_eq_ok]
  unfold updateComment at h
  split at h <;> simp_all

theorem RowChange.of_updateComment {now : Timestamp} {d : UpdateCommentData} {n : Nat}
    (hmessage : ∀ tc, message.Addresses (.comment tc) ↔ d.commentId = some (.int tc.id))
    (h : updateCommentSql now user d db = .ok (n, db')) (hn : n ≠ 0) :
    RowChange db db' message ticketId := by
  obtain ⟨commentId, -, hid, rfl, rfl⟩ := updateCommentSql_eq_ok.1 h
  refine .of_update ReviewRow.comment (fun _ => by rfl) (fun _ _ => ReviewRow.comment.inj)
    (fun _ => mem_reviewRows_comment) (fun _ => mem_reviewRows_comment) (fun x hx => ?_)
    (fun _ _ => Sum.inl.inj) (fun _ => rfl) (fun _ => rfl) hn (fun tc hw => ?_)
  · cases x with
    | comment tc => exact absurd rfl (hx tc)
    | submission s => simp [Database.submissions]
  · have hcid : some tc.id = commentId := (updateCommentWhere_holds.1 hw).1
    exact (hmessage tc).2 (nullableInt4_eq_ok_some.1 (hcid ▸ hid)).1

/-- A successful message of one of the two kinds that edit a comment. -/
theorem handleCommentUpdate_effect {event : UpdateCommentData → ReviewEvent} {now : Timestamp}
    {payload : UpdateCommentData}
    (hmessage : ∀ tc, message.Addresses (.comment tc) ↔ payload.commentId = some (.int tc.id))
    (hp : message.participants? = none)
    (h : (handleCommentUpdate event now socket payload db).result = .ok result) :
    ∃ user, socket.user = some user ∧
      MessageEffect db (handleCommentUpdate event now socket payload db).db message user ticketId
        result := by
  unfold handleCommentUpdate at h ⊢
  split at h
  · exact nomatch h
  · next hcontent =>
    rw [if_neg hcontent]
    cases huser : socket.dataUser "id" with
    | error e => simp [huser] at h
    | ok user =>
      simp only [huser] at h ⊢
      obtain ⟨rfl, n, hres, hn⟩ := updated_ok h
      have hok := updateComment_ok hres
      obtain ⟨content, commentId, -, -, hdb⟩ := updateCommentSql_ok hok
      rw [updated_db]
      refine ⟨user, dataUser_eq_ok.1 huser, ?_, ?_, .of_updateComment hmessage hok hn, ?_⟩
      · rw [hdb]
      · rw [hdb]
      · simp [hp]

/-! ## Submissions -/

theorem requiredNumber_eq_ok {x : Option JsNumber} {n : JsNumber} :
    requiredNumber x = .ok n ↔ x = some n := by
  cases x <;> simp [requiredNumber]

theorem updateArgumentDataOf_ok {payload : ArgumentReviewUpdated} {data : UpdateReviewArgumentData}
    {d : UpdateArgumentData} (h : updateArgumentDataOf socket payload = .ok (data, d)) :
    payload.data = some data ∧ socket.user = some d.user ∧ data.argumentId = some d.argumentId ∧
      d.argumentData = ⟨data.title, data.content⟩ := by
  unfold updateArgumentDataOf at h
  cases hdata : payload.data with
  | none => simp [hdata, throw, throwThe, MonadExceptOf.throw, bind, Except.bind] at h
  | some data' =>
    simp only [hdata] at h
    obtain ⟨_, h₀, h⟩ := except_bind_eq_ok.1 h
    obtain ⟨user, huser, h⟩ := except_bind_eq_ok.1 h
    cases h₀
    split at h
    · exact nomatch h
    · obtain ⟨argumentId, hid, h⟩ := except_bind_eq_ok.1 h
      cases h
      exact ⟨rfl, dataUser_eq_ok.1 huser, requiredNumber_eq_ok.1 hid, rfl⟩

theorem updateDebateDataOf_ok {payload : DebateReviewUpdated} {data : UpdateReviewDebateData}
    {d : UpdateDebateData} (h : updateDebateDataOf socket payload = .ok (data, d)) :
    payload.data = some data ∧ socket.user = some d.user ∧ data.debateId = some d.debateId := by
  unfold updateDebateDataOf at h
  cases hdata : payload.data with
  | none => simp [hdata, throw, throwThe, MonadExceptOf.throw, bind, Except.bind] at h
  | some data' =>
    simp only [hdata] at h
    obtain ⟨_, h₀, h⟩ := except_bind_eq_ok.1 h
    obtain ⟨user, huser, h⟩ := except_bind_eq_ok.1 h
    cases h₀
    split at h
    · exact nomatch h
    · obtain ⟨debateId, hid, h⟩ := except_bind_eq_ok.1 h
      cases h
      exact ⟨rfl, dataUser_eq_ok.1 huser, requiredNumber_eq_ok.1 hid⟩

theorem updateArgument_ok {d : UpdateArgumentData} {n : Nat}
    (h : (updateArgument d db).result = .ok n) :
    updateArgumentSql d db = .ok (n, (updateArgument d db).db) := by
  rw [updateArgument_commit, ← Sql.commit_eq_ok]
  unfold updateArgument at h
  split at h <;> simp_all

theorem updateDebate_ok {d : UpdateDebateData} {n : Nat}
    (h : (updateDebate d db).result = .ok n) :
    updateDebateSql d db = .ok (n, (updateDebate d db).db) := by
  rw [updateDebate_commit, ← Sql.commit_eq_ok]
  unfold updateDebate at h
  split at h <;> simp_all

theorem RowChange.of_updateArgument {d : UpdateArgumentData} {n : Nat}
    (hmessage : ∀ a : ArgumentRow, d.argumentId = .int a.id →
      message.Addresses (.submission (.argument a)))
    (h : updateArgumentSql d db = .ok (n, db')) (hn : n ≠ 0) :
    RowChange db db' message ticketId := by
  obtain ⟨title, content, argumentId, hint4, rfl, rfl⟩ := updateArgumentSql_ok h
  refine .of_update (fun a => .submission (.argument a)) (fun _ => by rfl)
    (fun _ _ heq => Submission.argument.inj (ReviewRow.submission.inj heq))
    (fun _ => mem_reviewRows_submission.trans mem_submissions_argument)
    (fun _ => mem_reviewRows_submission.trans mem_submissions_argument) (fun x hx => ?_)
    (fun _ _ heq => Sum.inr.inj (Sum.inr.inj heq)) (fun _ => rfl) (fun _ => rfl) hn
    (fun a hw => hmessage a ?_)
  · rcases x with tc | (x | a)
    · simp
    · simp
    · exact absurd rfl (hx a)
  · obtain ⟨t, -, hw⟩ := List.any_eq_true.1 hw
    rw [(int4_eq_ok.1 hint4).1, (updateArgumentWhere_holds.1 hw).1]

theorem handleArgumentUpdate_effect {payload : ArgumentReviewUpdated}
    (h : (handleArgumentUpdate socket payload db).result = .ok result) :
    ∃ user, socket.user = some user ∧
      MessageEffect db (handleArgumentUpdate socket payload db).db (.argumentUpdate payload) user
        ticketId result := by
  unfold handleArgumentUpdate at h ⊢
  cases hdata : updateArgumentDataOf socket payload with
  | error e => simp [hdata] at h
  | ok q =>
    obtain ⟨data, d⟩ := q
    obtain ⟨hpayload, huser, hid, -⟩ := updateArgumentDataOf_ok hdata
    simp only [hdata] at h ⊢
    obtain ⟨rfl, n, hres, hn⟩ := updated_ok h
    have hok := updateArgument_ok hres
    obtain ⟨title, content, argumentId, -, -, hdb⟩ := updateArgumentSql_ok hok
    rw [updated_db]
    refine ⟨d.user, huser, ?_, ?_, .of_updateArgument (fun a ha => ⟨data, hpayload, ?_⟩) hok hn, rfl⟩
    · rw [hdb]
    · rw [hdb]
    · rw [hid, ha]

theorem RowChange.of_updateDebate {d : UpdateDebateData} {n : Nat}
    (hmessage : ∀ x : DebateRow, d.debateId = .int x.id →
      message.Addresses (.submission (.debate x)))
    (h : updateDebateSql d db = .ok (n, db')) (hn : n ≠ 0) :
    RowChange db db' message ticketId := by
  obtain ⟨title, debateId, hint4, rfl, rfl⟩ := updateDebateSql_ok h
  refine .of_update (fun x => .submission (.debate x)) (fun _ => by rfl)
    (fun _ _ heq => Submission.debate.inj (ReviewRow.submission.inj heq))
    (fun _ => mem_reviewRows_submission.trans mem_submissions_debate)
    (fun _ => mem_reviewRows_submission.trans mem_submissions_debate) (fun y hy => ?_)
    (fun _ _ heq => Sum.inl.inj (Sum.inr.inj heq)) (fun _ => rfl) (fun _ => rfl) hn
    (fun x hw => hmessage x ?_)
  · rcases y with tc | (x | a)
    · simp
    · exact absurd rfl (hy x)
    · simp
  · obtain ⟨t, -, hw⟩ := List.any_eq_true.1 hw
    rw [(int4_eq_ok.1 hint4).1, (updateDebateWhere_holds.1 hw).1]

theorem handleDebateUpdate_effect {payload : DebateReviewUpdated}
    (h : (handleDebateUpdate socket payload db).result = .ok result) :
    ∃ user, socket.user = some user ∧
      MessageEffect db (handleDebateUpdate socket payload db).db (.debateUpdate payload) user
        ticketId result := by
  unfold handleDebateUpdate at h ⊢
  cases hdata : updateDebateDataOf socket payload with
  | error e => simp [hdata] at h
  | ok q =>
    obtain ⟨data, d⟩ := q
    obtain ⟨hpayload, huser, hid⟩ := updateDebateDataOf_ok hdata
    simp only [hdata] at h ⊢
    obtain ⟨rfl, n, hres, hn⟩ := updated_ok h
    have hok := updateDebate_ok hres
    obtain ⟨title, debateId, -, -, hdb⟩ := updateDebateSql_ok hok
    rw [updated_db]
    refine ⟨d.user, huser, ?_, ?_, .of_updateDebate (fun x hx => ⟨data, hpayload, ?_⟩) hok hn, rfl⟩
    · rw [hdb]
    · rw [hdb]
    · rw [hid, hx]

/-- **What a message does that is handled successfully.** -/
theorem handle_effect {now : Timestamp} (hticket : socket.getTicketIdFromSocket = .ok ticketId)
    (h : (handle now socket message db).result = .ok result) :
    ∃ user, socket.user = some user ∧
      MessageEffect db (handle now socket message db).db message user ticketId result := by
  cases message with
  | commentDebateCreate payload =>
    exact handleCommentCreate_effect (fun _ => nofun) rfl (fun _ _ _ => rfl) hticket h
  | commentArgumentCreate payload =>
    exact handleCommentCreate_effect (fun _ => nofun) rfl (fun _ _ _ => rfl) hticket h
  | commentDebateUpdate payload => exact handleCommentUpdate_effect (fun _ => .rfl) rfl h
  | commentArgumentUpdate payload => exact handleCommentUpdate_effect (fun _ => .rfl) rfl h
  | argumentUpdate payload => exact handleArgumentUpdate_effect h
  | debateUpdate payload => exact handleDebateUpdate_effect h

/-! ## A room hears about its own ticket -/

/-- A message that is handled successfully writes one row. It is on the socket's ticket if the
    message creates it, and otherwise if the addressed row is. -/
theorem MessageEffect.written (h : MessageEffect db db' message user ticketId result) :
    ∃ r, (∀ r', message.Writes db db' r' ↔ r' = r) ∧
      (r.OnTicket ticketId ↔ message.AboutTicket ticketId db) := by
  cases h.rows with
  | inserted tc hmessage hnew hticket hrows =>
    refine ⟨.comment tc, fun r' => ?_, iff_of_true hticket fun r _ hr => absurd hr (hmessage r)⟩
    constructor
    · rintro ⟨hmem, haddr | hfresh⟩
      · exact absurd haddr (hmessage r')
      · exact ((hrows r').1 hmem).resolve_left fun hold => hfresh r' hold rfl
    · rintro rfl
      exact ⟨(hrows _).2 (Or.inr rfl), Or.inr hnew⟩
  | updated r r' hr haddr hkey hticket hrows =>
    refine ⟨r', fun x => ?_, ?_⟩
    · constructor
      · rintro ⟨hmem, hwhy⟩
        refine ((hrows x).1 hmem).resolve_left fun ⟨hold, hne⟩ => ?_
        rcases hwhy with hx | hfresh
        · exact hne (db.reviewRow_eq_of_key hold hr (hx.key_eq haddr))
        · exact hfresh x hold rfl
      · rintro rfl
        exact ⟨(hrows _).2 (Or.inr rfl), Or.inl ((ReviewMessage.addresses_congr hkey).2 haddr)⟩
    · -- only one stored row is addressed, and the update keeps its ticket
      have hon : r'.OnTicket ticketId ↔ r.OnTicket ticketId := by
        unfold ReviewRow.OnTicket
        rw [hticket]
      rw [hon]
      constructor
      · intro hron x hx hxaddr
        rwa [db.reviewRow_eq_of_key hx hr (hxaddr.key_eq haddr)]
      · exact fun habout => habout r hr haddr

/-- A handler that has succeeded emits its event to the room of its socket's ticket, once. -/
theorem deliveries_resume {s : ReviewState} {position : Nat}
    (hticket : socket.getTicketIdFromSocket = .ok ticketId)
    (h : s.handlers[position]? = some ⟨socket, message, some (.ok result)⟩) :
    deliveries s (.resume position) = s.emit socket (reviewRoom ticketId) result.event := by
  have hroom : socket.getRoomIdentifier = .ok (reviewRoom ticketId) :=
    getRoomIdentifier_eq_ok.2 ⟨ticketId, hticket, rfl⟩
  simp only [deliveries, h, hroom]

/-- **What a room hears about.** A message on a socket of ticket `T` that is handled successfully
    writes one row, and its broadcast goes to the room of `T`. The row is one of `T`'s exactly if
    the message addresses no row of another ticket, which a message that creates a comment never
    does. -/
theorem message_within_ticket_iff {now : Timestamp} {T : String}
    (hticket : socket.getTicketIdFromSocket = .ok T)
    (hok : (handle now socket message db).result = .ok result) :
    ((∃ r, (∀ r', message.Writes db (handle now socket message db).db r' ↔ r' = r) ∧
        r.OnTicket T) ∧
      ∀ (s : ReviewState) (position : Nat),
        s.handlers[position]? = some ⟨socket, message, some (.ok result)⟩ →
          deliveries s (.resume position) = s.emit socket (reviewRoom T) result.event) ↔
    message.AboutTicket T db := by
  obtain ⟨user, -, heffect⟩ := handle_effect hticket hok
  obtain ⟨r, hwrites, hr⟩ := heffect.written
  have hroom : ∀ (s : ReviewState) (position : Nat),
      s.handlers[position]? = some ⟨socket, message, some (.ok result)⟩ →
        deliveries s (.resume position) = s.emit socket (reviewRoom T) result.event :=
    fun s position h => deliveries_resume hticket h
  constructor
  · rintro ⟨⟨r', hwrites', hr'⟩, -⟩
    obtain rfl : r = r' := (hwrites' r).1 ((hwrites r).2 rfl)
    exact hr.1 hr'
  · exact fun habout => ⟨⟨r, hwrites, hr.2 habout⟩, hroom⟩

/-- The user proposes two debates, which get the tickets 1 and 2. -/
def twoDebates : Database :=
  run step (Database.empty id)
    (createUsers ++ [proposeDebate, .createDebate 1 testUser ⟨"Another debate", [], none⟩])

theorem twoDebates_eq : twoDebates = run step (Database.withUsers id)
    [proposeDebate, .createDebate 1 testUser ⟨"Another debate", [], none⟩] :=
  run_createUsers_append id _

/-- The user's socket in the room of ticket 1. -/
def firstSocket : Socket := ⟨11, some "1", some testUser, ["review:1"]⟩

/-- A new title for the user's debate with this id. -/
def retitle (debateId : Int) : ReviewMessage :=
  .debateUpdate ⟨some ⟨some (.int debateId), some "Edited"⟩, "Old title", .int 1, .int 1, .int 2⟩

def retitled (debateId : Int) : HandlerResult :=
  ⟨.debateUpdate ⟨some (.int debateId), some "Edited"⟩,
    some (.ticketParticipant "Debate updated!"
      (.debateTitleUpdated (.int 1) testUser "Old title" "Edited" (.int 2)) .debate (.int 2))⟩

theorem message_within_ticket_sample :
    (∃ r, (∀ r', (retitle 1).Writes twoDebates (handle 2 firstSocket (retitle 1) twoDebates).db r' ↔
        r' = r) ∧ r.OnTicket "1") ∧
      ∀ (s : ReviewState) (position : Nat),
        s.handlers[position]? = some ⟨firstSocket, retitle 1, some (.ok (retitled 1))⟩ →
          deliveries s (.resume position) =
            s.emit firstSocket (reviewRoom "1") (retitled 1).event := by
  have hok : (handle 2 firstSocket (retitle 1) twoDebates).result = .ok (retitled 1) := rfl
  refine (message_within_ticket_iff rfl hok).2 fun r hr haddr => ?_
  have hdebates : ∀ x ∈ twoDebates.debates.rows, x.id = 1 → x.ticketId = 1 := by
    rw [twoDebates_eq]
    decide +kernel
  rcases r with tc | (x | a)
  · exact nomatch haddr
  · obtain ⟨data, hdata, hid⟩ := haddr
    cases hdata
    have hx : x.id = 1 := by simpa [eq_comm] using hid
    refine ⟨1, ?_, by decide⟩
    exact congrArg some (hdebates x (by simpa using hr) hx)
  · exact nomatch haddr

/-- In the room of ticket 1 the user retitles the debate of ticket 2. -/
theorem edit_announced_in_other_room :
    ¬ ∀ db : Database, db.Reachable → ∀ (now : Timestamp) (socket : Socket)
      (message : ReviewMessage) (T : String) (result : HandlerResult),
      socket.getTicketIdFromSocket = .ok T → (handle now socket message db).result = .ok result →
        ∀ r, message.Writes db (handle now socket message db).db r → r.OnTicket T := by
  intro h
  have hdebate : ⟨2, 2, "Edited", 1, 1, 1⟩ ∈
      (handle 2 firstSocket (retitle 2) twoDebates).db.debates.rows := by
    rw [twoDebates_eq]
    decide +kernel
  obtain ⟨k, hk, hT⟩ := h twoDebates (Database.reachable_run id _) 2 firstSocket (retitle 2) "1"
    (retitled 2) rfl rfl (.submission (.debate ⟨2, 2, "Edited", 1, 1, 1⟩))
    ⟨mem_reviewRows_submission.2 (mem_submissions_debate.2 hdebate), Or.inl ⟨_, rfl, rfl⟩⟩
  cases hk
  exact absurd hT (by decide)

/-! ## Review notifications -/

/-- **Whom a message notifies.** A message that creates a comment or edits a submission enqueues its
    job for the other participant of the ticket exactly if the ticket has one, with an account, and
    the payload gives this user as the sender's counterpart. -/
theorem notifies_other_iff {now : Timestamp} {T : String} {userId assignedToId : JsNumber}
    (hticket : socket.getTicketIdFromSocket = .ok T) (huser : socket.user = some user)
    (hmessage : message.participants? = some (userId, assignedToId))
    (hok : (handle now socket message db).result = .ok result) :
    result.NotifiesOther (handle now socket message db).db T user.id ↔
      db.NamesOther T user.id userId assignedToId := by
  obtain ⟨user', huser', heffect⟩ := handle_effect hticket hok
  obtain rfl : user = user' := by simpa [huser] using huser'
  have hother : (handle now socket message db).db.otherParticipant T user.id =
      db.otherParticipant T user.id := by
    unfold Database.otherParticipant
    rw [heffect.tickets]
  have hjob : result.job.map NotificationJobPayload.recipientId? =
      some (some (recipientOf user userId assignedToId)) := by
    rw [heffect.job, hmessage, Option.map_some]
  obtain ⟨job, hsome, hrecipient⟩ := Option.map_eq_some_iff.1 hjob
  have hrecipientOf : ∀ n, recipientOf user userId assignedToId = n ↔
      (userId = .int user.id → assignedToId = n) ∧ (userId ≠ .int user.id → userId = n) := by
    intro n
    unfold recipientOf
    split <;> simp [*]
  constructor
  · intro h
    obtain ⟨u, hu, hid⟩ := h.account job hsome
    have hn : recipientOf user userId assignedToId = .int u.id := by
      rw [hrecipient] at hid
      exact Option.some.inj hid
    refine ⟨u, heffect.users ▸ hu, ?_, (hrecipientOf _).1 hn⟩
    have hsame := h.recipient
    rw [hjob, hother, hn] at hsame
    obtain ⟨p, hp, hpn⟩ := Option.map_eq_some_iff.1 hsame.symm
    rw [hp]
    simpa using hpn
  · rintro ⟨u, hu, hother', hn⟩
    rw [← hrecipientOf] at hn
    refine ⟨?_, fun job' hjob' => ⟨u, heffect.users ▸ hu, ?_⟩⟩
    · rw [hjob, hother, hother', hn, Option.map_some]
    · obtain rfl : job = job' := Option.some.inj (hsome.symm.trans hjob')
      rw [hrecipient, hn]

/-- The user comments on ticket 1; the payload has the ids 1 and `assignedToId`. -/
def commentOn (assignedToId : JsNumber) : ReviewMessage :=
  .commentDebateCreate ⟨"A comment", .int 1, assignedToId, "Title"⟩

def commented (recipientId : JsNumber) : HandlerResult :=
  ⟨.commentDebateCreate ⟨1, "A comment", 1, 2, 2, testUser.username⟩,
    some (.ticketParticipant "New comment!"
      (.debateReviewNewComment (.int 1) 1 testUser "Title" recipientId) .debate recipientId)⟩

/-- A moderator has taken ticket 1. -/
def takenTicket : Database :=
  run step (Database.empty id)
    (createUsers ++ [proposeDebate, .updateTicket ⟨moderatorOne.id, 1, "IN REVIEW"⟩])

theorem notifies_other_sample :
    (commented (.int 2)).NotifiesOther (handle 2 firstSocket (commentOn (.int 2)) takenTicket).db
      "1" testUser.id := by
  have hok : (handle 2 firstSocket (commentOn (.int 2)) takenTicket).result =
      .ok (commented (.int 2)) := rfl
  refine (notifies_other_iff rfl rfl rfl hok).2 ?_
  rw [takenTicket, run_createUsers_append]
  unfold Database.NamesOther
  decide +kernel

/-- A comment on a ticket that no moderator has taken notifies user 0: `+null` is 0. -/
theorem comment_notifies_nobody :
    ¬ ∀ db : Database, db.Reachable → ∀ (now : Timestamp) (socket : Socket) (user : UserCookieData)
      (message : ReviewMessage) (T : String) (result : HandlerResult)
      (p : JsNumber × JsNumber), socket.getTicketIdFromSocket = .ok T → socket.user = some user →
      message.participants? = some p → (handle now socket message db).result = .ok result →
        result.NotifiesOther (handle now socket message db).db T user.id := by
  intro h
  have hsent := h twoDebates (Database.reachable_run id _) 2 firstSocket testUser
    (commentOn (.int 0)) "1" (commented (.int 0)) _ rfl rfl rfl rfl
  have hrecipient := hsent.recipient
  rw [twoDebates_eq] at hrecipient
  exact absurd hrecipient (by decide +kernel)

end DecentDebates

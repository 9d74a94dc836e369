import DecentDebates.Sessions
import DecentDebates.Proofs.Approvals
import DecentDebates.Proofs.Authorship
import DecentDebates.Proofs.Login
import DecentDebates.Proofs.PublicApi
import DecentDebates.Proofs.ReviewMessages
import DecentDebates.Proofs.ReviewPage

set_option autoImplicit false

/-! # Requests with sessions: proofs

A step of the API makes at most one service call, in the name of the user whom its request or its
socket carries (`apiStep_db`). A user gets into the state of the API only by signing up or signing
in (`Holds.step`), and what a user may do there is what the row of the account says (`Sound`). -/

namespace DecentDebates

open Relational Transition

variable {bcrypt : Bcrypt} {db db' : Database}

/-! ## Accounts -/

/-- A row that a call has added to the accounts. -/
inductive NewUser : Call → UserRow → Prop
  | registered {now : Timestamp} {d : RegisterUserDTO} {row : UserRow}
      (hrole : row.role = some .user) : NewUser (.insertOne now d) row
  | seeded (now : Timestamp) (d : RegisterUserDTO) (role : Option UserRole) (row : UserRow) :
      NewUser (.seedUser now d role) row

theorem insertUser_role {now : Timestamp} {d : RegisterUserDTO} {role : Option UserRole}
    {row : UserRow} (h : insertUser now d role db = .ok (row, db')) : row.role = role := by
  simp only [insertUser, Sql.bind_eq_ok, Sql.get_eq_ok, Sql.lift_eq_ok, Sql.check_eq_ok,
    Sql.set_eq_ok, Sql.pure_eq_ok] at h
  obtain ⟨_, _, ⟨rfl, rfl⟩, _, _, ⟨-, rfl⟩, _, _, ⟨-, rfl⟩, _, _, ⟨-, rfl⟩, _, _, ⟨-, rfl⟩, _, _,
    ⟨-, rfl⟩, _, _, rfl, rfl, -⟩ := h
  rfl

/-- Accounts are only added, by the two calls that insert one. -/
theorem step_users (db : Database) (c : Call) :
    (step db c).users.rows = db.users.rows ∨
      ∃ row, (step db c).users.rows = db.users.rows ++ [row] ∧ NewUser c row := by
  have hinsert (now : Timestamp) (d : RegisterUserDTO) (role : Option UserRole) {c : Call}
      (hnew : ∀ row : UserRow, row.role = role → NewUser c row) :
      ((insertUser now d role).commit db).2.users.rows = db.users.rows ∨
        ∃ row, ((insertUser now d role).commit db).2.users.rows = db.users.rows ++ [row] ∧
          NewUser c row := by
    rcases Sql.commit_cases (insertUser now d role) db with ⟨row, db', hok, hcommit⟩ | ⟨e, -, hcommit⟩
    · rw [hcommit]
      exact Or.inr ⟨row, (insertUser_eq_ok hok).1, hnew row (insertUser_role hok)⟩
    · rw [hcommit]
      exact Or.inl rfl
  have hkeep {α : Type} {m : Sql α} (h : ∀ a db', m db = .ok (a, db') → db'.users = db.users) :
      (m.commit db).2.users.rows = db.users.rows :=
    Sql.commit_rule (P := fun db' => db'.users.rows = db.users.rows) rfl
      fun a db' hok => congrArg SerialTable.rows (h a db' hok)
  cases c with
  | insertOne now d =>
    rw [step, insertOne_commit]
    exact hinsert now d _ fun row hrole => .registered hrole
  | seedUser now d role =>
    rw [step, seedUser_commit]
    exact hinsert now d role fun row hrole => .seeded now d role row
  | createDebate now user d =>
    rw [step, createDebate_commit]
    refine Or.inl (hkeep fun ticketId db' hok => ?_)
    obtain ⟨title, tags, assoc, -, -, -, -, -, rfl⟩ := createDebateSql_ok hok
    rfl
  | createArgument now d =>
    rw [step, createArgument_commit]
    refine Or.inl (hkeep fun ticketId db' hok => ?_)
    obtain ⟨debateId, c, -, -, -, -, -, -, -, rfl⟩ := createArgumentSql_eq_ok.1 hok
    rfl
  | saveArgumentAsDraft now d =>
    rw [step, saveArgumentAsDraft_commit]
    refine Or.inl (hkeep fun id db' hok => ?_)
    obtain ⟨debateId, c, -, -, -, -, -, -, rfl⟩ := insertArgument_eq_ok.1 hok
    rfl
  | updateDraft d =>
    rw [step, updateDraft_commit]
    refine Or.inl (hkeep fun n db' hok => ?_)
    obtain ⟨c, debateId, draftId, -, -, -, rfl, -⟩ := updateDraftSql_eq_ok.1 hok
    rfl
  | submitDraft d =>
    rw [step, submitDraft_commit]
    refine Or.inl (hkeep fun u db' hok => ?_)
    obtain ⟨c, draftId, debateId, -, rfl⟩ := submitDraftSql_eq_ok.1 hok
    rfl
  | updateArgument d =>
    rw [step, updateArgument_commit]
    refine Or.inl (hkeep fun n db' hok => ?_)
    obtain ⟨title, content, argumentId, -, -, rfl⟩ := updateArgumentSql_ok hok
    rfl
  | updateDebate d =>
    rw [step, updateDebate_commit]
    refine Or.inl (hkeep fun n db' hok => ?_)
    obtain ⟨title, debateId, -, -, rfl⟩ := updateDebateSql_ok hok
    rfl
  | updateTicket d =>
    rw [step, updateTicket_commit]
    refine Or.inl (hkeep fun n db' hok => ?_)
    obtain ⟨b, -, -, rfl, -⟩ := updateTicketSql_eq_ok.1 hok
    rfl
  | approveTicket user ticketId =>
    rw [step, approveTicket_commit]
    refine Or.inl (hkeep fun rows db' hok => ?_)
    obtain ⟨-, rfl, -⟩ := approveTicketSql_eq_ok.1 hok
    rfl
  | addCommentToDebate now d =>
    rcases addComment_cases debateReferences now d db with
      ⟨ticketId, content, u, -, -, -, -, -, hadd⟩ | ⟨e, hadd⟩ <;>
    exact Or.inl (congrArg (fun outcome => outcome.db.users.rows) hadd)
  | addCommentToArgument now d =>
    rcases addComment_cases argumentReferences now d db with
      ⟨ticketId, content, u, -, -, -, -, -, hadd⟩ | ⟨e, hadd⟩ <;>
    exact Or.inl (congrArg (fun outcome => outcome.db.users.rows) hadd)
  | updateComment now user d =>
    rw [step, updateComment_commit]
    refine Or.inl (hkeep fun n db' hok => ?_)
    obtain ⟨content, commentId, -, -, rfl⟩ := updateCommentSql_ok hok
    rfl
  | skipIds gaps => exact Or.inl rfl

/-! ## Calls -/

/-- A call of `user`, other than one of the moderators' two. -/
structure Call.ByUser (c : Call) (user : UserCookieData) : Prop where
  actor : c.actor = some user.id
  plain : c.byModerator = false

theorem handleCommentCreate_call
    {addComment : Timestamp → AddCommentData → Database → Outcome Comment}
    {event : Comment → ReviewEvent}
    {job : UserCookieData → JsNumber → Comment → NotificationJobPayload} {now : Timestamp}
    {socket : Socket} {content : String} {db : Database} (make : AddCommentData → Call)
    (hmake : ∀ d, step db (make d) = (addComment now d db).db)
    (hby : ∀ (d : AddCommentData) (user : UserCookieData), d.commenterId = user.id →
      (make d).ByUser user) :
    (handleCommentCreate addComment event job now socket content db).db = db ∨
      ∃ c user, socket.user = some user ∧ c.ByUser user ∧
        (handleCommentCreate addComment event job now socket content db).db = step db c := by
  unfold handleCommentCreate
  cases hdata : commentDataOf socket content with
  | error e => exact Or.inl rfl
  | ok p =>
    obtain ⟨user, d⟩ := p
    obtain ⟨ticketId, -, huser, rfl⟩ := commentDataOf_ok hdata
    refine Or.inr ⟨make ⟨toNumber ticketId, content, user.id⟩, user, huser, hby _ user rfl, ?_⟩
    rw [hmake]
    simp only
    split <;> rfl

theorem handleCommentUpdate_call {event : UpdateCommentData → ReviewEvent} {now : Timestamp}
    {socket : Socket} {payload : UpdateCommentData} {db : Database} :
    (handleCommentUpdate event now socket payload db).db = db ∨
      ∃ c user, socket.user = some user ∧ c.ByUser user ∧
        (handleCommentUpdate event now socket payload db).db = step db c := by
  unfold handleCommentUpdate
  split
  · exact Or.inl rfl
  · cases huser : socket.dataUser "id" with
    | error e => exact Or.inl rfl
    | ok user =>
      exact Or.inr ⟨.updateComment now user payload, user, dataUser_eq_ok.1 huser, ⟨rfl, rfl⟩,
        updated_db _ _⟩

/-- The service call of a message is the sender's. -/
theorem handle_call (now : Timestamp) (socket : Socket) (message : ReviewMessage) (db : Database) :
    (handle now socket message db).db = db ∨
      ∃ c user, socket.user = some user ∧ c.ByUser user ∧
        (handle now socket message db).db = step db c := by
  cases message with
  | commentDebateCreate payload =>
    exact handleCommentCreate_call (.addCommentToDebate now) (fun _ => rfl)
      fun d user h => ⟨congrArg some h, rfl⟩
  | commentArgumentCreate payload =>
    exact handleCommentCreate_call (.addCommentToArgument now) (fun _ => rfl)
      fun d user h => ⟨congrArg some h, rfl⟩
  | commentDebateUpdate payload => exact handleCommentUpdate_call
  | commentArgumentUpdate payload => exact handleCommentUpdate_call
  | argumentUpdate payload =>
    simp only [handle, handleArgumentUpdate]
    cases hdata : updateArgumentDataOf socket payload with
    | error e => exact Or.inl rfl
    | ok p =>
      exact Or.inr ⟨.updateArgument p.2, p.2.user, (updateArgumentDataOf_ok hdata).2.1, ⟨rfl, rfl⟩,
        updated_db _ _⟩
  | debateUpdate payload =>
    simp only [handle, handleDebateUpdate]
    cases hdata : updateDebateDataOf socket payload with
    | error e => exact Or.inl rfl
    | ok p =>
      exact Or.inr ⟨.updateDebate p.2, p.2.user, (updateDebateDataOf_ok hdata).2.1, ⟨rfl, rfl⟩,
        updated_db _ _⟩

/-! ## Requests -/

theorem mem_of_login {order : List UserRow → List UserRow}
    (horder : ∀ users, (order users).Perm users) {d : LoginUserDTO} {row : UserRow}
    (h : AuthService.login bcrypt order d db = .ok row) : row ∈ db.users.rows := by
  by_cases hname : IsText d.emailOrUsername
  · exact (named_of_login hname horder h).1
  · simp only [AuthService.login, getOneByEmailOrUsername, text, if_neg hname] at h
    cases h

theorem withUser_call (db : Database) (user : Option UserCookieData) (call : UserCookieData → Call)
    (hactor : ∀ user, (call user).actor = some user.id) {p : Prop}
    (hmoderates : ∀ user, (call user).byModerator = true → p) :
    (withUser user db fun user => step db (call user)).db = db ∨
      ∃ c u, user = some u ∧ c.actor = some u.id ∧ (c.byModerator = true → p) ∧
        (withUser user db fun user => step db (call user)).db = step db c := by
  cases user with
  | none => exact Or.inl rfl
  | some u => exact Or.inr ⟨call u, u, rfl, hactor u, hmoderates u, rfl⟩

/-- A handler makes a call of the session's user, or registers an account, or writes nothing. -/
theorem ApiRequest.handle_call (r : ApiRequest bcrypt) (user : Option UserCookieData)
    (db : Database) :
    ((r.handle user db).db = db ∨
      ∃ c u, user = some u ∧ c.actor = some u.id ∧ (c.byModerator = true → r.Moderates) ∧
        (r.handle user db).db = step db c) ∨
    ∃ now d, (r.handle user db).db = step db (.insertOne now d) := by
  have hplain (call : UserCookieData → Call) (hactor : ∀ user, (call user).actor = some user.id)
      (hplain : ∀ user, (call user).byModerator = false) :=
    withUser_call db user call hactor (p := r.Moderates)
      fun u h => absurd h (by rw [hplain u]; decide)
  cases r with
  | register salt now d =>
    refine Or.inr ⟨now, { d with password := bcrypt.hash salt d.password }, ?_⟩
    simp only [handle, AuthController.handle, AuthService.register, step]
    split <;> rfl
  | login found d => exact Or.inl (Or.inl rfl)
  | createDebate now body => exact Or.inl (hplain _ (fun _ => rfl) fun _ => rfl)
  | createArgument now debateId body => exact Or.inl (hplain _ (fun _ => rfl) fun _ => rfl)
  | saveArgumentAsDraft now debateId body => exact Or.inl (hplain _ (fun _ => rfl) fun _ => rfl)
  | updateDraft debateId draftId body => exact Or.inl (hplain _ (fun _ => rfl) fun _ => rfl)
  | submitDraft debateId draftId body => exact Or.inl (hplain _ (fun _ => rfl) fun _ => rfl)
  | updateTicket id body =>
    exact Or.inl (withUser_call db user (fun user => .updateTicket ⟨user.id, id, body.boardList⟩)
      (fun _ => rfl) fun _ _ => trivial)
  | approveDebate ticketId body =>
    have happrove : (ApiRequest.approveDebate ticketId body : ApiRequest bcrypt).handle user db =
        withUser user db fun user => step db (.approveTicket user ticketId) := by
      cases user with
      | none => rfl
      | some user => exact congrArg (Served.mk · none) (approve_db _ _ user ticketId db)
    rw [happrove]
    exact Or.inl (withUser_call db user _ (fun _ => rfl) fun _ _ => trivial)
  | approveArgument ticketId body =>
    have happrove : (ApiRequest.approveArgument ticketId body : ApiRequest bcrypt).handle user db =
        withUser user db fun user => step db (.approveTicket user ticketId) := by
      cases user with
      | none => rfl
      | some user => exact congrArg (Served.mk · none) (approve_db _ _ user ticketId db)
    rw [happrove]
    exact Or.inl (withUser_call db user _ (fun _ => rfl) fun _ _ => trivial)
  | read reading => exact Or.inl (Or.inl rfl)

/-- Only the two endpoints of `AuthController` give a session a user. -/
theorem signsIn_of_signedIn {s : ApiState bcrypt} {position : Nat} {r : InFlight bcrypt}
    {user : UserCookieData} (hr : s.requests[position]? = some r)
    (h : (r.request.handle r.user s.review.db).signedIn = some user) :
    s.SignsIn (.handle position) user := by
  have hauth {result : Except AuthError UserRow × Database}
      (h : (AuthController.handle result).signedIn = some user) :
      ∃ row, result.1 = .ok row ∧ getUserCookieFields row = user := by
    obtain ⟨e | row, db'⟩ := result
    · cases h
    · exact ⟨row, rfl, Option.some.inj h⟩
  have hnone {handler : UserCookieData → Database} :
      (withUser r.user s.review.db handler).signedIn = none := by
    cases r.user <;> rfl
  cases hrequest : r.request with
  | register salt now d =>
    rw [hrequest] at h
    obtain ⟨row, hrow, rfl⟩ := hauth h
    exact .registers hr hrequest hrow
  | login found d =>
    rw [hrequest] at h
    obtain ⟨row, hrow, rfl⟩ := hauth h
    exact .logsIn hr hrequest hrow
  | read reading =>
    rw [hrequest] at h
    cases h
  | _ =>
    rw [hrequest] at h
    exact absurd (hnone.symm.trans h) (by simp)

/-- Whoever signs up or in has an account then. -/
theorem ApiState.SignsIn.account {s : ApiState bcrypt} {l : ApiStep bcrypt} {user : UserCookieData}
    (h : s.SignsIn l user) :
    ∃ row ∈ (apiStep s l).review.db.users.rows, getUserCookieFields row = user := by
  cases h with
  | @registers position r salt now d row hr hrequest hrow =>
    rcases register_cases bcrypt salt now d s.review.db with ⟨user, db', hreg, hins⟩ | ⟨e, hreg⟩
    · obtain rfl : user = row := by
        rw [hreg] at hrow
        exact Except.ok.inj hrow
      refine ⟨user, ?_, rfl⟩
      simp only [apiStep, ApiState.handle, hr, hrequest, ApiRequest.handle, AuthController.handle,
        hreg, (insertUser_eq_ok hins).1]
      exact List.mem_append_right _ List.mem_cons_self
    · rw [hreg] at hrow
      cases hrow
  | @logsIn position r found d row hr hrequest hrow =>
    refine ⟨row, ?_, rfl⟩
    simp only [apiStep, ApiState.handle, hr, hrequest, ApiRequest.handle, AuthController.handle]
    exact mem_of_login found.perm hrow

/-! ## Steps -/

/-- The endpoints of the moderators are behind their guard. -/
theorem ApiRequest.Moderates.role {r : ApiRequest bcrypt} (h : r.Moderates)
    {user : Option UserCookieData} {overLimit : Bool}
    (hguards : r.route.canActivate user overLimit = .ok ()) :
    ∃ u, user = some u ∧ u.role = some .moderator := by
  have hroute : r.route = moderatorRoute .patch := by
    cases r with
    | updateTicket => rfl
    | approveDebate => rfl
    | approveArgument => rfl
    | _ => exact h.elim
  rw [hroute] at hguards
  cases user with
  | none => cases overLimit <;> cases hguards
  | some u =>
    refine ⟨u, rfl, ?_⟩
    obtain ⟨id, role, username⟩ := u
    cases role with
    | none => cases overLimit <;> cases hguards
    | some role =>
      cases role with
      | moderator => rfl
      | _ => cases overLimit <;> cases hguards

/-- What a step has a service do. -/
inductive ApiState.Calls (s : ApiState bcrypt) : ApiStep bcrypt → Call → Prop
  | registers (position : Nat) (now : Timestamp) (d : RegisterUserDTO) :
      s.Calls (.handle position) (.insertOne now d)
  | requests {position : Nat} {r : InFlight bcrypt} {user : UserCookieData} {c : Call}
      (hr : s.requests[position]? = some r) (huser : r.user = some user)
      (hactor : c.actor = some user.id) (hmoderates : c.byModerator = true → r.request.Moderates) :
      s.Calls (.handle position) c
  | executes {now : Timestamp} {position : Nat} {handler : Handler} {user : UserCookieData}
      {c : Call} (hhandler : s.review.handlers[position]? = some handler)
      (huser : handler.sender.user = some user) (hc : c.ByUser user) :
      s.Calls (.execute now position) c
  | skips (gaps : Gaps) : s.Calls (.skipIds gaps) (.skipIds gaps)

/-- What a step is for the rooms. -/
inductive ApiState.Induces (s : ApiState bcrypt) : ApiStep bcrypt → ReviewStep → Prop
  | calls {l : ApiStep bcrypt} {c : Call} (h : s.Calls l c) : s.Induces l (.call c)
  | connects (socketId : Nat) (ticketId : Option String) :
      s.Induces (.connect socketId ticketId) (.connect socketId ticketId)
  | joins {socketId : Nat} {cookie : Option Nat} {user : UserCookieData}
      (h : s.store.user cookie = some user) :
      s.Induces (.handleConnection socketId cookie) (.handleConnection socketId user)
  | rejects (socketId : Nat) (cookie : Option Nat) :
      s.Induces (.handleConnection socketId cookie) (.disconnect socketId)
  | disconnects (socketId : Nat) : s.Induces (.disconnect socketId) (.disconnect socketId)
  | sends (socketId : Nat) (message : ReviewMessage) :
      s.Induces (.message socketId message) (.message socketId message)
  | executes (now : Timestamp) (position : Nat) :
      s.Induces (.execute now position) (.execute now position)
  | resumes (position : Nat) : s.Induces (.resume position) (.resume position)

variable {s : ApiState bcrypt} {l : ApiStep bcrypt} {user : UserCookieData}

/-- For the rooms, a step of the API is one of theirs, or none. -/
theorem apiStep_review (s : ApiState bcrypt) (l : ApiStep bcrypt) :
    (apiStep s l).review = s.review ∨
      ∃ l', s.Induces l l' ∧ (apiStep s l).review = reviewStep s.review l' := by
  cases l with
  | receive cookie generated overLimit request =>
    simp only [apiStep, ApiState.receive]
    split <;> exact Or.inl rfl
  | handle position =>
    simp only [apiStep, ApiState.handle]
    split
    · exact Or.inl rfl
    · next r hr =>
      rcases r.request.handle_call r.user s.review.db with
        (hdb | ⟨c, u, huser, hactor, hmoderates, hdb⟩) | ⟨now, d, hdb⟩
      · simp only [hdb]
        exact Or.inl trivial
      · simp only [hdb]
        exact Or.inr ⟨_, .calls (.requests hr huser hactor hmoderates), rfl⟩
      · simp only [hdb]
        exact Or.inr ⟨_, .calls (.registers position now d), rfl⟩
  | save position =>
    simp only [apiStep, ApiState.save]
    split <;> exact Or.inl rfl
  | expire id => exact Or.inl rfl
  | connect socketId ticketId => exact Or.inr ⟨_, .connects socketId ticketId, rfl⟩
  | handleConnection socketId cookie =>
    simp only [apiStep, ApiState.handleConnection]
    split
    · exact Or.inr ⟨_, .rejects socketId cookie, rfl⟩
    · next user huser => exact Or.inr ⟨_, .joins huser, rfl⟩
  | disconnect socketId => exact Or.inr ⟨_, .disconnects socketId, rfl⟩
  | message socketId message => exact Or.inr ⟨_, .sends socketId message, rfl⟩
  | execute now position => exact Or.inr ⟨_, .executes now position, rfl⟩
  | resume position => exact Or.inr ⟨_, .resumes position, rfl⟩
  | skipIds gaps => exact Or.inr ⟨_, .calls (.skips gaps), rfl⟩

/-- **A step makes one call, or leaves the tables alone.** -/
theorem apiStep_db (s : ApiState bcrypt) (l : ApiStep bcrypt) :
    (apiStep s l).review.db = s.review.db ∨
      ∃ c, s.Calls l c ∧ (apiStep s l).review.db = step s.review.db c := by
  rcases apiStep_review s l with h | ⟨l', hinduces, h⟩
  · exact Or.inl (congrArg ReviewState.db h)
  · rw [h]
    cases hinduces with
    | calls hc => exact Or.inr ⟨_, hc, rfl⟩
    | connects =>
      simp only [reviewStep]
      split <;> exact Or.inl rfl
    | joins => exact Or.inl rfl
    | rejects => exact Or.inl rfl
    | disconnects => exact Or.inl rfl
    | sends =>
      simp only [reviewStep]
      split <;> exact Or.inl rfl
    | executes now position =>
      simp only [reviewStep]
      split
      · next sender message hhandler =>
        refine (handle_call now sender message s.review.db).imp_right ?_
        rintro ⟨c, user, huser, hc, hdb⟩
        exact ⟨c, .executes hhandler huser hc, hdb⟩
      · exact Or.inl rfl
    | resumes position =>
      simp only [reviewStep]
      split
      · exact Or.inl rfl
      · exact Or.inl (removeUserFromRoom_db _ _)
      · exact Or.inl rfl

/-! ## Users come from signing in -/

theorem mem_of_lookup {store : SessionStore} {id : Nat}
    (h : store.sessions.lookup id = some user) : (id, user) ∈ store.sessions := by
  obtain ⟨l₁, l₂, hsplit, -⟩ := List.lookup_eq_some_iff.1 h
  exact hsplit ▸ List.mem_append_right _ List.mem_cons_self

theorem mem_of_user {store : SessionStore} {cookie : Option Nat}
    (h : store.user cookie = some user) : ∃ id, (id, user) ∈ store.sessions := by
  cases cookie with
  | none => cases h
  | some id => exact ⟨id, mem_of_lookup h⟩

theorem sessions_step {sessionId : Nat} (h : (sessionId, user) ∈ (apiStep s l).store.sessions) :
    (sessionId, user) ∈ s.store.sessions ∨ (sessionId, user) ∈ s.ending := by
  have hkept (id : Nat) (h : (sessionId, user) ∈ (s.store.destroy id).sessions) :
      (sessionId, user) ∈ s.store.sessions := (List.mem_filter.1 h).1
  cases l with
  | receive cookie generated overLimit request =>
    simp only [apiStep, ApiState.receive] at h
    split at h <;> exact Or.inl h
  | handle position =>
    simp only [apiStep, ApiState.handle] at h
    split at h <;> exact Or.inl h
  | save position =>
    simp only [apiStep, ApiState.save] at h
    split at h
    · exact Or.inl h
    · next id user' hending =>
      rcases List.mem_cons.1 h with h | h
      · cases h
        exact Or.inr (List.mem_of_getElem? hending)
      · exact Or.inl (hkept id h)
  | expire id => exact Or.inl (hkept id h)
  | _ => exact Or.inl h

theorem ending_step {sessionId : Nat} (h : (sessionId, user) ∈ (apiStep s l).ending) :
    (sessionId, user) ∈ s.ending ∨ s.Binds l (sessionId, user) := by
  cases l with
  | receive cookie generated overLimit request =>
    simp only [apiStep, ApiState.receive] at h
    split at h <;> exact Or.inl h
  | handle position =>
    simp only [apiStep, ApiState.handle] at h
    split at h
    · exact Or.inl h
    · next r hr =>
      refine (List.mem_append.1 h).imp_right fun h => ?_
      obtain ⟨u, hsigned, heq⟩ := Option.map_eq_some_iff.1 (Option.mem_toList.1 h)
      cases heq
      exact ⟨position, r, rfl, hr, rfl, signsIn_of_signedIn hr hsigned⟩
  | save position =>
    simp only [apiStep, ApiState.save] at h
    split at h
    · exact Or.inl h
    · exact Or.inl (List.mem_of_mem_eraseIdx h)
  | _ => exact Or.inl h

/-- A request in flight had been let through before, or is let through by the step. -/
theorem requests_step {r : InFlight bcrypt} (h : r ∈ (apiStep s l).requests) :
    r ∈ s.requests ∨ ∃ cookie overLimit, r.user = s.store.user cookie ∧
      r.request.route.canActivate r.user overLimit = .ok () := by
  cases l with
  | receive cookie generated overLimit request =>
    simp only [apiStep, ApiState.receive] at h
    split at h
    · exact Or.inl h
    · next hguards =>
      refine (List.mem_append.1 h).imp_right fun h => ?_
      rw [List.mem_singleton.1 h]
      exact ⟨cookie, overLimit, rfl, hguards⟩
  | handle position =>
    simp only [apiStep, ApiState.handle] at h
    split at h
    · exact Or.inl h
    · exact Or.inl (List.mem_of_mem_eraseIdx h)
  | save position =>
    simp only [apiStep, ApiState.save] at h
    split at h <;> exact Or.inl h
  | _ => exact Or.inl h

theorem sockets_step {socket : Socket} (h : socket ∈ (apiStep s l).review.sockets)
    (huser : socket.user = some user) : s.Holds user := by
  rcases apiStep_review s l with hsame | ⟨l', hinduces, hstep⟩
  · exact .socket (hsame ▸ h) huser
  · rw [hstep] at h
    cases reviewStep_sockets h with
    | kept hmem => exact .socket hmem huser
    | connected => cases huser
    | joined hjoins =>
      cases hinduces with
      | joins hcookie =>
        cases hjoins
        cases huser
        obtain ⟨id, hid⟩ := mem_of_user hcookie
        exact .session hid
      | _ => cases hjoins

/-- A handler has the socket as it was when the message came. -/
theorem reviewStep_handlers {s : ReviewState} {l : ReviewStep} {handler : Handler}
    (h : handler ∈ (reviewStep s l).handlers) :
    (∃ old ∈ s.handlers, old.sender = handler.sender) ∨ handler.sender ∈ s.sockets := by
  have hkept (h : handler ∈ s.handlers) : ∃ old ∈ s.handlers, old.sender = handler.sender :=
    ⟨handler, h, rfl⟩
  cases l with
  | connect socketId ticketId =>
    simp only [reviewStep] at h
    split at h <;> exact Or.inl (hkept h)
  | message socketId message =>
    simp only [reviewStep] at h
    split at h
    · exact Or.inl (hkept h)
    · next socket hsocket =>
      rcases List.mem_append.1 h with h | h
      · exact Or.inl (hkept h)
      · rw [List.mem_singleton.1 h]
        exact Or.inr (List.mem_of_find?_eq_some hsocket)
  | execute now position =>
    simp only [reviewStep] at h
    split at h
    · next sender message hhandler =>
      rcases List.mem_or_eq_of_mem_set h with h | rfl
      · exact Or.inl (hkept h)
      · exact Or.inl ⟨_, List.mem_of_getElem? hhandler, rfl⟩
    · exact Or.inl (hkept h)
  | resume position =>
    simp only [reviewStep] at h
    split at h
    · exact Or.inl (hkept (List.mem_of_mem_eraseIdx h))
    · rw [removeUserFromRoom_handlers] at h
      exact Or.inl (hkept (List.mem_of_mem_eraseIdx h))
    · exact Or.inl (hkept h)
  | _ => exact Or.inl (hkept h)

theorem handlers_step {handler : Handler} (h : handler ∈ (apiStep s l).review.handlers)
    (huser : handler.sender.user = some user) : s.Holds user := by
  rcases apiStep_review s l with hsame | ⟨l', -, hstep⟩
  · exact .handler (hsame ▸ h) huser
  · rcases reviewStep_handlers (hstep ▸ h) with ⟨old, hold, hsender⟩ | hsocket
    · exact .handler hold (hsender ▸ huser)
    · exact .socket hsocket huser

/-- **Nobody gets in but by signing up or signing in.** -/
theorem ApiState.Holds.step (h : (apiStep s l).Holds user) : s.Holds user ∨ s.SignsIn l user := by
  cases h with
  | session h => exact Or.inl ((sessions_step h).elim .session .ending)
  | ending h =>
    rcases ending_step h with h | ⟨-, -, -, -, -, hsigned⟩
    · exact Or.inl (.ending h)
    · exact Or.inr hsigned
  | request h huser =>
    rcases requests_step h with h | ⟨cookie, -, hcookie, -⟩
    · exact Or.inl (.request h huser)
    · obtain ⟨id, hid⟩ := mem_of_user (hcookie.symm.trans huser)
      exact Or.inl (.session hid)
  | socket h huser => exact Or.inl (sockets_step h huser)
  | handler h huser => exact Or.inl (handlers_step h huser)

theorem not_holds_init (db : Database) : ¬ (ApiState.init bcrypt db).Holds user := by
  rintro (h | h | h | h | h) <;> cases h

/-! ## Whose session it is -/

/-- A session, stored or about to be. -/
def ApiState.HasSession (s : ApiState bcrypt) (session : Nat × UserCookieData) : Prop :=
  session ∈ s.store.sessions ∨ session ∈ s.ending

theorem hasSession_apiStep (s : ApiState bcrypt) (l : ApiStep bcrypt)
    (session : Nat × UserCookieData) (h : (apiStep s l).HasSession session) :
    s.HasSession session ∨ s.Binds l session := by
  obtain ⟨sessionId, user⟩ := session
  rcases h with h | h
  · exact Or.inl (sessions_step h)
  · exact (ending_step h).imp_left Or.inr

/-- **A session is its user's.** In every state of the API, whoever a stored session's user is has
    signed up or in, earlier in the run, by a request of that very session; whatever ids the
    sessions are given. -/
theorem sessions_bound_by_signing_in (bcrypt : Bcrypt) (db : Database)
    (ls : List (ApiStep bcrypt)) :
    ∀ session ∈ (run apiStep (.init bcrypt db) ls).store.sessions,
      ∃ p ∈ steps apiStep (.init bcrypt db) ls, p.1.Binds p.2 session := by
  intro session hsession
  refine (held_or_granted (J := fun _ => True) (fun _ _ h => h)
    (fun s l session _ h => hasSession_apiStep s l session h) trivial (Or.inl hsession)).resolve_left
    ?_
  rintro (h | h) <;> exact absurd h List.not_mem_nil

/-- A user signs up and proposes a debate. -/
def signUpAndPropose : List (ApiStep plainBcrypt) :=
  [.receive none 0 false (.register () 1 ⟨"user@example.com", "user", "password"⟩), .handle 0,
    .save 0, .receive (some 0) 1 false (.createDebate 2 ⟨"Debate", [], none⟩), .handle 0]

theorem sessions_bound_by_signing_in_sample :
    ∃ p ∈ steps apiStep (.init plainBcrypt (Database.empty id)) signUpAndPropose,
      p.1.Binds p.2 (0, ⟨1, some .user, "user"⟩) :=
  sessions_bound_by_signing_in plainBcrypt (Database.empty id) signUpAndPropose
    (0, ⟨1, some .user, "user"⟩) (List.mem_singleton.2 rfl)

/-! ## What every state has in common -/

variable {seeded : List UserRow}

theorem ApiState.Calls.role {c : Call} (h : s.Calls l c) {row : UserRow} (hnew : NewUser c row) :
    row.role = some .user := by
  cases hnew with
  | registered hrole => exact hrole
  | seeded =>
    cases h with
    | requests hr huser hactor => cases hactor
    | executes hhandler huser hc => cases hc.actor

theorem users_apiStep {row : UserRow} (h : row ∈ s.review.db.users.rows) :
    row ∈ (apiStep s l).review.db.users.rows := by
  rcases apiStep_db s l with hdb | ⟨c, -, hdb⟩
  · exact hdb ▸ h
  · rw [hdb]
    exact (step_effect s.review.db c).user_next h

theorem sound_init (db : Database) : (ApiState.init bcrypt db).Sound db.users.rows where
  accounts := fun _ h => Or.inl h
  users := fun _ h => absurd h (not_holds_init db)
  guarded := fun _ h => absurd h List.not_mem_nil

theorem sound_apiStep (s : ApiState bcrypt) (l : ApiStep bcrypt) (h : s.Sound seeded) :
    (apiStep s l).Sound seeded where
  accounts := by
    intro row hrow
    rcases apiStep_db s l with hdb | ⟨c, hc, hdb⟩
    · exact h.accounts row (hdb ▸ hrow)
    · rw [hdb] at hrow
      rcases step_users s.review.db c with hsame | ⟨new, hadded, hnew⟩
      · exact h.accounts row (hsame ▸ hrow)
      · rw [hadded] at hrow
        rcases List.mem_append.1 hrow with hrow | hrow
        · exact h.accounts row hrow
        · rw [List.mem_singleton.1 hrow]
          exact Or.inr (hc.role hnew)
  users := by
    intro user huser
    rcases huser.step with huser | hsigned
    · obtain ⟨row, hrow, hcookie⟩ := h.users user huser
      exact ⟨row, users_apiStep hrow, hcookie⟩
    · exact hsigned.account
  guarded := by
    intro r hr
    rcases requests_step hr with hr | ⟨cookie, overLimit, -, hguards⟩
    · exact h.guarded r hr
    · exact ⟨overLimit, hguards⟩

/-- **Every user is an account.** In every state of the API, whatever users the sessions, the
    requests in flight, the sockets and the message handlers carry, with their names and roles, are
    those of a row of the accounts, and an account that is not one of the seeded ones has the role
    `USER`. -/
theorem users_are_accounts (bcrypt : Bcrypt) (lower : String → String)
    (accounts : List SeedAccount) (ls : List (ApiStep bcrypt)) :
    ∀ s ∈ states apiStep (.init bcrypt (.seeded lower accounts)) ls,
      s.Sound (Database.seeded lower accounts).users.rows :=
  states_invariant sound_apiStep (sound_init _) ls

/-- The rows as the table has them. -/
def RowOrder.stored : RowOrder := ⟨id, fun _ => .rfl⟩

def seededModerator : SeedAccount :=
  ⟨0, ⟨"moderator@example.com", "moderator", "password$"⟩, some .moderator⟩

/-- The moderator signs in and asks for the ticket of the debate. -/
def signInAndTake : List (ApiStep plainBcrypt) :=
  [.receive none 1 false (.login .stored ⟨"moderator", "password"⟩), .handle 0, .save 0,
    .receive (some 1) 2 false (.updateTicket 1 ⟨"IN REVIEW"⟩)]

/-- The state in which the handler of the moderator's request is about to run. -/
def beforeTaking : ApiState plainBcrypt :=
  run apiStep (.init plainBcrypt (.seeded id [seededModerator])) (signUpAndPropose ++ signInAndTake)

theorem users_are_accounts_sample :
    beforeTaking.Sound (Database.seeded id [seededModerator]).users.rows :=
  users_are_accounts plainBcrypt id [seededModerator] _ _ (run_mem_states _ _)

/-! ## Who publishes -/

/-- A change of a ticket is a call of one of the moderators' endpoints. -/
theorem ApiState.Calls.moderates {c : Call} (h : s.Calls l c) (hc : c.byModerator = true) :
    ∃ position r, l = .handle position ∧ s.requests[position]? = some r ∧ r.request.Moderates := by
  cases h with
  | registers => cases hc
  | requests hr huser hactor hmoderates => exact ⟨_, _, rfl, hr, hmoderates hc⟩
  | executes hhandler huser hby => exact absurd (hby.plain.symm.trans hc) (by decide)
  | skips => cases hc

theorem changesTicket_of_sound (h : s.Sound seeded) {id : Int} (hchange : s.ChangesTicket l id) :
    ∃ position r row, l = .handle position ∧ s.requests[position]? = some r ∧
      r.request.Moderates ∧ r.user = some (getUserCookieFields row) ∧ row ∈ seeded ∧
      row.role = some .moderator := by
  obtain ⟨t, ht, t', ht', hid, hid', hne⟩ := hchange
  rcases apiStep_db s l with hdb | ⟨c, hc, hdb⟩
  · exact absurd (SerialTable.eq_of_rowId_eq (hdb ▸ ht') ht (hid'.trans hid.symm)) hne
  · rw [hdb] at ht'
    rcases (step_effect s.review.db c).ticket_prev ht' with ⟨t₀, ht₀, hto⟩ | hnew
    · obtain rfl := SerialTable.eq_of_rowId_eq ht₀ ht (hto.id.symm.trans (hid'.trans hid.symm))
      have hby : c.byModerator = true := by
        cases hby : c.byModerator with
        | true => rfl
        | false => exact absurd (hto.eq_of_author hby) hne
      obtain ⟨position, r, rfl, hr, hmoderates⟩ := hc.moderates hby
      have hmem := List.mem_of_getElem? hr
      obtain ⟨overLimit, hguards⟩ := h.guarded r hmem
      obtain ⟨user, huser, hrole⟩ := hmoderates.role hguards
      -- the role is that of the account, and only a seeded account can have it
      obtain ⟨row, hrow, rfl⟩ := h.users user (.request hmem huser)
      rcases h.accounts row hrow with hseeded | hplain
      · exact ⟨position, r, row, rfl, hr, hmoderates, huser, hseeded, hrole⟩
      · cases hplain.symm.trans hrole
    · exact absurd (hid.trans (hid'.symm.trans hnew.id)) (SerialTable.ne_next ht)

/-- **Only seeded moderators decide about tickets.** In any run of the API, whenever a step changes
    the board or the assignee of a ticket, it is the handler of one of the three moderators'
    endpoints, called in a session of an account that was a moderator before the API started. -/
theorem tickets_changed_by_moderators (bcrypt : Bcrypt) (lower : String → String)
    (accounts : List SeedAccount) (ls : List (ApiStep bcrypt)) :
    ∀ p ∈ steps apiStep (.init bcrypt (.seeded lower accounts)) ls, ∀ id,
      p.1.ChangesTicket p.2 id → ∃ position r row, p.2 = .handle position ∧
        p.1.requests[position]? = some r ∧ r.request.Moderates ∧
        r.user = some (getUserCookieFields row) ∧
        (Database.seeded lower accounts).HasModerator row := by
  intro p hp id hchange
  have hsound : p.1.Sound (Database.seeded lower accounts).users.rows :=
    steps_invariant sound_apiStep (sound_init _) ls p hp
  obtain ⟨position, r, row, hl, hr, hmoderates, huser, hseeded, hrole⟩ :=
    changesTicket_of_sound hsound hchange
  exact ⟨position, r, row, hl, hr, hmoderates, huser, hseeded, hrole⟩

theorem tickets_beforeTaking : beforeTaking.review.db.tickets.rows = [⟨1, 2, none, some .pending⟩] :=
  rfl

theorem changesTicket_beforeTaking : beforeTaking.ChangesTicket (.handle 0) 1 := by
  have hafter : (apiStep beforeTaking (.handle 0)).review.db.tickets.rows =
      [⟨1, 2, some 1, some .inReview⟩] := rfl
  refine ⟨⟨1, 2, none, some .pending⟩, ?_, ⟨1, 2, some 1, some .inReview⟩, ?_, rfl, rfl, by decide⟩
  · rw [tickets_beforeTaking]
    exact List.mem_cons_self
  · rw [hafter]
    exact List.mem_cons_self

theorem tickets_changed_by_moderators_sample : beforeTaking.ChangesTicket (.handle 0) 1 ∧
    ∃ position r row, (.handle 0 : ApiStep plainBcrypt) = .handle position ∧
      beforeTaking.requests[position]? = some r ∧ r.request.Moderates ∧
      r.user = some (getUserCookieFields row) ∧
      (Database.seeded id [seededModerator]).HasModerator row :=
  ⟨changesTicket_beforeTaking, tickets_changed_by_moderators plainBcrypt id [seededModerator] _
    (beforeTaking, .handle 0) (last_mem_steps _ _ _) 1 changesTicket_beforeTaking⟩

/-! ## Nothing is published without a moderator -/

theorem allPending_apiStep (hno : ∀ row ∈ seeded, row.role ≠ some .moderator)
    (s : ApiState bcrypt) (l : ApiStep bcrypt)
    (h : s.Sound seeded ∧ s.review.db.AllPending) :
    (apiStep s l).Sound seeded ∧ (apiStep s l).review.db.AllPending := by
  refine ⟨sound_apiStep s l h.1, fun t' ht' => ?_⟩
  have hdb := apiStep_db s l
  by_cases hold : ∃ t ∈ s.review.db.tickets.rows, t.id = t'.id
  · obtain ⟨t, ht, hid⟩ := hold
    by_cases hsame : t' = t
    · exact hsame ▸ h.2 t ht
    · obtain ⟨-, -, row, -, -, -, -, hseeded, hrole⟩ :=
        changesTicket_of_sound (l := l) h.1 ⟨t, ht, t', ht', hid, rfl, hsame⟩
      exact absurd hrole (hno row hseeded)
  · rcases hdb with hdb | ⟨c, -, hdb⟩
    · exact absurd ⟨t', hdb ▸ ht', rfl⟩ hold
    · rw [hdb] at ht'
      rcases (step_effect s.review.db c).ticket_prev ht' with ⟨t, ht, hto⟩ | hnew
      · exact absurd ⟨t, ht, hto.id.symm⟩ hold
      · exact ⟨hnew.assignedTo, hnew.boardList⟩

theorem Database.AllPending.publicDebates (h : db.AllPending) : db.publicDebates = [] := by
  refine List.filter_eq_nil_iff.2 fun d hd => ?_
  rw [decide_eq_true_eq]
  rintro ⟨t, ht, -, hboard⟩
  rw [(h t ht).2] at hboard
  cases hboard

theorem Database.AllPending.selectWhere_eq_nil (h : db.AllPending) {p : JoinedArgument → Truth}
    (hp : ∀ a t d u, (p (((a, t), d), u)).holds = true → t.boardList = some .accepted) :
    selectWhere p (joinedArguments db) = [] := by
  refine List.filter_eq_nil_iff.2 ?_
  rintro ⟨⟨⟨a, t⟩, d⟩, u⟩ hq hholds
  rw [joinedArguments_eq, List.mem_filterMap] at hq
  obtain ⟨a', -, hrow⟩ := hq
  obtain ⟨-, ⟨ht, -⟩, -⟩ := joinedArgument_eq_some.1 hrow
  have hboard := hp a t d u hholds
  rw [(h t ht).2] at hboard
  cases hboard

theorem Database.AllPending.getAll (h : db.AllPending) {filters : Option Filters}
    {debates : List Debate} (hget : getAll filters db = .ok debates) : debates = [] := by
  have hselect : ∀ filter, selectDebates db filter = [] := by
    intro filter
    rw [selectDebates_eq, h.publicDebates]
    rfl
  unfold DecentDebates.getAll at hget
  split at hget
  · rw [hselect] at hget
    exact (Except.ok.inj hget).symm
  · split at hget
    · cases hget
    · cases hget
    · rw [hselect] at hget
      exact (Except.ok.inj hget).symm

theorem Database.AllPending.getDebate (h : db.AllPending) {id : String} {body : DebateBody}
    (hget : DebatesController.getDebate id db = .ok body) : body.args = [] := by
  unfold DebatesController.getDebate at hget
  cases hid : parseIntPipe id with
  | none =>
    simp only [hid] at hget
    cases hget
  | some x =>
    cases hx : int4 x with
    | error e =>
      simp only [hid, getDebateArguments, hx] at hget
      cases hget
    | ok n =>
      have hnil : selectWhere (debateArgumentsWhere n) (joinedArguments db) = [] := by
        refine h.selectWhere_eq_nil fun a t d u hholds => ?_
        simp only [debateArgumentsWhere, Truth.holds_and, Truth.holds_eq_some, Bool.and_eq_true,
          decide_eq_true_eq] at hholds
        exact hholds.2
      simp only [hid, getDebateArguments, hx, hnil, List.map_nil, List.nil_append] at hget
      split at hget
      · next e he => cases e <;> cases hget
      · next data hdata =>
        cases hget
        -- the only row names the debate and has no argument
        obtain ⟨acc, hacc, hnil⟩ := except_bind_eq_ok.1 hdata
        cases hacc
        rw [getDebates, List.foldlM_cons, except_bind_eq_ok] at hnil
        obtain ⟨last, hlast, hnil⟩ := hnil
        cases hnil
        unfold getDebatesReducer at hlast
        split at hlast
        · cases hlast
        · cases hlast
          rfl

theorem Database.AllPending.getDebateArgument (h : db.AllPending) {debateId argumentId : String}
    {arg : DebateArgument} :
    DebatesController.getDebateArgument debateId argumentId db ≠ .ok arg := by
  intro hget
  unfold DebatesController.getDebateArgument at hget
  split at hget
  · next x y hx hy =>
    unfold DecentDebates.getDebateArgument at hget
    split at hget
    · next e he =>
      split at he
      · cases he
      · cases he
        cases hget
    · cases hget
    · next arg' rest hrows =>
      split at hrows
      · next n m hn hm =>
        rw [h.selectWhere_eq_nil fun a t d u hholds => ?_] at hrows
        · cases hrows
        · exact (debateArgumentWhere_holds.1 hholds).2.1
      · cases hrows
  · cases hget

theorem Database.AllPending.respond (h : db.AllPending) {r : PublicRequest} {data : PublicData}
    (hr : r.respond db = .ok data) : data.ShowsNothing := by
  have hmap {α : Type} {f : α → PublicData} {res : HttpResponse α} {data : PublicData}
      (hres : res.map f = .ok data) : ∃ a, res = .ok a ∧ f a = data := by
    cases res with
    | ok a => exact ⟨a, rfl, by cases hres; rfl⟩
    | error status message => cases hres
  cases r with
  | getAll filters =>
    obtain ⟨listed, hget, rfl⟩ := hmap hr
    unfold DebatesController.getAll at hget
    split at hget
    · next e => cases e <;> cases hget
    · split at hget
      · next e he => cases e <;> cases hget
      · next debates hdebates =>
        cases hget
        rw [h.getAll hdebates]
        rfl
  | getDebate id =>
    obtain ⟨body, hget, rfl⟩ := hmap hr
    exact h.getDebate hget
  | getDebateArgument debateId argumentId =>
    obtain ⟨arg, hget, rfl⟩ := hmap hr
    exact absurd hget h.getDebateArgument

/-- Seeding writes accounts and nothing else. -/
theorem exists_seeded (lower : String → String) (accounts : List SeedAccount) :
    ∃ users, Database.seeded lower accounts = { Database.empty lower with users := users } := by
  have hrun (db : Database) :
      ∃ users, run step db (accounts.map SeedAccount.call) = { db with users := users } := by
    induction accounts generalizing db with
    | nil => exact ⟨db.users, rfl⟩
    | cons a accounts ih =>
      have hstep : ∃ users, step db a.call = { db with users := users } := by
        rw [SeedAccount.call, step, seedUser_commit]
        refine Sql.commit_rule (P := fun db' => ∃ users, db' = { db with users := users })
          ⟨db.users, rfl⟩ fun row db' hok => ?_
        obtain ⟨mk, hmk, rfl⟩ := insertUser_ok hok
        exact ⟨_, rfl⟩
      obtain ⟨users, husers⟩ := hstep
      obtain ⟨users', h⟩ := ih { db with users := users }
      exact ⟨users', by rw [List.map_cons, run_cons, husers, h]⟩
  exact hrun _

/-- **Without a moderator nothing is published.** If no seeded account is a moderator, then in every
    state that the API reaches every ticket is unassigned and PENDING, and no request to the public
    endpoints lists a debate or shows an argument. -/
theorem nothing_published_without_moderator (bcrypt : Bcrypt) (lower : String → String)
    (accounts : List SeedAccount) (ls : List (ApiStep bcrypt))
    (hno : ∀ row, ¬ (Database.seeded lower accounts).HasModerator row) :
    ∀ s ∈ states apiStep (.init bcrypt (.seeded lower accounts)) ls, s.review.db.AllPending ∧
      ∀ (r : PublicRequest) data, r.respond s.review.db = .ok data → data.ShowsNothing := by
  intro s hs
  have hinit : (ApiState.init bcrypt (.seeded lower accounts)).review.db.AllPending := by
    obtain ⟨users, hseeded⟩ := exists_seeded lower accounts
    intro t ht
    simp only [ApiState.init, hseeded] at ht
    exact absurd ht List.not_mem_nil
  have hpending := (states_invariant (allPending_apiStep fun row hrow hrole => hno row ⟨hrow, hrole⟩)
    ⟨sound_init _, hinit⟩ ls s hs).2
  exact ⟨hpending, fun r data => hpending.respond⟩

/-- The debate of a user is there, and nobody sees it. -/
theorem nothing_published_without_moderator_sample :
    let s := run apiStep (.init plainBcrypt (.seeded id [])) signUpAndPropose
    s.review.db.tickets.rows = [⟨1, 1, none, some .pending⟩] ∧ s.review.db.AllPending ∧
      ∀ (r : PublicRequest) data, r.respond s.review.db = .ok data → data.ShowsNothing :=
  ⟨rfl, nothing_published_without_moderator plainBcrypt id [] signUpAndPropose
    (fun _ h => absurd h.1 List.not_mem_nil) _ (run_mem_states _ _)⟩

/-! ## Whoever is named has signed in -/

theorem Database.NamesUser.step {c : Call} {id : Int} (h : (step db c).NamesUser id) :
    db.NamesUser id ∨ c.actor = some id := by
  have heff := step_effect db c
  cases h with
  | @ticket t' ht' hid =>
    rcases heff.ticket_prev ht' with ⟨t, ht, hchange⟩ | hnew
    · exact Or.inl (.ticket ht (hchange.createdBy.symm.trans hid))
    · exact Or.inr (hid ▸ hnew.createdBy)
  | @assigned t' ht' hid =>
    rcases heff.ticket_prev ht' with ⟨t, ht, hchange⟩ | hnew
    · cases hchange with
      | same => exact Or.inl (.assigned ht hid)
      | approved => exact Or.inl (.assigned ht hid)
      | moved =>
        simp only [TicketRow.moveTo] at hid
        split at hid
        · exact Or.inr hid
        · split at hid
          · cases hid
          · exact Or.inl (.assigned ht hid)
    · cases hnew.assignedTo.symm.trans hid
  | @debate d' hd' hid =>
    rcases heff.debate_prev hd' with ⟨d, hd, hchange⟩ | hnew
    · exact Or.inl (.debate hd (hchange.createdBy.symm.trans hid))
    · exact Or.inr (hid ▸ hnew.createdBy)
  | @argument a' ha' hid =>
    rcases heff.argument_prev ha' with ⟨a, ha, hchange⟩ | hnew
    · exact Or.inl (.argument ha (hchange.createdBy.symm.trans hid))
    · exact Or.inr (hid ▸ hnew.createdBy)
  | @comment x' hx' hid =>
    rcases (step_frame db c).comment_prev x' hx' with ⟨x, hx, hchange⟩ | hnew
    · exact Or.inl (.comment hx (hchange.commenterId.symm.trans hid))
    · exact Or.inr (hid ▸ hnew.commentsOn.actor)

theorem ApiState.Calls.holds {c : Call} (h : s.Calls l c) {id : Int} (hactor : c.actor = some id) :
    ∃ user, s.Holds user ∧ user.id = id := by
  cases h with
  | registers => cases hactor
  | requests hr huser hby =>
    exact ⟨_, .request (List.mem_of_getElem? hr) huser, Option.some.inj (hby.symm.trans hactor)⟩
  | executes hhandler huser hby =>
    exact ⟨_, .handler (List.mem_of_getElem? hhandler) huser,
      Option.some.inj (hby.actor.symm.trans hactor)⟩
  | skips => cases hactor

/-- Some row or some session, request or socket has this user's id. -/
def ApiState.Knows (s : ApiState bcrypt) (id : Int) : Prop :=
  s.review.db.NamesUser id ∨ ∃ user, s.Holds user ∧ user.id = id

theorem knows_apiStep (s : ApiState bcrypt) (l : ApiStep bcrypt) (id : Int)
    (h : (apiStep s l).Knows id) : s.Knows id ∨ ∃ user, s.SignsIn l user ∧ user.id = id := by
  rcases h with hnames | ⟨user, huser, hid⟩
  · rcases apiStep_db s l with hdb | ⟨c, hc, hdb⟩
    · exact Or.inl (Or.inl (hdb ▸ hnames))
    · rw [hdb] at hnames
      rcases hnames.step with hnames | hactor
      · exact Or.inl (Or.inl hnames)
      · exact Or.inl (Or.inr (hc.holds hactor))
  · rcases huser.step with huser | hsigned
    · exact Or.inl (Or.inr ⟨user, huser, hid⟩)
    · exact Or.inr ⟨user, hsigned, hid⟩

theorem not_knows_init (lower : String → String) (accounts : List SeedAccount) (id : Int) :
    ¬ (ApiState.init bcrypt (.seeded lower accounts)).Knows id := by
  obtain ⟨users, hseeded⟩ := exists_seeded lower accounts
  rintro (hnames | ⟨user, huser, -⟩)
  · simp only [ApiState.init, hseeded] at hnames
    rcases hnames with h | h | h | h | h <;> exact absurd h List.not_mem_nil
  · exact not_holds_init _ huser

/-- **Whoever is named has signed in.** In any run of the API, the author of a ticket, a debate, an
    argument or a comment, the assignee of a ticket, and the user of a session, of a request, of a
    socket or of a message handler is someone who has signed up or signed in earlier in the run. -/
theorem named_users_signed_in (bcrypt : Bcrypt) (lower : String → String)
    (accounts : List SeedAccount) (ls : List (ApiStep bcrypt)) (id : Int)
    (h : (run apiStep (.init bcrypt (.seeded lower accounts)) ls).Knows id) :
    ∃ p ∈ steps apiStep (.init bcrypt (.seeded lower accounts)) ls,
      ∃ user, p.1.SignsIn p.2 user ∧ user.id = id :=
  (held_or_granted (J := fun _ => True) (fun _ _ h => h)
    (fun s l id _ h => knows_apiStep s l id h) trivial h).resolve_left
    (not_knows_init lower accounts id)

theorem named_users_signed_in_sample :
    ∃ p ∈ steps apiStep (.init plainBcrypt (.seeded id [seededModerator]))
        (signUpAndPropose ++ signInAndTake),
      ∃ user, p.1.SignsIn p.2 user ∧ user.id = 2 := by
  refine named_users_signed_in plainBcrypt id [seededModerator] _ 2 (Or.inl ?_)
  have hticket : ⟨1, 2, none, some .pending⟩ ∈ beforeTaking.review.db.tickets.rows := by
    rw [tickets_beforeTaking]
    exact List.mem_cons_self
  exact .ticket hticket rfl

/-! ## The rooms inside the API -/

theorem init_review (bcrypt : Bcrypt) (lower : String → String) (accounts : List SeedAccount) :
    run reviewStep (.init lower) (accounts.map fun a => .call a.call) =
      (ApiState.init bcrypt (.seeded lower accounts)).review := by
  have h : ∀ calls, run reviewStep (.init lower) (calls.map ReviewStep.call) =
      ⟨run step (Database.empty lower) calls, [], []⟩ :=
    run_map (fun db : Database => (⟨db, [], []⟩ : ReviewState)) (fun _ _ => rfl) _
  have hseeded := h (accounts.map SeedAccount.call)
  rw [List.map_map] at hseeded
  exact hseeded

/-- **The API refines the rooms.** The rooms and the tables of a run of the API are those of a run
    of the system that has service calls and sockets but neither sessions nor guards; so the tables
    are reachable by calls, and every invariant of those runs holds of the API's. -/
theorem api_refines_rooms (bcrypt : Bcrypt) (lower : String → String)
    (accounts : List SeedAccount) (ls : List (ApiStep bcrypt)) :
    (∃ steps, (run apiStep (.init bcrypt (.seeded lower accounts)) ls).review =
      run reviewStep (.init lower) steps) ∧
    ∀ s ∈ states apiStep (.init bcrypt (.seeded lower accounts)) ls,
      s.review.db.Reachable ∧ s.review.WellFormed := by
  have hstep (s : ApiState bcrypt) (l : ApiStep bcrypt) : (apiStep s l).review = s.review ∨
      ∃ l', (apiStep s l).review = reviewStep s.review l' :=
    (apiStep_review s l).imp_right fun h => h.imp fun _ h => h.2
  constructor
  · obtain ⟨steps, h⟩ := exists_run_of_steps ApiState.review hstep
      (.init bcrypt (.seeded lower accounts)) ls
    exact ⟨_, by rw [h, ← init_review, ← run_append]⟩
  · refine states_invariant (I := fun s : ApiState bcrypt => s.review.db.Reachable ∧ s.review.WellFormed)
      (fun s l hs => ⟨?_, ?_⟩) ⟨Database.reachable_run _ _, ?_⟩ ls
    · rcases apiStep_db s l with hdb | ⟨c, -, hdb⟩
      · exact hdb ▸ hs.1
      · exact hdb ▸ hs.1.next c
    · rcases hstep s l with h | ⟨l', h⟩
      · exact h ▸ hs.2
      · exact h ▸ wellFormed_step s.review l' hs.2
    · rw [← init_review]
      exact run_invariant wellFormed_step (.init lower) _

end DecentDebates

import DecentDebates.Lib.Transition
import DecentDebates.Entities.DebatesService
import DecentDebates.Entities.ModeratorService
import DecentDebates.Entities.CommentService
import DecentDebates.Entities.UserService

set_option autoImplicit false

/-! # The services as one transition system

Every service call is one statement or one `BEGIN … COMMIT` block, so the committed tables change
in one step for each call. A run is any list of calls, by any users and with any arguments: it
ranges over every interleaving of any number of requests. -/

namespace DecentDebates

open Transition

/-- Sequence values drawn by transactions that were rolled back. -/
structure Gaps where
  users : Nat
  tickets : Nat
  debates : Nat
  debateTags : Nat
  arguments : Nat
  ticketComments : Nat

inductive Call where
  | insertOne (now : Timestamp) (registerUserDTO : RegisterUserDTO)
  | seedUser (now : Timestamp) (account : RegisterUserDTO) (role : Option UserRole)
  | createDebate (now : Timestamp) (user : UserCookieData) (debateData : CreateDebateDTO)
  | createArgument (now : Timestamp) (argumentData : CreateArgumentData)
  | saveArgumentAsDraft (now : Timestamp) (argumentData : CreateArgumentData)
  | updateDraft (draftInfo : UpdateDraftData)
  | submitDraft (draftInfo : SubmitDraftData)
  | updateArgument (data : UpdateArgumentData)
  | updateDebate (data : UpdateDebateData)
  | updateTicket (ticket : UpdateTicketData)
  | approveTicket (user : UserCookieData) (ticketId : Int)
  | addCommentToDebate (now : Timestamp) (commentData : AddCommentData)
  | addCommentToArgument (now : Timestamp) (commentData : AddCommentData)
  | updateComment (now : Timestamp) (user : UserCookieData) (commentData : UpdateCommentData)
  /-- Transactions were rolled back, for whatever reason: the tables are as before, the sequences
      have moved on. -/
  | skipIds (gaps : Gaps)

/-- The user who makes the call, if a signed-in user does. -/
def Call.actor : Call → Option Int
  | .insertOne .. => none
  | .seedUser .. => none
  | .createDebate _ user _ => some user.id
  | .createArgument _ d => some d.user.id
  | .saveArgumentAsDraft _ d => some d.user.id
  | .updateDraft d => some d.user.id
  | .submitDraft d => some d.user.id
  | .updateArgument d => some d.user.id
  | .updateDebate d => some d.user.id
  | .updateTicket d => some d.userId
  | .approveTicket user _ => some user.id
  | .addCommentToDebate _ d => some d.commenterId
  | .addCommentToArgument _ d => some d.commenterId
  | .updateComment _ user _ => some user.id
  | .skipIds _ => none

def Database.skipIds (db : Database) (gaps : Gaps) : Database :=
  { db with
    users := db.users.skip gaps.users
    tickets := db.tickets.skip gaps.tickets
    debates := db.debates.skip gaps.debates
    debateTags := db.debateTags.skip gaps.debateTags
    arguments := db.arguments.skip gaps.arguments
    ticketComments := db.ticketComments.skip gaps.ticketComments }

/-- The committed database after a call has settled. -/
def step (db : Database) : Call → Database
  | .insertOne now d => (insertOne now d db).db
  | .seedUser now d role => (seedUser now d role db).db
  | .createDebate now user d => (createDebate now user d db).db
  | .createArgument now d => (createArgument now d db).db
  | .saveArgumentAsDraft now d => (saveArgumentAsDraft now d db).db
  | .updateDraft d => (updateDraft d db).db
  | .submitDraft d => (submitDraft d db).db
  | .updateArgument d => (updateArgument d db).db
  | .updateDebate d => (updateDebate d db).db
  | .updateTicket d => (updateTicket d db).db
  | .approveTicket user ticketId => (approveTicket user ticketId db).db
  | .addCommentToDebate now d => (addCommentToDebate now d db).db
  | .addCommentToArgument now d => (addCommentToArgument now d db).db
  | .updateComment now user d => (updateComment now user d db).db
  | .skipIds gaps => db.skipIds gaps

/-- The jobs that a call enqueues. -/
def enqueued (db : Database) : Call → List NotificationJobPayload
  | .insertOne now d => (insertOne now d db).jobs
  | .seedUser now d role => (seedUser now d role db).jobs
  | .createDebate now user d => (createDebate now user d db).jobs
  | .createArgument now d => (createArgument now d db).jobs
  | .saveArgumentAsDraft now d => (saveArgumentAsDraft now d db).jobs
  | .updateDraft d => (updateDraft d db).jobs
  | .submitDraft d => (submitDraft d db).jobs
  | .updateArgument d => (updateArgument d db).jobs
  | .updateDebate d => (updateDebate d db).jobs
  | .updateTicket d => (updateTicket d db).jobs
  | .approveTicket user ticketId => (approveTicket user ticketId db).jobs
  | .addCommentToDebate now d => (addCommentToDebate now d db).jobs
  | .addCommentToArgument now d => (addCommentToArgument now d db).jobs
  | .updateComment now user d => (updateComment now user d db).jobs
  | .skipIds _ => []

/-- A state some run from a freshly migrated database reaches. -/
def Database.Reachable (db : Database) : Prop :=
  ∃ lower, Transition.Reachable step (Database.empty lower) db

theorem Database.Reachable.next {db : Database} (h : db.Reachable) (c : Call) :
    (step db c).Reachable := by
  obtain ⟨lower, h⟩ := h
  exact ⟨lower, h.next c⟩

theorem Database.Reachable.run {db : Database} (h : db.Reachable) (calls : List Call) :
    (run step db calls).Reachable := by
  obtain ⟨lower, h⟩ := h
  exact ⟨lower, h.run calls⟩

/-- What holds of a freshly migrated database and is kept by every call holds in every reachable
    state. -/
theorem Database.Reachable.invariant {I : Database → Prop} {db : Database}
    (hempty : ∀ lower, I (Database.empty lower)) (hstep : ∀ db c, I db → I (step db c))
    (h : db.Reachable) : I db := by
  obtain ⟨lower, h⟩ := h
  exact h.invariant (hempty lower) hstep

theorem Database.reachable_run (lower : String → String) (calls : List Call) :
    (Transition.run step (Database.empty lower) calls).Reachable :=
  ⟨lower, calls, rfl⟩

/-! ## The accounts of the integration tests -/

def testUser : UserCookieData := ⟨1, some .user, "moderator-user"⟩
def moderatorOne : UserCookieData := ⟨2, some .moderator, "moderator-one"⟩
def moderatorTwo : UserCookieData := ⟨3, some .moderator, "moderator-two"⟩

/-- Sign up the user and the two moderators, who get the ids 1, 2 and 3. -/
def createUsers : List Call :=
  [testUser, moderatorOne, moderatorTwo].map fun u =>
    .seedUser 0 ⟨u.username ++ "@example.com", u.username, "password"⟩ u.role

/-- The tables with the three accounts and nothing else. -/
def Database.withUsers (lower : String → String) : Database :=
  let account := fun (username email : String) (role : UserRole) (id : Int) =>
    ({ id, username, password := "password", email, createdAt := 0, role := some role } : UserRow)
  { Database.empty lower with
    users := ((Database.empty lower).users
      |>.insert (account "moderator-user" "moderator-user@example.com" .user)
      |>.insert (account "moderator-one" "moderator-one@example.com" .moderator)
      |>.insert (account "moderator-two" "moderator-two@example.com" .moderator)) }

theorem run_createUsers (lower : String → String) :
    run step (Database.empty lower) createUsers = Database.withUsers lower := by rfl

/-- A run of the tests starts with the accounts. -/
theorem run_createUsers_append (lower : String → String) (calls : List Call) :
    run step (Database.empty lower) (createUsers ++ calls) =
      run step (Database.withUsers lower) calls := by
  rw [run_append, run_createUsers]

/-- The user proposes debate 1, which gets ticket 1. -/
def proposeDebate : Call := .createDebate 1 testUser ⟨"Moderator review debate", [], none⟩

/-- An argument for debate 1. -/
def sampleArgument (title : String) (counterargumentId : Option JsNumber := none) :
    CreateArgumentDTO :=
  ⟨title, "Because.", "PRO", counterargumentId⟩

end DecentDebates

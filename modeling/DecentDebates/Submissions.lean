import DecentDebates.Lib.Atomic
import DecentDebates.Entities.DebatesService

set_option autoImplicit false

/-! # Submissions, statement by statement

`createDebate` and `createArgument` of `debates.service.ts` once more, with the statements they send
one by one: each of them may fail, and so may what is done for the notification once the promise has
settled. `DebatesService` has the same statements as one step. -/

namespace DecentDebates.Submissions

open Effects Atomic

/-- The statements, under the names of the source. -/
inductive Statement where
  | BEGIN
  | insertTagsSql
  | createTicketSqlStr
  | createDebateSql
  | assocDebateTagSql
  | createArgumentSql
  | COMMIT
deriving DecidableEq, Repr

/-- What the code has no say in. -/
structure Environment where
  /-- Why a statement fails, whatever it says. -/
  fault : Statement → Option ServiceError
  /-- How the promise of `getContent()` settles. -/
  getContent : Except ServiceError Unit
  /-- How the promise of `queue.add(…)` settles. -/
  add : Except ServiceError Unit

def Environment.driver (env : Environment) : Driver ServiceError SqlError Statement where
  fault := env.fault
  rejected := .sql
  aborted := .error "current transaction is aborted, commands ignored until end of transaction block"

structure ServiceState where
  connection : Connection Database Statement
  jobs : List NotificationJobPayload
  logged : List ServiceError
  released : Nat

/-- A client that has just been taken from the pool. -/
def ServiceState.init (db : Database) : ServiceState := ⟨.idle Statement db, [], [], 0⟩

abbrev ServiceM := Comp ServiceError ServiceState

/-- Statements sent on the client. -/
def onConnection {α : Type} (x : Comp ServiceError (Connection Database Statement) α) :
    ServiceM α :=
  .zoom ServiceState.connection (fun connection s => { s with connection }) x

def logError (err : ServiceError) : ServiceM Unit :=
  modify fun s => { s with logged := s.logged ++ [err] }

def release : ServiceM Unit := modify fun s => { s with released := s.released + 1 }

/-- `ev.getContent().then((content) => enqueueNotification(…)).catch((err) => this.logError(err))`:
    nobody waits for this promise, so it is looked at when it has settled. -/
def notify (env : Environment) (payload : NotificationJobPayload) : ServiceM Unit :=
  tryCatch
    (do
      .ofExcept env.getContent
      .ofExcept env.add
      modify fun s => { s with jobs := s.jobs ++ [payload] })
    logError

/-- `try { …; COMMIT; notify } catch (err) { logError; ROLLBACK; throw … } finally { release }`. The
    statements give the id of the new ticket. -/
def submitting (env : Environment)
    (statements : Comp ServiceError (Connection Database Statement) Int)
    (payload : Int → NotificationJobPayload) (thrown : ServiceError → ServiceError) :
    ServiceM Unit :=
  tryFinally
    (tryCatch
      (do
        let ticketId ← onConnection (transaction env.driver .BEGIN .COMMIT statements)
        notify env (payload ticketId))
      fun err => do
        logError err
        onConnection rollback
        throw (thrown err))
    release

namespace DebatesService

variable (env : Environment)

/-- `if (hasCreatedTags)` -/
def createTags :
    Option (List String) → Comp ServiceError (Connection Database Statement) (List Int)
  | some createdTags => execute env.driver .insertTagsSql (insertTags createdTags)
  | none => pure []

/-- What `createDebate` sends between `BEGIN` and `COMMIT`. -/
def debateStatements (now : Timestamp) (user : UserCookieData) (debateData : CreateDebateDTO) :
    Comp ServiceError (Connection Database Statement) Int := do
  let createdIds ← createTags env debateData.createdTags
  let tagsIds := debateData.tagsIds ++ createdIds.map .int
  let ticketId ← execute env.driver .createTicketSqlStr (insertTicket user.id)
  let debateId ← execute env.driver .createDebateSql
    (insertDebate now ticketId debateData.title user.id)
  execute env.driver .assocDebateTagSql (insertAssocDebateTags debateId tagsIds)
  return ticketId

def createDebate (now : Timestamp) (user : UserCookieData) (debateData : CreateDebateDTO) :
    ServiceM Unit :=
  submitting env (debateStatements env now user debateData)
    (fun ticketId =>
      let debateCreatedEv := DomainEvent.debateTicketCreated ticketId debateData.title
      .genericModerator debateCreatedEv.getTitle debateCreatedEv .debate)
    fun err => err

/-- What `createArgument` sends between `BEGIN` and `COMMIT`. -/
def argumentStatements (now : Timestamp) (argumentData : CreateArgumentData) :
    Comp ServiceError (Connection Database Statement) Int := do
  let ticketId ← execute env.driver .createTicketSqlStr (insertTicket argumentData.user.id)
  let _ ← execute env.driver .createArgumentSql
    (insertArgument now argumentData (some ticketId) false)
  return ticketId

def createArgument (now : Timestamp) (argumentData : CreateArgumentData) : ServiceM Unit :=
  submitting env (argumentStatements env now argumentData)
    (fun ticketId =>
      let argCreatedEv :=
        DomainEvent.argumentTicketCreated ticketId argumentData.argumentDetails.title
      .genericModerator argCreatedEv.getTitle argCreatedEv .argument)
    fun _ => .error "An error occurred while adding the argument to the debate."

end DebatesService

/-! ## Requests -/

inductive Request where
  | createDebate (now : Timestamp) (user : UserCookieData) (debateData : CreateDebateDTO)
  | createArgument (now : Timestamp) (argumentData : CreateArgumentData)

namespace Request

def user : Request → UserCookieData
  | createDebate _ user _ => user
  | createArgument _ argumentData => argumentData.user

def run (env : Environment) : Request → ServiceM Unit
  | createDebate now user debateData => DebatesService.createDebate env now user debateData
  | createArgument now argumentData => DebatesService.createArgument env now argumentData

/-- What the statements do when nothing but themselves makes them fail. -/
def sql : Request → Sql Int
  | createDebate now user debateData => createDebateSql now user debateData
  | createArgument now argumentData => createArgumentSql now argumentData

/-- The call as one step. -/
def outcome (db : Database) : Request → Outcome Unit
  | createDebate now user debateData => DecentDebates.createDebate now user debateData db
  | createArgument now argumentData => DecentDebates.createArgument now argumentData db

/-- How the call's promise settles, and the state once everything else has settled as well. -/
def settle (r : Request) (env : Environment) (db : Database) :
    Except ServiceError Unit × ServiceState :=
  (r.run env).run (.init db)

/-- The statements sent between `BEGIN` and `COMMIT` when none fails. -/
def inner : Request → List Statement
  | createDebate _ _ debateData =>
    (if debateData.createdTags.isSome then [.insertTagsSql] else []) ++
      [.createTicketSqlStr, .createDebateSql, .assocDebateTagSql]
  | createArgument .. => [.createTicketSqlStr, .createArgumentSql]

def statements (r : Request) : List Statement := .BEGIN :: (r.inner ++ [.COMMIT])

/-- What a submission is for: `db'` has one more ticket, which is pending, unassigned and of the
    user, and one debate more that refers to it, or one argument more that does and is no draft. -/
def Stores (r : Request) (db db' : Database) : Prop :=
  ∃ ticket : TicketRow, db'.tickets.rows = db.tickets.rows ++ [ticket] ∧
    ticket.createdBy = r.user.id ∧ ticket.assignedTo = none ∧ ticket.boardList = some .pending ∧
    match r with
    | createDebate .. =>
      (∃ debate : DebateRow, db'.debates.rows = db.debates.rows ++ [debate] ∧
        debate.ticketId = ticket.id) ∧
      db'.arguments = db.arguments
    | createArgument .. =>
      (∃ argument : ArgumentRow, db'.arguments.rows = db.arguments.rows ++ [argument] ∧
        argument.ticketId = some ticket.id ∧ argument.isDraft = some false) ∧
      db'.debates = db.debates ∧ db'.debateTags = db.debateTags ∧
      db'.assocDebateTags = db.assocDebateTags

structure AllOrNothing (r : Request) (env : Environment) (db : Database) : Prop where
  /-- A statement that is to fail does, unless another one has. -/
  fails : (∃ n ∈ r.statements, env.fault n ≠ none) → (r.settle env db).2.connection.failed ≠ []
  /-- When a statement fails, the promise rejects and everything is as it was. -/
  nothing : (r.settle env db).2.connection.failed ≠ [] →
    (∃ e, (r.settle env db).1 = .error e) ∧ (r.settle env db).2.connection.committed = db ∧
      (r.settle env db).2.connection.past = [] ∧ (r.settle env db).2.jobs = []
  /-- When none does, the promise resolves and everything has been committed, in one step. -/
  all : (r.settle env db).2.connection.failed = [] →
    (r.settle env db).1 = .ok () ∧ (r.settle env db).2.connection.past = [db] ∧
      r.Stores db (r.settle env db).2.connection.committed

end Request

end DecentDebates.Submissions

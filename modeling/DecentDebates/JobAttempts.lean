import DecentDebates.System
import DecentDebates.Entities.NotificationProcessor

set_option autoImplicit false

/-! # One job, from the queue to its acknowledgement

The queue hands a waiting job to a worker. An attempt that throws is repeated until `attempts` of them
have been made, and a job whose worker stops before it acknowledges it waits again. Accounts, other
jobs and reads go on in between. A row holds no mark of the job it was inserted for. -/

namespace DecentDebates

open Relational

/-- `defaultJobOptions.attempts` -/
def defaultAttempts : Nat := 3

inductive JobStage where
  | waiting
  | taken
  | inserted
  | published
  | completed
  | failed
deriving DecidableEq, Repr

/-- How the insert of an attempt goes: there is no client, the statement does not reach the server,
    it is run but the answer is lost, or it is run and answered. -/
inductive InsertOutcome where
  | noClient
  | rejected
  | unanswered
  | answered
deriving DecidableEq, Repr

/-- `inserted` has an entry for each statement of the job that has been committed: the tables it
    saw and the rows it inserted. No code reads it. -/
structure JobState where
  db : Database
  notifications : NotificationTable
  stage : JobStage
  attemptsMade : Nat
  inserted : List (Database × List NotificationRow)

inductive JobEvent where
  | call (c : Call)
  | otherJob (data : NotificationJobData)
  | markNotificationsAsRead (ids : List Int)
  | take
  | insert (outcome : InsertOutcome)
  | publish (succeeds : Bool)
  | acknowledge
  /-- The worker stops, and the queue notices. -/
  | stop

namespace JobState

/-- The job has just been enqueued. -/
def enqueue (db : Database) (t : NotificationTable) : JobState := ⟨db, t, .waiting, 0, []⟩

/-- The attempt throws: the job waits for another one, if there is one left. -/
def throws (s : JobState) : JobState :=
  { s with
    attemptsMade := s.attemptsMade + 1
    stage := if s.attemptsMade + 1 < defaultAttempts then .waiting else .failed }

/-- The statement is committed with the rows behind those of the table before. -/
def commits (s : JobState) (t : NotificationTable) : JobState :=
  { s with
    notifications := t
    inserted := s.inserted ++ [(s.db, t.rows.drop s.notifications.rows.length)] }

/-- The worker runs the job's statement. -/
def runInsert (data : NotificationJobData) (outcome : InsertOutcome) (s : JobState) : JobState :=
  match outcome with
  | .noClient => s.throws
  | .rejected => s.throws
  | .unanswered =>
    match NotificationProcessor.insert data s.db s.notifications with
    | .ok t => (s.commits t).throws
    | .error _ => s.throws
  | .answered =>
    match NotificationProcessor.insert data s.db s.notifications with
    | .ok t => { s.commits t with stage := .inserted }
    | .error _ => s.throws

def step (data : NotificationJobData) (s : JobState) : JobEvent → JobState
  | .call c => { s with db := DecentDebates.step s.db c }
  | .otherJob other =>
    match NotificationProcessor.insert other s.db s.notifications with
    | .ok t => { s with notifications := t }
    | .error _ => s
  | .markNotificationsAsRead ids =>
    { s with notifications := (NotificationService.markNotificationsAsRead ids s.notifications).2 }
  | .take => if s.stage = .waiting then { s with stage := .taken } else s
  | .insert outcome => if s.stage = .taken then s.runInsert data outcome else s
  -- an error of the publisher is logged, and the attempt goes on
  | .publish _ => if s.stage = .inserted then { s with stage := .published } else s
  | .acknowledge => if s.stage = .published then { s with stage := .completed } else s
  | .stop =>
    match s.stage with
    | .taken | .inserted | .published => { s with stage := .waiting }
    | _ => s

/-- The rows that the job has inserted. -/
def rows (s : JobState) : List NotificationRow := s.inserted.flatMap Prod.snd

/-- The rows that the job has inserted for a user. -/
def rowsFor (s : JobState) (userId : Int) : Nat :=
  s.rows.countP fun n => n.recipientId = userId

/-- The worker does not stop between the insert and the acknowledgement, and it hears of every
    insert that is committed. -/
def Informed (p : JobState × JobEvent) : Prop :=
  (p.2 = .stop → p.1.stage ≠ .inserted ∧ p.1.stage ≠ .published) ∧ p.2 ≠ .insert .unanswered

end JobState

end DecentDebates

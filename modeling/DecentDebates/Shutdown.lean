import DecentDebates.Lib.Transition

set_option autoImplicit false

/-! # Graceful shutdown (`packages/telemetry/src/shutdown.ts`, `closeApp`, `closeWorker`)

On the first signal a process closes itself, flushes its telemetry and exits. Each of the two waits
has a timer of its own, and what comes after a timer has fired goes on in the background. -/

namespace DecentDebates.Shutdown

inductive Signal where
  | SIGTERM
  | SIGINT
deriving DecidableEq, Repr

def Signal.name : Signal → String
  | .SIGTERM => "SIGTERM"
  | .SIGINT => "SIGINT"

inductive Call where
  | startDrainingConnections
  | appClose
  | poolEnd
  | sessionsClose
  | cacheClose
  | publisherQuit
deriving DecidableEq, Repr

/-- A statement of `closeApp` or `closeWorker`. -/
inductive Stage where
  | call (c : Call)
  | await (c : Call)
  /-- `if (redis.isOpen) { await … }` -/
  | awaitIfOpen (c : Call)
deriving DecidableEq, Repr

def Stage.target : Stage → Call
  | .call c => c
  | .await c => c
  | .awaitIfOpen c => c

def closeApp : List Stage :=
  [.call .startDrainingConnections, .await .appClose, .await .poolEnd,
    .awaitIfOpen .sessionsClose, .awaitIfOpen .cacheClose]

def closeWorker : List Stage :=
  [.await .appClose, .await .poolEnd, .await .publisherQuit]

/-- The promise of `close()`. -/
inductive Closing where
  /-- The last call has not settled, and these stages come after it. -/
  | awaiting (rest : List Stage)
  | resolved
  | rejected (message : String)
deriving DecidableEq, Repr

/-- Runs stages up to the next `await`, and gives the calls that it makes. -/
def resume (isOpen : Call → Bool) : List Stage → Closing × List Call
  | [] => (.resolved, [])
  | .call c :: rest => ((resume isOpen rest).1, c :: (resume isOpen rest).2)
  | .await c :: rest => (.awaiting rest, [c])
  | .awaitIfOpen c :: rest => if isOpen c then (.awaiting rest, [c]) else resume isOpen rest

/-- `process.env` and the arguments that a process starts with. -/
structure Process where
  close : List Stage
  timeoutMs : Option Nat
  /-- `initTelemetry` has started the SDK. -/
  isTelemetryEnabled : Bool
  /-- It is the first process of its container, which a signal without a listener does not end. -/
  isInit : Bool

/-- The API in its container (`apps/api/src/main.ts`, `docker-compose.yml`). -/
def api : Process where
  close := closeApp
  timeoutMs := none
  isTelemetryEnabled := true
  isInit := true

/-- The notification worker in its container. -/
def worker : Process where
  close := closeWorker
  timeoutMs := none
  isTelemetryEnabled := true
  isInit := true

def DEFAULT_TIMEOUT_MS : Nat := 15000

def SHUTDOWN_TIMEOUT_MS : Nat := 5000

/-- How long `setTimeout` waits. -/
def timerDelay (ms : Nat) : Nat := if ms < 1 ∨ 2147483647 < ms then 1 else ms

inductive LogLine where
  | log (message : String)
  | error (message : String)
deriving DecidableEq, Repr

inductive Telemetry where
  | running
  | shuttingDown
  /-- The promise of `shutdownTelemetry()` has resolved, and whether everything was flushed. -/
  | shutDown (flushed : Bool)
deriving DecidableEq, Repr

inductive Cause where
  | exit (code : Nat)
  | signal (s : Signal)
  /-- Nothing keeps the event loop alive: the timers are `unref`ed. -/
  | loopEmpty
deriving DecidableEq, Repr

inductive Phase where
  | running
  /-- In `await withTimeout(close(), timeoutMs)`, with what is left of the timer. -/
  | closing (left : Nat)
  /-- In `await shutdownTelemetry()`. -/
  | flushing (code : Nat) (left : Nat)
  | exited (cause : Cause)
deriving DecidableEq, Repr

structure State where
  listeners : List Signal
  started : Bool
  phase : Phase
  /-- `none` until `close()` is called. -/
  closing : Option Closing
  calls : List Call
  telemetry : Telemetry
  log : List LogLine
deriving DecidableEq, Repr

/-- After `handleShutdownSignals`. -/
def State.init : State where
  listeners := [.SIGTERM, .SIGINT]
  started := false
  phase := .running
  closing := none
  calls := []
  telemetry := .running
  log := []

def Process.timeout (p : Process) : Nat := p.timeoutMs.getD DEFAULT_TIMEOUT_MS

/-- The message that `withTimeout` rejects with. -/
def timedOut (ms : Nat) : String := "timed out after " ++ toString ms ++ "ms"

def received (s : Signal) : LogLine := .log ("Received " ++ s.name ++ ", shutting down")

def failed (message : String) : LogLine := .error ("Graceful shutdown failed: " ++ message)

/-- `await shutdownTelemetry()`, and then `process.exit(code)`. -/
def finish (p : Process) (code : Nat) (s : State) : State :=
  if p.isTelemetryEnabled then
    { s with phase := .flushing code (timerDelay SHUTDOWN_TIMEOUT_MS), telemetry := .shuttingDown }
  else { s with phase := .exited (.exit code) }

/-- The `catch` of `runShutdown`. -/
def fail (p : Process) (message : String) (s : State) : State :=
  finish p 1 { s with log := s.log ++ [failed message] }

/-- What `close()` has come to, for whoever still waits for it. -/
def report (p : Process) (s : State) : State :=
  match s.phase, s.closing with
  | .closing _, some .resolved => finish p 0 s
  | .closing _, some (.rejected message) => fail p message s
  | _, _ => s

/-- `close()` goes on with the stages. -/
def proceed (p : Process) (isOpen : Call → Bool) (stages : List Stage) (s : State) : State :=
  report p
    { s with
      closing := some (resume isOpen stages).1
      calls := s.calls ++ (resume isOpen stages).2 }

/-- A listener of `handleShutdownSignals`, which `process.once` has removed. -/
def onSignal (p : Process) (signal : Signal) (isOpen : Call → Bool) (s : State) : State :=
  if s.started then s
  else
    proceed p isOpen p.close
      { s with
        started := true
        phase := .closing (timerDelay p.timeout)
        log := s.log ++ [received signal] }

/-- What `close()` waits for has settled: it goes on, or it rejects. -/
def onSettled (p : Process) (result : Except String Unit) (isOpen : Call → Bool) (s : State) :
    State :=
  match s.closing, result with
  | some (.awaiting rest), .ok () => proceed p isOpen rest s
  | some (.awaiting _), .error message => report p { s with closing := some (.rejected message) }
  | _, _ => s

inductive Event where
  | signal (signal : Signal) (isOpen : Call → Bool)
  /-- What `close()` waits for settles; `isOpen` is what the clients are at that moment. -/
  | settles (result : Except String Unit) (isOpen : Call → Bool)
  /-- `sdk.shutdown()` settles. -/
  | flushes (ok : Bool)
  /-- A millisecond passes. -/
  | tick
  | loopEmpties

def step (p : Process) (s : State) (e : Event) : State :=
  match s.phase, e with
  | .exited _, _ => s
  | _, .signal signal isOpen =>
    if signal ∈ s.listeners then
      onSignal p signal isOpen { s with listeners := s.listeners.erase signal }
    else if p.isInit then s
    else { s with phase := .exited (.signal signal) }
  | _, .settles result isOpen => onSettled p result isOpen s
  | .flushing code _, .flushes ok =>
    { s with phase := .exited (.exit code), telemetry := .shutDown ok }
  | .closing left, .tick =>
    if left ≤ 1 then fail p (timedOut p.timeout) s else { s with phase := .closing (left - 1) }
  | .flushing code left, .tick =>
    if left ≤ 1 then { s with phase := .exited (.exit code), telemetry := .shutDown false }
    else { s with phase := .flushing code (left - 1) }
  | _, .loopEmpties => { s with phase := .exited .loopEmpty }
  | _, _ => s

/-- The time that an event takes. -/
def Event.time : Event → Nat
  | .tick => 1
  | _ => 0

/-- `stop_grace_period`, after which the container is killed. -/
def stopGracePeriodMs : Nat := 25000

/-- The time that a run takes. -/
def elapsed (events : List Event) : Nat := (events.map Event.time).sum

/-- Why the code has been chosen, and what has been logged, `time` after the start. -/
def Chosen (p : Process) (code : Nat) (time : Nat) (s : State) : Prop :=
  ∃ signal, (code = 0 ∧ s.closing = some .resolved ∧ s.log = [received signal]) ∨
    (code = 1 ∧ ∃ message, s.log = [received signal, failed message] ∧
      (s.closing = some (.rejected message) ∨
        message = timedOut p.timeout ∧ timerDelay p.timeout ≤ time))

/-- The event resolves what the last call of `close()` returned. -/
def Resolves (s : State) (e : Event) (c : Call) : Prop :=
  (∃ isOpen, e = .settles (.ok ()) isOpen) ∧ (∃ rest, s.closing = some (.awaiting rest)) ∧
    s.calls.getLast? = some c ∧ ∀ cause, s.phase ≠ .exited cause

def Exited (s : State) : Prop := ∃ cause, s.phase = .exited cause

/-- A promise that `close()` waited for has resolved in the course of the events. -/
def ResolvedIn (p : Process) (events : List Event) (c : Call) : Prop :=
  ∃ q ∈ Transition.steps (step p) .init events, Resolves q.1 q.2 c

/-- `close()` has left a stage behind: it has made a plain call, or has seen a promise resolve, or
    has found a client that was not open. -/
def Stage.Passed (resolved : Call → Prop) (calls : List Call) : Stage → Prop
  | .call c => c ∈ calls
  | .await c => resolved c
  | .awaitIfOpen c => c ∉ calls ∨ resolved c

end DecentDebates.Shutdown

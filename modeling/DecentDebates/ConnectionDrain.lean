import DecentDebates.Lib.Transition

set_option autoImplicit false

/-! # Draining connections (`connection-drain.ts`)

`server.close()` waits for every connection, and one that stays idle lingers for the whole of
`keepAliveTimeout`. So from the start of a shutdown on each response has to close its connection:
by a header, while it can still be sent, and else by a hook on its end.

Node emits "finish" and then "close" with no other callback in between, so both are one step. -/

namespace DecentDebates.ConnectionDrain

inductive Status where
  | inFlight
  | finished
  | aborted
deriving DecidableEq, Repr

structure ServerResponse where
  connection : Nat
  /-- The header `Connection: close` has been set. -/
  connectionClose : Bool
  /-- The headers that were sent: whether `Connection: close` is one of them. -/
  headers : Option Bool
  /-- How many hooks on "finish" schedule `closeIdleConnections`. -/
  finishHooks : Nat
  status : Status
deriving DecidableEq, Repr

def ServerResponse.headersSent (res : ServerResponse) : Bool := res.headers.isSome

structure Server where
  /-- All responses, in the order in which their requests arrived. -/
  responses : List ServerResponse
  /-- The set of `trackConnectionsForDrain`. -/
  inFlight : List Nat
  draining : Bool
  /-- The `setImmediate` callbacks that have not run. -/
  immediates : Nat
  closed : List Nat
deriving DecidableEq, Repr

/-- `trackConnectionsForDrain` has been called. -/
def Server.tracked : Server where
  responses := []
  inFlight := []
  draining := false
  immediates := 0
  closed := []

def closeAfterResponse (res : ServerResponse) : ServerResponse :=
  if ¬ res.headersSent then { res with connectionClose := true }
  else { res with finishHooks := res.finishHooks + 1 }

/-- The `request` listener. The handler of the application has been called before it and may have
    sent the headers. -/
def onRequest (connection : Nat) (headersSent : Bool) (s : Server) : Server :=
  let res : ServerResponse :=
    { connection
      connectionClose := false
      headers := if headersSent then some false else none
      finishHooks := 0
      status := .inFlight }
  { s with
    responses := s.responses ++ [if s.draining then closeAfterResponse res else res]
    inFlight := s.inFlight ++ [s.responses.length] }

def startDrainingConnections (s : Server) : Server :=
  { s with
    draining := true
    responses := s.responses.mapIdx fun i res =>
      if i ∈ s.inFlight then closeAfterResponse res else res }

/-- The headers as they are sent, now or before. -/
def ServerResponse.flush (res : ServerResponse) : ServerResponse :=
  { res with headers := some (res.headers.getD res.connectionClose) }

/-- The response ends: "finish" calls its hooks, and "close" takes it out of the set. -/
def finish (i : Nat) (res : ServerResponse) (s : Server) : Server :=
  let res := res.flush
  { s with
    responses := s.responses.set i { res with status := .finished }
    inFlight := s.inFlight.filter (· ≠ i)
    immediates := s.immediates + res.finishHooks
    closed := if res.headers = some true then res.connection :: s.closed else s.closed }

/-- The connection breaks: there is a "close" without a "finish". -/
def abort (i : Nat) (res : ServerResponse) (s : Server) : Server :=
  { s with
    responses := s.responses.set i { res with status := .aborted }
    inFlight := s.inFlight.filter (· ≠ i)
    closed := res.connection :: s.closed }

/-- A response is being waited for on this connection. -/
def Server.Busy (s : Server) (connection : Nat) : Prop :=
  ∃ res ∈ s.responses, res.connection = connection ∧ res.status = .inFlight

instance (s : Server) (connection : Nat) : Decidable (s.Busy connection) :=
  inferInstanceAs (Decidable (∃ res ∈ s.responses, _ ∧ _))

def closeIdleConnections (s : Server) : Server :=
  { s with
    closed := (s.responses.map ServerResponse.connection).filter (fun c => ¬ s.Busy c) ++ s.closed }

inductive Step where
  | request (connection : Nat) (headersSent : Bool)
  | flushHeaders (i : Nat)
  | finish (i : Nat)
  | abort (i : Nat)
  | startDrainingConnections
  | immediate

/-- A step of a response that is in flight. -/
def Server.onInFlight (s : Server) (i : Nat) (next : ServerResponse → Server) : Server :=
  match s.responses[i]? with
  | some res => if res.status = .inFlight then next res else s
  | none => s

def step (s : Server) : Step → Server
  | .request connection headersSent =>
    if connection ∈ s.closed then s else onRequest connection headersSent s
  | .flushHeaders i =>
    s.onInFlight i fun res => { s with responses := s.responses.set i res.flush }
  | .finish i => s.onInFlight i fun res => finish i res s
  | .abort i => s.onInFlight i fun res => abort i res s
  | .startDrainingConnections => startDrainingConnections s
  | .immediate =>
    if s.immediates = 0 then s
    else closeIdleConnections { s with immediates := s.immediates - 1 }

/-- `Connection: close` is set before the headers are sent. -/
def ServerResponse.announcesClose (res : ServerResponse) : Bool :=
  res.headers.getD res.connectionClose

/-- One of the two means closes the connection. -/
def ServerResponse.Closes (res : ServerResponse) : Prop :=
  res.announcesClose = true ∨ 0 < res.finishHooks

instance (res : ServerResponse) : Decidable res.Closes := inferInstanceAs (Decidable (_ ∨ _))

/-- `s`, which comes after a call in the state `s₁`, leaves no connection open for a response that
    has ended since. -/
structure Drains (s₁ s : Server) : Prop where
  inFlight : ∀ res ∈ s.responses, res.status = .inFlight → res.Closes
  finished : ∀ (i : Nat) (res : ServerResponse), s.responses[i]? = some res →
    res.status = .finished → (∀ res₁, s₁.responses[i]? = some res₁ → res₁.status = .inFlight) →
    res.Closes ∧ (res.connection ∈ s.closed ∨ 0 < s.immediates ∨ s.Busy res.connection)
  untracked : ∀ (i : Nat) (res₁ : ServerResponse), s₁.responses[i]? = some res₁ → res₁.status ≠ .inFlight →
    i ∉ s₁.inFlight ∧ i ∉ s.inFlight
  tracked : ∀ i : Nat, i ∈ s.inFlight ↔ ∃ res, s.responses[i]? = some res ∧ res.status = .inFlight

end DecentDebates.ConnectionDrain

import DecentDebates.Entities.DebatesController
import DecentDebates.Entities.DebatesQueryPipe
import DecentDebates.Lib.Transition

set_option autoImplicit false

/-! # The list of debates (`DebatesClient.tsx`)

Each keystroke in the search field applies a filter and starts a request, and each response replaces
the list. The requests run side by side. -/

namespace DecentDebates.DebatesClient

/-- A request that has not been answered. -/
structure FilterRequest where
  /-- The filters are numbered in the order in which they are applied. -/
  number : Nat
  url : List Char
deriving DecidableEq, Repr

structure State where
  debates : List ListedDebate
  inFlight : List FilterRequest
  /-- How many filters have been applied. -/
  applied : Nat
  /-- The responses that have arrived, the last one first, with the number of their filter. No code
      reads it. -/
  succeeded : List (Nat × List ListedDebate)
deriving DecidableEq, Repr

/-- `useState(props.debates)` -/
def State.mount (debates : List ListedDebate) : State where
  debates := debates
  inFlight := []
  applied := 0
  succeeded := []

/-- `btoa` throws before the request is made. -/
def onApplyFilters (filters : AppliedDebateFilters) (s : State) : State :=
  match fetchDebatesWithFilters filters with
  | .ok url => { s with inFlight := s.inFlight ++ [⟨s.applied, url⟩], applied := s.applied + 1 }
  | .error _ => { s with applied := s.applied + 1 }

/-- `.then((debates) => setDebates(debates))` -/
def onResponse (request : FilterRequest) (debates : List ListedDebate) (s : State) : State :=
  { s with debates, succeeded := (request.number, debates) :: s.succeeded }

inductive Step where
  | onApplyFilters (filters : AppliedDebateFilters)
  /-- The request at this position is answered. -/
  | onResponse (i : Nat) (debates : List ListedDebate)
  /-- The request at this position fails, and nobody catches it. -/
  | rejected (i : Nat)

def step (s : State) : Step → State
  | .onApplyFilters filters => onApplyFilters filters s
  | .onResponse i debates =>
    match s.inFlight[i]? with
    | some request => onResponse request debates { s with inFlight := s.inFlight.eraseIdx i }
    | none => s
  | .rejected i => { s with inFlight := s.inFlight.eraseIdx i }

/-! ## The latest filter -/

/-- The response to the latest filter that has been answered. -/
def State.IsLatest (s : State) (response : Nat × List ListedDebate) : Prop :=
  response ∈ s.succeeded ∧ ∀ other ∈ s.succeeded, other.1 ≤ response.1

/-- Once nothing is in flight, the list is the response to the latest filter that has been
    answered, and without any response it is the first list. -/
def State.ShowsLatest (first : List ListedDebate) (s : State) : Prop :=
  s.inFlight = [] → (s.succeeded = [] → s.debates = first) ∧
    ∀ response, s.IsLatest response → s.debates = response.2

def Step.IsRejected : Step → Prop
  | .rejected _ => True
  | _ => False

/-- A response does not arrive after the response to a later filter, unless it is the same list. -/
def InOrder (s : State) : Step → Prop
  | .onResponse i debates => ∀ request, s.inFlight[i]? = some request →
    ∀ response, s.IsLatest response → request.number ≤ response.1 → debates = response.2
  | _ => True

end DecentDebates.DebatesClient

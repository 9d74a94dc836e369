import DecentDebates.Lib.Transition
import DecentDebates.Schema

set_option autoImplicit false

/-! # The arguments of a debate (`DebatePageClient.tsx`, `debates.slice.ts`)

"Read more" asks for the content of an argument, which the list of the page does not have, and the
response puts it into the list and the id into the store. The list that is written is the one the
click has seen. -/

namespace DecentDebates.DebatePage

structure DebateArgument where
  argumentId : Int
  debateId : Int
  debateTitle : String
  ticketId : Int
  title : String
  content : Option String
  createdById : Int
  argumentType : ArgumentType
  createdAt : String
  username : String
  counterargumentTo : Option Int
  counterarguments : Option (List Int)
deriving DecidableEq, Repr

/-- A request for an argument, with the `detailedArgs` of the click. -/
structure Fetch where
  argId : Int
  detailedArgs : List DebateArgument
deriving DecidableEq, Repr

structure State where
  detailedArgs : List DebateArgument
  /-- `state.debates.crtDebate?.expandedArgumentsIDs` -/
  expandedArgumentsIDs : Option (List Int)
  /-- `Number.isNaN(Number(params.id))` -/
  isNaN : Bool
  fetching : List Fetch
  /-- The ids and contents of the responses that have arrived, the last one first. No code reads
      it. -/
  fetched : List (Int × Option String)
deriving DecidableEq, Repr

/-- The page has been opened: `setCurrentDebate` has put its debate into the store. -/
def State.open (isNaN : Bool) (args : List DebateArgument) : State where
  detailedArgs := args
  expandedArgumentsIDs := some []
  isNaN := isNaN
  fetching := []
  fetched := []

/-! ## The store -/

def addExpandedArgumentID (id : Int) (expandedArgumentsIDs : Option (List Int)) :
    Option (List Int) :=
  expandedArgumentsIDs.map fun ids => ids ++ [id]

def removeExpandedArgumentID (id : Int) (expandedArgumentsIDs : Option (List Int)) :
    Option (List Int) :=
  expandedArgumentsIDs.map fun ids => ids.filter (· ≠ id)

/-! ## The page -/

/-- The argument is shown with its text. -/
def State.Expanded (s : State) (argId : Int) : Prop := argId ∈ s.expandedArgumentsIDs.getD []

instance (s : State) (argId : Int) : Decidable (s.Expanded argId) :=
  inferInstanceAs (Decidable (_ ∈ _))

def onCollapseArgument (argId : Int) (s : State) : State :=
  { s with expandedArgumentsIDs := removeExpandedArgumentID argId s.expandedArgumentsIDs }

def onReadArgument (argId : Int) (s : State) : State :=
  if s.Expanded argId then s
  else if s.isNaN then s
  else { s with fetching := s.fetching ++ [⟨argId, s.detailedArgs⟩] }

/-- `a.argumentId !== argId ? a : { ...a, content }` -/
def withContent (argId : Int) (content : Option String) (a : DebateArgument) : DebateArgument :=
  if a.argumentId ≠ argId then a else { a with content }

/-- The callback of `fetchArgument(…).then(…)`. -/
def onFetched (fetch : Fetch) (content : Option String) (s : State) : State :=
  { s with
    expandedArgumentsIDs := addExpandedArgumentID fetch.argId s.expandedArgumentsIDs
    detailedArgs := fetch.detailedArgs.map (withContent fetch.argId content)
    fetched := (fetch.argId, content) :: s.fetched }

inductive Step where
  | onReadArgument (argId : Int)
  | onCollapseArgument (argId : Int)
  /-- The response to the request at this position arrives. -/
  | onFetched (i : Nat) (content : Option String)
  /-- The request at this position fails, and nobody catches it. -/
  | onRejected (i : Nat)

def step (s : State) : Step → State
  | .onReadArgument argId => onReadArgument argId s
  | .onCollapseArgument argId => onCollapseArgument argId s
  | .onFetched i content =>
    match s.fetching[i]? with
    | some fetch => onFetched fetch content { s with fetching := s.fetching.eraseIdx i }
    | none => s
  | .onRejected i => { s with fetching := s.fetching.eraseIdx i }

/-! ## Texts -/

/-- These arguments have the content that the server has returned last, if they are expanded. -/
def State.Shows (s : State) (args : List DebateArgument) : Prop :=
  ∀ a ∈ args, s.Expanded a.argumentId → s.fetched.lookup a.argumentId = some a.content

/-- Every opened argument has its text. -/
def State.KeepsTexts (s : State) : Prop := s.fetching = [] → s.Shows s.detailedArgs

/-- The list is `args` with contents that have been fetched, and nothing else has changed. -/
def Refetched (args : List DebateArgument) (fetched : List (Int × Option String))
    (detailedArgs : List DebateArgument) : Prop :=
  ∃ contents : Int → Option (Option String),
    (∀ id content, contents id = some content → (id, content) ∈ fetched) ∧
    detailedArgs = args.map fun a => { a with content := (contents a.argumentId).getD a.content }

def Step.IsRejected : Step → Prop
  | .onRejected _ => True
  | _ => False

/-- The list that the click of the request has seen has the texts of all other expanded
    arguments. -/
def State.FindsTexts (s : State) (fetch : Fetch) : Prop :=
  s.Shows (fetch.detailedArgs.filter fun a => a.argumentId ≠ fetch.argId)

/-- A response finds the other texts. -/
def InTime (s : State) : Step → Prop
  | .onFetched i _ => ∀ fetch, s.fetching[i]? = some fetch → s.FindsTexts fetch
  | _ => True

/-- The last outstanding response finds the other texts; a last outstanding request that fails
    leaves a list that has all of them. -/
def Fine (s : State) : Step → Prop
  | .onFetched i _ => ∀ fetch, s.fetching = [fetch] → i = 0 → s.FindsTexts fetch
  | .onRejected i => ∀ fetch, s.fetching = [fetch] → i = 0 → s.Shows s.detailedArgs
  | _ => True

end DecentDebates.DebatePage

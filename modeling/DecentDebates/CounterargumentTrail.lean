import DecentDebates.DebateDto
import DecentDebates.Lib.Transition
import DecentDebates.Lib.Trail

set_option autoImplicit false

/-! # Threads of counterarguments (`DebatePageClient.tsx`)

In the counterargument mode the page shows one argument and what has been said against it, and a
row of breadcrumbs says how one got there. Which arguments are shown and which of their actions are
enabled decides where one can go next. -/

namespace DecentDebates.DebatePage

structure Inspection where
  counterargumentsOfArgId : Option Int
  counterargumentsOfArgHistory : List Int
deriving DecidableEq, Repr

namespace Inspection

/-- The page before the first click. -/
def initial : Inspection := ⟨none, []⟩

/-- `counterargumentsOfArgId`, when it is truthy. -/
def inspectedId (s : Inspection) : Option Int := s.counterargumentsOfArgId.filter (· ≠ 0)

def inspectedCounterargsOfArgument (detailedArgs : List DebateArgument) (s : Inspection) :
    Option DebateArgument :=
  s.inspectedId.bind fun id => detailedArgs.find? fun a => a.argumentId = id

/-- `pros` and `cons`. -/
def column (argumentType : ArgumentType) (detailedArgs : List DebateArgument) (s : Inspection) :
    List DebateArgument :=
  match s.inspectedId with
  | none => detailedArgs.filter fun a => a.argumentType = argumentType
  | some _ =>
    match s.inspectedCounterargsOfArgument detailedArgs with
    | none => []
    | some inspected =>
      if inspected.argumentType = argumentType then [inspected]
      else detailedArgs.filter fun a =>
        a.argumentType = argumentType ∧ a.counterargumentTo = some inspected.argumentId

def pros : List DebateArgument → Inspection → List DebateArgument := column .pro

def cons : List DebateArgument → Inspection → List DebateArgument := column .con

/-- `shouldDisableCounterargsButton` -/
def shouldDisableCounterargsButton (arg : DebateArgument) (s : Inspection) : Bool :=
  arg.counterarguments.getD [] = [] ∨ some arg.argumentId = s.counterargumentsOfArgId

def inspectCounterargumentsOf (arg : DebateArgument) (s : Inspection) : Inspection :=
  if some arg.argumentId = s.counterargumentsOfArgId then s
  else
    { counterargumentsOfArgId := some arg.argumentId
      counterargumentsOfArgHistory :=
        match s.counterargumentsOfArgHistory.findIdx? (· = arg.argumentId) with
        | some historyIdx => s.counterargumentsOfArgHistory.take (historyIdx + 1)
        | none => s.counterargumentsOfArgHistory ++ [arg.argumentId] }

/-- `onClick` of the breadcrumb of an id; one of an unknown argument has none. -/
def onClickBreadcrumb (detailedArgs : List DebateArgument) (id : Int) (s : Inspection) :
    Inspection :=
  match detailedArgs.find? fun argument => argument.argumentId = id with
  | some arg => s.inspectCounterargumentsOf arg
  | none => s

def disableInspectCounterargumentsMode (_ : Inspection) : Inspection := ⟨none, []⟩

inductive Action where
  /-- "See the counterarguments" in the menu of an argument. -/
  | seeTheCounterarguments (arg : DebateArgument)
  /-- A click on the breadcrumb at this position. -/
  | breadcrumb (i : Nat)
  /-- "Click here to disable this mode." -/
  | disableMode

/-- Only what is on the page can be clicked. -/
def step (detailedArgs : List DebateArgument) (s : Inspection) : Action → Inspection
  | .seeTheCounterarguments arg =>
    if arg ∈ s.pros detailedArgs ++ s.cons detailedArgs ∧ ¬ s.shouldDisableCounterargsButton arg
    then s.inspectCounterargumentsOf arg
    else s
  | .breadcrumb i =>
    match s.counterargumentsOfArgHistory[i]? with
    | some id => s.onClickBreadcrumb detailedArgs id
    | none => s
  | .disableMode => s.disableInspectCounterargumentsMode

/-- An argument that is against `parent`. -/
def Against (args : List DebateArgument) (parent id : Int) : Prop :=
  ∃ a ∈ args, a.argumentId = id ∧ a.counterargumentTo = some parent

/-- The history is the path to the argument that is inspected, each element against the one
    before it. -/
structure IsThread (args : List DebateArgument) (s : Inspection) : Prop where
  none_iff : s.counterargumentsOfArgId = none ↔ s.counterargumentsOfArgHistory = []
  last : ∀ id, s.counterargumentsOfArgId = some id →
    s.counterargumentsOfArgHistory.getLast? = some id
  nodup : s.counterargumentsOfArgHistory.Nodup
  path : ∀ i x y, s.counterargumentsOfArgHistory[i]? = some x →
    s.counterargumentsOfArgHistory[i + 1]? = some y → Against args x y

end Inspection

end DecentDebates.DebatePage

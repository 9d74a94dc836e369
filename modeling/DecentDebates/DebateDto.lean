import DecentDebates.DebatePage
import DecentDebates.Lib.Grouping

set_option autoImplicit false

/-! # From parents to children (`get-debate.dto.ts`)

The API names the parent of a counterargument, and the page needs the children of an argument.
`getDebateDTO` collects them in one pass over the arguments and hands them out in a second one. -/

namespace DecentDebates.DebatePage

structure DebateMetadata where
  debateId : Int
  debateTitle : String
deriving DecidableEq, Repr

structure CurrentDebate where
  args : List DebateArgument
  metadata : DebateMetadata
  expandedArgumentsIDs : Option (List Int)
deriving DecidableEq, Repr

/-- One iteration of the loop. -/
def collect (argsWithCounterargs : Int → Option (List Int)) (arg : DebateArgument) :
    Int → Option (List Int) :=
  match arg.counterargumentTo.filter (· ≠ 0) with
  | none => argsWithCounterargs
  | some counterargumentId =>
    Function.update argsWithCounterargs counterargumentId
      (some ((argsWithCounterargs counterargumentId).getD [] ++ [arg.argumentId]))

def getDebateDTO (debateInfo : CurrentDebate) : CurrentDebate :=
  if debateInfo.args.length = 0 then debateInfo
  else
    let argsWithCounterargs := debateInfo.args.foldl collect fun _ => none
    { debateInfo with
      args := debateInfo.args.map fun a =>
        { a with counterarguments := argsWithCounterargs a.argumentId } }

/-- An argument without the member that `getDebateDTO` sets. -/
def DebateArgument.rest (a : DebateArgument) : DebateArgument := { a with counterarguments := none }

/-- `dto` is the debate with its counterargument relation inverted. -/
structure CurrentDebate.IsInverted (debateInfo dto : CurrentDebate) : Prop where
  metadata : dto.metadata = debateInfo.metadata
  expandedArgumentsIDs : dto.expandedArgumentsIDs = debateInfo.expandedArgumentsIDs
  rest : dto.args.map DebateArgument.rest = debateInfo.args.map DebateArgument.rest
  null_iff : ∀ a ∈ dto.args, a.counterarguments = none ↔
    ∀ b ∈ debateInfo.args, b.counterargumentTo ≠ some a.argumentId
  listed : ∀ a ∈ dto.args, ∀ ids, a.counterarguments = some ids →
    ids = (debateInfo.args.filter fun b => b.counterargumentTo = some a.argumentId).map
      DebateArgument.argumentId ∧ ids.Nodup
  once : ∀ b ∈ debateInfo.args, ∀ a ∈ debateInfo.args, b.counterargumentTo = some a.argumentId →
    (dto.args.flatMap fun a => a.counterarguments.getD []).count b.argumentId = 1

end DecentDebates.DebatePage

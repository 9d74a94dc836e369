import DecentDebates.Lib.CacheAside
import DecentDebates.Approvals
import DecentDebates.PublicApi

set_option autoImplicit false

/-! # The cache of published debates

`GET /debates/:id` keeps its bodies in Redis under `cache:debates:<id>`. It asks the cache, reads
the tables and sets the key in three steps, and between these other requests may change which
arguments are published. Of these only `approveArgument` deletes a key, the one its body names. -/

namespace DecentDebates

open CacheAside

/-- The ids of the debate's ACCEPTED arguments. -/
def Database.acceptedIn (db : Database) (debateId : Int) : List Int :=
  (db.arguments.rows.filter fun a => a.debateId = debateId ∧ db.ArgumentAccepted a).map
    ArgumentRow.id

/-- What `getDebate` answers and caches for a number, if it does not fail. -/
def debateBody (db : Database) (debateId : JsNumber) : Option DebateBody :=
  (getDebateArguments debateId db >>= getDebates).toOption

/-- The request changes which arguments of the debate are ACCEPTED. -/
def changesAccepted (db : Database) (r : Request) : JsNumber → Bool
  | .int debateId => db.acceptedIn debateId ≠ (requestStep db r).acceptedIn debateId
  | .other => false

/-- `this.cache.del(…)`, after the ticket has been approved. -/
def deletedKey (db : Database) : Request → Option JsNumber
  | .approveArgument user ticketId body =>
    match (ModeratorController.approveArgument user ticketId body db).result with
    | .ok _ => some body.debateId
    | .error _ => none
  | _ => none

/-- The tables as the source behind the cache. Keys are written as the number in them; numbers that
    are not written as an integer have no body. -/
def debatesSource : Source Database Request JsNumber DebateBody where
  write := requestStep
  value := debateBody
  affects := changesAccepted
  deletes := deletedKey

abbrev CacheState := State Database JsNumber DebateBody

abbrev CacheStep := Label Request JsNumber

def cacheStep : CacheState → CacheStep → CacheState := CacheAside.step debatesSource

/-- A `GET /debates/:id` that starts now and is answered from the cache gets a body that was
    computed from the tables as they were at some moment, and no request that has finished since
    has changed which arguments of the debate are ACCEPTED after that moment. -/
def AnswersFresh (s : CacheState) : Prop :=
  ∀ debateId entry, s.cache debateId = some entry →
    (∃ db, s.sources[entry.readAt]? = some db ∧
      getDebateArguments debateId db >>= getDebates = .ok entry.value) ∧
    s.finishedAt debateId ≤ entry.readAt

end DecentDebates

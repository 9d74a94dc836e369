import DecentDebates.Lib.ReadCommitted
import DecentDebates.System

set_option autoImplicit false

/-! # Proposals side by side

`System` takes a call of `createDebate` as one step. This file takes it statement by statement, as
the connections of the pool run it: between two statements of one call any number of statements
of others may run. The statements are those of `createDebateSql`; what is new is which rows they
see. -/

namespace DecentDebates

open Relational

/-! ## What a transaction sees -/

/-- The rows that a transaction has inserted and not committed. -/
structure Uncommitted where
  tickets : List TicketRow
  debates : List DebateRow
  debateTags : List DebateTagRow
  assocDebateTags : List AssocDebateTagRow

def Uncommitted.none : Uncommitted := ⟨[], [], [], []⟩

/-- `assoc_debate_tag` with a transaction's own rows, whose keys begin with the id of its own
    debate. -/
def AssocTable.overlay (t : AssocTable) (own : List AssocDebateTagRow) : AssocTable :=
  if h : (t.rows ++ own).Nodup then ⟨t.rows ++ own, h⟩ else t

/-- What the statements of a transaction see. -/
def Database.seenBy (db : Database) (own : Uncommitted) : Database :=
  { db with
    tickets := db.tickets.overlay own.tickets
    debates := db.debates.overlay own.debates
    debateTags := db.debateTags.overlay own.debateTags
    assocDebateTags := db.assocDebateTags.overlay own.assocDebateTags }

/-- The rows of `db'`, which its transaction sees, that are not committed. -/
def Uncommitted.of (db db' : Database) : Uncommitted where
  tickets := db.tickets.added db'.tickets
  debates := db.debates.added db'.debates
  debateTags := db.debateTags.added db'.debateTags
  assocDebateTags := db'.assocDebateTags.rows.filter (· ∉ db.assocDebateTags.rows)

/-- The committed rows, with the sequences as a statement left them. -/
def Database.draw (db db' : Database) : Database :=
  { db with
    tickets := db.tickets.draw db'.tickets
    debates := db.debates.draw db'.debates
    debateTags := db.debateTags.draw db'.debateTags }

/-- Run a statement of a transaction: its result, the rows that are then the transaction's, and the
    committed database. -/
def Sql.execute {α : Type} (m : Sql α) (own : Uncommitted) (db : Database) :
    Except SqlError (α × Uncommitted × Database) :=
  match m (db.seenBy own) with
  | .ok (a, db') => .ok (a, .of db db', db.draw db')
  | .error e => .error e

/-! ## A call of `createDebate` -/

/-- How far a call has come, with the values it needs later. -/
inductive Stage where
  | begun
  | tagsInserted (tagsIdsArr : List JsNumber)
  | ticketInserted (tagsIdsArr : List JsNumber) (ticketId : Int)
  | debateInserted (tagsIdsArr : List JsNumber) (debateId : Int)
  | tagsAssociated
deriving DecidableEq

structure Transaction where
  now : Timestamp
  user : UserCookieData
  debateData : CreateDebateDTO
  stage : Stage
  own : Uncommitted
  /-- The database that `insertTagsSql` reads. No statement uses it: it is kept to say later what
      has been committed in the meantime. -/
  snapshot : Database

/-- The next statement between `BEGIN` and `COMMIT`. -/
def Transaction.query (x : Transaction) (db : Database) :
    Except SqlError (Transaction × Database) :=
  match x.stage with
  | .begun => do
    let (createdIds, own, db') ← (createTags x.debateData.createdTags).execute x.own db
    let tagsIdsArr := x.debateData.tagsIds ++ createdIds.map .int
    return ({ x with stage := .tagsInserted tagsIdsArr, own := own, snapshot := db }, db')
  | .tagsInserted tagsIdsArr => do
    let (ticketId, own, db') ← (insertTicket x.user.id).execute x.own db
    return ({ x with stage := .ticketInserted tagsIdsArr ticketId, own := own }, db')
  | .ticketInserted tagsIdsArr ticketId => do
    let (debateId, own, db') ←
      (insertDebate x.now ticketId x.debateData.title x.user.id).execute x.own db
    return ({ x with stage := .debateInserted tagsIdsArr debateId, own := own }, db')
  | .debateInserted tagsIdsArr debateId => do
    let (_, own, db') ← (insertAssocDebateTags debateId tagsIdsArr).execute x.own db
    return ({ x with stage := .tagsAssociated, own := own }, db')
  | .tagsAssociated => return (x, db)

/-! ## The server -/

/-- The committed database and the calls that are running, each on its own connection. -/
structure Server where
  committed : Database
  calls : Nat → Option Transaction

def Server.idle (db : Database) : Server := ⟨db, fun _ => none⟩

inductive ServerEvent where
  /-- A call begins its transaction on a free connection. -/
  | start (i : Nat) (now : Timestamp) (user : UserCookieData) (debateData : CreateDebateDTO)
  /-- The next statement of the call; if it fails, the transaction is rolled back. -/
  | query (i : Nat)
  /-- `COMMIT`, after the last statement. -/
  | commit (i : Nat)
  /-- The transaction ends for another reason, such as a lost connection. -/
  | rollback (i : Nat)
  /-- Failed statements have drawn from the sequences. -/
  | skipIds (gaps : Gaps)

def Server.step (s : Server) : ServerEvent → Server
  | .start i now user debateData =>
    match s.calls i with
    | some _ => s
    | none =>
      let x := ⟨now, user, debateData, .begun, .none, s.committed⟩
      { s with calls := Function.update s.calls i (some x) }
  | .query i =>
    match s.calls i with
    | none => s
    | some x =>
      match x.query s.committed with
      | .ok (x', db') => ⟨db', Function.update s.calls i (some x')⟩
      | .error _ => { s with calls := Function.update s.calls i none }
  | .commit i =>
    match s.calls i with
    | none => s
    | some x =>
      if x.stage = .tagsAssociated then
        ⟨s.committed.seenBy x.own, Function.update s.calls i none⟩
      else s
  | .rollback i => { s with calls := Function.update s.calls i none }
  | .skipIds gaps => { s with committed := s.committed.skipIds gaps }

/-! ## Duplicate tags -/

/-- What two names have in common that denote one tag: they are equal without the spaces around
    them and without regard to case. -/
def Database.tagKey (db : Database) (name : String) : String := db.lower (trimBoth name)

/-- No two rows of `debate_tag` denote one tag. -/
def Database.DistinctTags (db : Database) : Prop :=
  (db.debateTags.rows.map fun g => db.tagKey g.name).Nodup

instance (db : Database) : Decidable db.DistinctTags := inferInstanceAs (Decidable (List.Nodup _))

/-- The names of the request that the anti-join of `insertTagsSql` keeps. -/
def Transaction.newNames (x : Transaction) : List String :=
  newTagNames x.snapshot (x.debateData.createdTags.getD [])

/-- The tags that these names denote. -/
def Transaction.newKeys (x : Transaction) : List String := x.newNames.map x.snapshot.tagKey

/-- The request has one new tag twice: the anti-join does not compare the names with each other. -/
def Transaction.RepeatsName (x : Transaction) : Prop := ¬ x.newKeys.Nodup

/-- A stored tag with spaces around its name is the one asked for: the anti-join does not trim
    stored names. -/
def Transaction.MissesPadded (x : Transaction) : Prop :=
  ∃ g ∈ x.snapshot.debateTags.rows, trimBoth g.name ≠ g.name ∧
    x.snapshot.tagKey g.name ∈ x.newKeys

/-- A tag asked for was committed after the anti-join had looked for it. -/
def Transaction.Overtaken (x : Transaction) (db : Database) : Prop :=
  ∃ g ∈ db.debateTags.rows, g ∉ x.snapshot.debateTags.rows ∧ db.tagKey g.name ∈ x.newKeys

/-- A call commits although its request has one new tag twice, or one that is stored with spaces
    around its name, or one that has been committed since the call looked for it. -/
def Server.CommitsDuplicate (s : Server) (e : ServerEvent) : Prop :=
  ∃ i x, e = .commit i ∧ s.calls i = some x ∧ x.stage = .tagsAssociated ∧
    (x.RepeatsName ∨ x.MissesPadded ∨ x.Overtaken s.committed)

end DecentDebates

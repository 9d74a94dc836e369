import DecentDebates.Entities.Notification

set_option autoImplicit false

/-! # Proposing and editing debates and arguments (`debates.service.ts`)

The writing half of `DebatesService`; the reading half is `DebatesQueries`. Every function takes
the committed database and returns an `Outcome`; `now` is the transaction's `now()`. -/

namespace DecentDebates

open Relational

def PENDING_BOARD_LIST : String := "PENDING"

/-! ## Request data -/

structure CreateDebateDTO where
  title : String
  tagsIds : List JsNumber
  createdTags : Option (List String)

/-- `CreateArgumentDTO`; `UpdateDraftDTO` declares the same fields. -/
structure CreateArgumentDTO where
  title : String
  content : String
  argumentType : String
  counterargumentId : Option JsNumber

abbrev UpdateDraftDTO := CreateArgumentDTO

structure CreateArgumentData where
  user : UserCookieData
  debateId : JsNumber
  argumentDetails : CreateArgumentDTO

structure UpdateDraftData where
  user : UserCookieData
  debateId : JsNumber
  draftId : JsNumber
  draftData : UpdateDraftDTO

abbrev SubmitDraftData := UpdateDraftData

/-- The texts come from a socket message, which no DTO validates: they may be missing. -/
structure UpdateArgumentDTO where
  title : Option String
  content : Option String

structure UpdateArgumentData where
  user : UserCookieData
  argumentId : JsNumber
  argumentData : UpdateArgumentDTO

structure UpdateDebateData where
  user : UserCookieData
  debateId : JsNumber
  title : Option String

/-! ## Columns of an argument -/

/-- The columns that a payload sets. -/
structure ArgumentColumns where
  title : String
  content : String
  counterargumentTo : Option Int
  type : ArgumentType

def CreateArgumentDTO.columns (d : CreateArgumentDTO) : Except SqlError ArgumentColumns := do
  let title ← varchar 80 d.title
  let content ← text d.content
  let counterargumentTo ← nullableInt4 d.counterargumentId
  let type ← DecentDebates.argumentType d.argumentType
  return { title, content, counterargumentTo, type }

theorem CreateArgumentDTO.columns_eq_ok {d : CreateArgumentDTO} {c : ArgumentColumns} :
    d.columns = .ok c ↔ varchar 80 d.title = .ok c.title ∧ text d.content = .ok c.content ∧
      nullableInt4 d.counterargumentId = .ok c.counterargumentTo ∧
      DecentDebates.argumentType d.argumentType = .ok c.type := by
  simp only [CreateArgumentDTO.columns, except_bind_eq_ok]
  constructor
  · rintro ⟨title, ht, content, hx, k, hk, type, hy, h⟩
    cases h
    exact ⟨ht, hx, hk, hy⟩
  · rintro ⟨ht, hx, hk, hy⟩
    exact ⟨_, ht, _, hx, _, hk, _, hy, rfl⟩

/-- `set title = …, content = …, counterargument_to = …, type = …` -/
def ArgumentRow.setColumns (c : ArgumentColumns) (a : ArgumentRow) : ArgumentRow :=
  { a with
    title := c.title
    content := c.content
    counterargumentTo := c.counterargumentTo
    type := some c.type }

/-! ## Statements -/

/-- `insert into ticket values (default, $1, null, $2) returning id` -/
def insertTicket (createdBy : Int) : Sql Int := do
  let db ← get
  let boardList ← boardListType PENDING_BOARD_LIST
  check (db.tickets.next ≤ int4Max) .sequenceLimit
  check (db.users.rows.any fun u => u.id = createdBy) (.foreignKeyViolation "fk_user_created_by")
  set { db with tickets := db.tickets.insert fun id => ⟨id, createdBy, none, some boardList⟩ }
  return db.tickets.next

/-- `insert into debate values (default, $1, $2, default, default, $3) returning id` -/
def insertDebate (now : Timestamp) (ticketId : Int) (title : String) (createdBy : Int) :
    Sql Int := do
  let db ← get
  let title ← varchar 80 title
  check (db.debates.next ≤ int4Max) .sequenceLimit
  set { db with
    debates := db.debates.insert fun id => ⟨id, ticketId, title, now, now, createdBy⟩ }
  return db.debates.next

/-- The two positional inserts into `argument`: without the last value `is_draft` is its default
    `false`. -/
def insertArgument (now : Timestamp) (d : CreateArgumentData) (ticketId : Option Int)
    (isDraft : Bool) : Sql Int := do
  let db ← get
  let debateId ← int4 d.debateId
  let c ← d.argumentDetails.columns
  check (db.arguments.next ≤ int4Max) .sequenceLimit
  check (db.debates.rows.any fun x => x.id = debateId) (.foreignKeyViolation "fk_debate_id")
  check (db.users.rows.any fun u => u.id = d.user.id) (.foreignKeyViolation "fk_created_by")
  set { db with
    arguments := db.arguments.insert fun id =>
      ⟨id, debateId, ticketId, c.title, c.content, c.counterargumentTo, d.user.id, now,
        some c.type, some isDraft⟩ }
  return db.arguments.next

/-- `trim(both …)` removes spaces and nothing else. -/
def trimBoth (s : String) : String :=
  String.ofList ((s.toList.dropWhile (· = ' ')).reverse.dropWhile (· = ' ')).reverse

/-- The anti-join of `insertTagsSql`: a new name is kept when no stored tag has it up to case,
    the new name being trimmed first. -/
def newTagNames (db : Database) (names : List String) : List String :=
  names.filter fun name =>
    db.debateTags.rows.all fun dt => db.lower dt.name ≠ db.lower (trimBoth name)

def insertTag (name : String) : Sql Int := do
  let db ← get
  let name ← varchar 30 name
  check (db.debateTags.next ≤ int4Max) .sequenceLimit
  set { db with debateTags := db.debateTags.insert fun id => ⟨id, name⟩ }
  return db.debateTags.next

/-- `insertTagsSql`: one statement, so every name is compared with the tags stored before it. -/
def insertTags (names : List String) : Sql (List Int) := do
  let names ← (names.mapM text : Except SqlError (List String))
  let db ← get
  (newTagNames db names).mapM insertTag

/-- `insert into assoc_debate_tag select * from unnest(…)` -/
def insertAssocDebateTags (debateId : Int) (tagsIds : List JsNumber) : Sql Unit := do
  let db ← get
  let tagsIds ← (tagsIds.mapM int4 : Except SqlError (List Int))
  let rows := db.assocDebateTags.rows ++ tagsIds.map fun tagId => ⟨debateId, tagId⟩
  if h : rows.Nodup then
    set { db with assocDebateTags := ⟨rows, h⟩ }
  else
    (throw .uniqueViolation : Except SqlError Unit)

/-! ## Service calls -/

/-- `if (hasCreatedTags)`: the ids of the tags inserted for this debate. -/
def createTags : Option (List String) → Sql (List Int)
  | some createdTags => insertTags createdTags
  | none => pure []

def createDebateSql (now : Timestamp) (user : UserCookieData) (debateData : CreateDebateDTO) :
    Sql Int := do
  -- `tagsIdsArr.push(…)`: the new tags come after the ones asked for by id
  let createdIds ← createTags debateData.createdTags
  let tagsIds := debateData.tagsIds ++ createdIds.map .int
  let ticketId ← insertTicket user.id
  let debateId ← insertDebate now ticketId debateData.title user.id
  insertAssocDebateTags debateId tagsIds
  return ticketId

def createDebate (now : Timestamp) (user : UserCookieData) (debateData : CreateDebateDTO)
    (db : Database) : Outcome Unit :=
  match (createDebateSql now user debateData).commit db with
  | (.ok ticketId, db') =>
    let debateCreatedEv := DomainEvent.debateTicketCreated ticketId debateData.title
    .resolve () db' [.genericModerator debateCreatedEv.getTitle debateCreatedEv .debate]
  | (.error e, db') => .reject (.sql e) db'

def createArgumentSql (now : Timestamp) (argumentData : CreateArgumentData) : Sql Int := do
  let ticketId ← insertTicket argumentData.user.id
  let _ ← insertArgument now argumentData (some ticketId) false
  return ticketId

def createArgument (now : Timestamp) (argumentData : CreateArgumentData) (db : Database) :
    Outcome Unit :=
  match (createArgumentSql now argumentData).commit db with
  | (.ok ticketId, db') =>
    let argCreatedEv :=
      DomainEvent.argumentTicketCreated ticketId argumentData.argumentDetails.title
    .resolve () db' [.genericModerator argCreatedEv.getTitle argCreatedEv .argument]
  | (.error _, db') =>
    .reject (.error "An error occurred while adding the argument to the debate.") db'

def saveArgumentAsDraft (now : Timestamp) (argumentData : CreateArgumentData) (db : Database) :
    Outcome Unit :=
  match (insertArgument now argumentData none true).commit db with
  | (.ok _, db') => .resolve () db'
  | (.error _, db') => .reject (.error "An error occurred while saving the argument as draft.") db'

/-- `where debate_id = $5 and created_by = $6 and id = $7 and is_draft = true` -/
def updateDraftWhere (debateId userId draftId : Int) (a : ArgumentRow) : Truth :=
  (((Truth.eq (some a.debateId) (some debateId)).and
    (Truth.eq (some a.createdBy) (some userId))).and
    (Truth.eq (some a.id) (some draftId))).and
    (Truth.eq a.isDraft (some true))

def updateDraftSql (draftInfo : UpdateDraftData) : Sql Nat := do
  let db ← get
  let c ← draftInfo.draftData.columns
  let debateId ← int4 draftInfo.debateId
  let draftId ← int4 draftInfo.draftId
  let cond := fun a => (updateDraftWhere debateId draftInfo.user.id draftId a).holds
  set { db with arguments := db.arguments.updateWhere cond (.setColumns c) }
  return db.arguments.rows.countP cond

def updateDraft (draftInfo : UpdateDraftData) (db : Database) : Outcome Unit :=
  match (updateDraftSql draftInfo).commit db with
  | (.ok rowCount, db') =>
    if rowCount = 0 then .reject (.error "An error occurred while updating the draft.") db'
    else .resolve () db'
  | (.error _, db') => .reject (.error "An error occurred while updating the draft.") db'

/-- `where id = $6 and debate_id = $7 and created_by = $8` -/
def submitDraftWhere (draftId debateId userId : Int) (a : ArgumentRow) : Truth :=
  ((Truth.eq (some a.id) (some draftId)).and
    (Truth.eq (some a.debateId) (some debateId))).and
    (Truth.eq (some a.createdBy) (some userId))

/-- `set is_draft = false, title = …, ticket_id = $5` -/
def ArgumentRow.submit (c : ArgumentColumns) (ticketId : Int) (a : ArgumentRow) : ArgumentRow :=
  { a.setColumns c with isDraft := some false, ticketId := some ticketId }

def submitDraftSql (draftInfo : SubmitDraftData) : Sql Unit := do
  -- the ticket comes first, before anything is known of the draft
  let ticketId ← insertTicket draftInfo.user.id
  let db ← get
  let c ← draftInfo.draftData.columns
  let draftId ← int4 draftInfo.draftId
  let debateId ← int4 draftInfo.debateId
  let cond := fun a => (submitDraftWhere draftId debateId draftInfo.user.id a).holds
  set { db with arguments := db.arguments.updateWhere cond (.submit c ticketId) }

/-- The number of rows the update touched is not looked at. -/
def submitDraft (draftInfo : SubmitDraftData) (db : Database) : Outcome Unit :=
  match (submitDraftSql draftInfo).commit db with
  | (.ok _, db') => .resolve () db'
  | (.error _, db') => .reject (.error "An error occurred while submitting the draft.") db'

/-- `where a.id = $3 and a.created_by = $4 and t.board_list != 'ACCEPTED' and a.ticket_id = t.id`,
    for a row `a` and a row `t` of the `from` clause -/
def updateArgumentWhere (argumentId userId : Int) (a : ArgumentRow) (t : TicketRow) : Truth :=
  (((Truth.eq (some a.id) (some argumentId)).and
    (Truth.eq (some a.createdBy) (some userId))).and
    (Truth.ne t.boardList (some .accepted))).and
    (Truth.eq a.ticketId (some t.id))

def updateArgumentSql (data : UpdateArgumentData) : Sql Nat := do
  let db ← get
  let title ← nullable (varchar 80) data.argumentData.title
  let content ← nullable text data.argumentData.content
  let argumentId ← int4 data.argumentId
  let cond := fun a =>
    db.tickets.rows.any fun t => (updateArgumentWhere argumentId data.user.id a t).holds
  -- the columns take no NULL, which is found out at the first row that is updated
  if db.arguments.rows.countP cond = 0 then return 0
  else do
    let title ← notNull title
    let content ← notNull content
    set { db with
      arguments := db.arguments.updateWhere cond fun a =>
        { a with title := title, content := content } }
    return db.arguments.rows.countP cond

def updateArgument (data : UpdateArgumentData) (db : Database) : Outcome Nat :=
  match (updateArgumentSql data).commit db with
  | (.ok rowCount, db') => .resolve rowCount db'
  | (.error _, db') => .reject (.error "An error occurred while updating the argument.") db'

/-- `where d.id = $2 and d.created_by = $3 and t.id = d.ticket_id and t.board_list != 'ACCEPTED'` -/
def updateDebateWhere (debateId userId : Int) (d : DebateRow) (t : TicketRow) : Truth :=
  (((Truth.eq (some d.id) (some debateId)).and
    (Truth.eq (some d.createdBy) (some userId))).and
    (Truth.eq (some d.ticketId) (some t.id))).and
    (Truth.ne t.boardList (some .accepted))

def updateDebateSql (data : UpdateDebateData) : Sql Nat := do
  let db ← get
  let title ← nullable (varchar 80) data.title
  let debateId ← int4 data.debateId
  let cond := fun d =>
    db.tickets.rows.any fun t => (updateDebateWhere debateId data.user.id d t).holds
  if db.debates.rows.countP cond = 0 then return 0
  else do
    let title ← notNull title
    set { db with debates := db.debates.updateWhere cond fun d => { d with title := title } }
    return db.debates.rows.countP cond

def updateDebate (data : UpdateDebateData) (db : Database) : Outcome Nat :=
  match (updateDebateSql data).commit db with
  | (.ok rowCount, db') => .resolve rowCount db'
  | (.error _, db') => .reject (.error "An error occurred while updating the debate.") db'

end DecentDebates

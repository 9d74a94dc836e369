import DecentDebates.ProposalTransactions
import DecentDebates.Proofs.Effects
import Mathlib.Data.List.DropRight

set_option autoImplicit false

/-! # Proposals side by side: proofs

Of the statements of a proposal only the first stores tags. What it stores is invisible to other
calls until the commit, and the commit puts it after the tags that are there. So the tags are
distinct after a commit exactly when the new ones are distinct and are none of the stored ones. -/

namespace DecentDebates

open Relational Transition

variable {db db' : Database}

/-! ## A call that is not interrupted -/

/-- The events of a call on connection `i` that is not interrupted. -/
def serialCall (i : Nat) (now : Timestamp) (user : UserCookieData) (debateData : CreateDebateDTO) :
    List ServerEvent :=
  [.start i now user debateData, .query i, .query i, .query i, .query i, .commit i]

/-- `db'` has the rows of `db` and rows of a proposal after them. -/
structure Database.Extends (db db' : Database) : Prop where
  tickets : SerialTable.Extends db.tickets db'.tickets
  debates : SerialTable.Extends db.debates db'.debates
  debateTags : SerialTable.Extends db.debateTags db'.debateTags
  assocDebateTags : db.assocDebateTags.rows <+: db'.assocDebateTags.rows
  users : db'.users = db.users
  arguments : db'.arguments = db.arguments
  ticketComments : db'.ticketComments = db.ticketComments
  lower : db'.lower = db.lower

theorem Database.Extends.refl (db : Database) : db.Extends db :=
  ⟨.refl _, .refl _, .refl _, List.prefix_rfl, rfl, rfl, rfl, rfl⟩

theorem Database.Extends.trans {db₁ db₂ db₃ : Database} (h : db₁.Extends db₂)
    (h' : db₂.Extends db₃) : db₁.Extends db₃ where
  tickets := h.tickets.trans h'.tickets
  debates := h.debates.trans h'.debates
  debateTags := h.debateTags.trans h'.debateTags
  assocDebateTags := h.assocDebateTags.trans h'.assocDebateTags
  users := h'.users.trans h.users
  arguments := h'.arguments.trans h.arguments
  ticketComments := h'.ticketComments.trans h.ticketComments
  lower := h'.lower.trans h.lower

theorem Database.Extends.draw (h : db.Extends db') : (db.draw db').Extends db' where
  tickets := h.tickets.draw
  debates := h.debates.draw
  debateTags := h.debateTags.draw
  assocDebateTags := h.assocDebateTags
  users := h.users
  arguments := h.arguments
  ticketComments := h.ticketComments
  lower := h.lower

theorem AssocTable.overlay_of_nodup {t : AssocTable} {own : List AssocDebateTagRow}
    (h : (t.rows ++ own).Nodup) : (t.overlay own).rows = t.rows ++ own := by
  rw [AssocTable.overlay, dif_pos h]

theorem AssocTable.ext {t t' : AssocTable} (h : t.rows = t'.rows) : t = t' := by
  obtain ⟨rows, nodup⟩ := t
  obtain ⟨rows', nodup'⟩ := t'
  obtain rfl : rows = rows' := h
  rfl

theorem seenBy_none (db : Database) : db.seenBy .none = db := by
  have hassoc : db.assocDebateTags.overlay [] = db.assocDebateTags := by
    refine AssocTable.ext ?_
    rw [AssocTable.overlay_of_nodup ((List.append_nil _).symm ▸ db.assocDebateTags.nodup),
      List.append_nil]
  show { db with assocDebateTags := db.assocDebateTags.overlay [] } = db
  rw [hassoc]

/-- What a transaction has made of the database is what it sees of it. -/
theorem Database.Extends.seenBy_of (h : db.Extends db') :
    (db.draw db').seenBy (.of db db') = db' := by
  have htickets : (db.tickets.draw db'.tickets).overlay (Uncommitted.of db db').tickets =
      db'.tickets := SerialTable.overlay_added h.tickets
  have hdebates : (db.debates.draw db'.debates).overlay (Uncommitted.of db db').debates =
      db'.debates := SerialTable.overlay_added h.debates
  have htags : (db.debateTags.draw db'.debateTags).overlay (Uncommitted.of db db').debateTags =
      db'.debateTags := SerialTable.overlay_added h.debateTags
  have hassoc : db.assocDebateTags.overlay (Uncommitted.of db db').assocDebateTags =
      db'.assocDebateTags := by
    obtain ⟨new, hnew⟩ := h.assocDebateTags
    have hnodup : (db.assocDebateTags.rows ++ new).Nodup := hnew ▸ db'.assocDebateTags.nodup
    have hadded : (Uncommitted.of db db').assocDebateTags = new := by
      unfold Uncommitted.of
      rw [← hnew, List.filter_append, List.filter_eq_nil_iff.2 (by simp), List.nil_append,
        List.filter_eq_self]
      exact fun x hx => decide_eq_true fun hx' => List.disjoint_of_nodup_append hnodup hx' hx
    refine AssocTable.ext ?_
    rw [hadded, AssocTable.overlay_of_nodup hnodup, hnew]
  show Database.mk db.users ((db.tickets.draw db'.tickets).overlay (Uncommitted.of db db').tickets)
    ((db.debates.draw db'.debates).overlay (Uncommitted.of db db').debates)
    ((db.debateTags.draw db'.debateTags).overlay (Uncommitted.of db db').debateTags)
    (db.assocDebateTags.overlay (Uncommitted.of db db').assocDebateTags) db.arguments
    db.ticketComments db.lower = db'
  rw [htickets, hdebates, htags, hassoc, ← h.users, ← h.arguments, ← h.ticketComments, ← h.lower]

theorem createTags_extends {createdTags : Option (List String)} {ids : List Int}
    (h : createTags createdTags db = .ok (ids, db')) : db.Extends db' := by
  obtain ⟨created, tags, -, -, -, hrows, -, hnext, rfl⟩ := createTags_ok h
  exact { Database.Extends.refl db with debateTags := ⟨⟨created, hrows.symm⟩, hnext⟩ }

theorem insertTicket_extends {createdBy id : Int} (h : insertTicket createdBy db = .ok (id, db')) :
    db.Extends db' := by
  obtain ⟨-, -, -, rfl⟩ := insertTicket_eq_ok.1 h
  have htickets := SerialTable.extends_insert db.tickets
    (fun id => ⟨id, createdBy, none, some .pending⟩) fun _ => rfl
  exact { Database.Extends.refl db with tickets := htickets }

theorem insertDebate_extends {now : Timestamp} {ticketId createdBy id : Int} {title : String}
    (h : insertDebate now ticketId title createdBy db = .ok (id, db')) : db.Extends db' := by
  obtain ⟨title', -, -, -, rfl⟩ := insertDebate_eq_ok.1 h
  have hdebates := SerialTable.extends_insert db.debates
    (fun id => ⟨id, ticketId, title', now, now, createdBy⟩) fun _ => rfl
  exact { Database.Extends.refl db with debates := hdebates }

theorem insertAssocDebateTags_extends {debateId : Int} {tagsIds : List JsNumber} {u : Unit}
    (h : insertAssocDebateTags debateId tagsIds db = .ok (u, db')) : db.Extends db' := by
  obtain ⟨ids, assoc, -, hassoc, rfl⟩ := insertAssocDebateTags_eq_ok.1 h
  exact { Database.Extends.refl db with assocDebateTags := ⟨_, hassoc.symm⟩ }

/-- A statement makes of what its transaction sees what it makes of a database of its own. -/
theorem execute_seen {α : Type} {m : Sql α} {own : Uncommitted} {seen seen' : Database} {a : α}
    (hseen : db.seenBy own = seen) (hext : db.Extends seen) (hm : m seen = .ok (a, seen'))
    (hgrow : seen.Extends seen') :
    ∃ own' db', m.execute own db = .ok (a, own', db') ∧ db'.seenBy own' = seen' ∧
      db'.Extends seen' := by
  have hext' := hext.trans hgrow
  refine ⟨.of db seen', db.draw seen', ?_, hext'.seenBy_of, hext'.draw⟩
  unfold Sql.execute
  rw [hseen, hm]

theorem step_query {calls : Nat → Option Transaction} {i : Nat} {x x' : Transaction}
    (hq : x.query db = .ok (x', db')) :
    Server.step ⟨db, Function.update calls i (some x)⟩ (.query i) =
      ⟨db', Function.update calls i (some x')⟩ := by
  simp only [Server.step, Function.update_self, hq, Function.update_idem]

/-- **A call that is not interrupted** does what `createDebate` does in one step. -/
theorem serialCall_run {s : Server} {i : Nat} (hfree : s.calls i = none) {now : Timestamp}
    {user : UserCookieData} {d : CreateDebateDTO} {ticketId : Int}
    (hok : createDebateSql now user d s.committed = .ok (ticketId, db')) :
    run Server.step s (serialCall i now user d) = { s with committed := db' } := by
  obtain ⟨db, calls⟩ := s
  replace hfree : calls i = none := hfree
  simp only [createDebateSql, Sql.bind_eq_ok, Sql.pure_eq_ok] at hok
  obtain ⟨createdIds, db₁, h₁, ticketId', db₂, h₂, debateId, db₃, h₃, u, db₄, h₄, -, rfl⟩ := hok
  -- after each statement the call sees what the statement made of what it saw before
  obtain ⟨own₁, c₁, q₁, s₁, e₁⟩ :=
    execute_seen (seenBy_none db) (.refl db) h₁ (createTags_extends h₁)
  obtain ⟨own₂, c₂, q₂, s₂, e₂⟩ := execute_seen s₁ e₁ h₂ (insertTicket_extends h₂)
  obtain ⟨own₃, c₃, q₃, s₃, e₃⟩ := execute_seen s₂ e₂ h₃ (insertDebate_extends h₃)
  obtain ⟨own₄, c₄, q₄, s₄, -⟩ := execute_seen s₃ e₃ h₄ (insertAssocDebateTags_extends h₄)
  have hstart : Server.step ⟨db, calls⟩ (.start i now user d) =
      ⟨db, Function.update calls i (some ⟨now, user, d, .begun, .none, db⟩)⟩ := by
    simp only [Server.step, hfree]
  have x₁ : Transaction.query ⟨now, user, d, .begun, .none, db⟩ db =
      .ok (⟨now, user, d, .tagsInserted (d.tagsIds ++ createdIds.map .int), own₁, db⟩, c₁) := by
    simp only [Transaction.query, q₁]
    rfl
  have x₂ : Transaction.query
      ⟨now, user, d, .tagsInserted (d.tagsIds ++ createdIds.map .int), own₁, db⟩ c₁ =
      .ok (⟨now, user, d, .ticketInserted (d.tagsIds ++ createdIds.map .int) ticketId', own₂, db⟩,
        c₂) := by
    simp only [Transaction.query, q₂]
    rfl
  have x₃ : Transaction.query
      ⟨now, user, d, .ticketInserted (d.tagsIds ++ createdIds.map .int) ticketId', own₂, db⟩ c₂ =
      .ok (⟨now, user, d, .debateInserted (d.tagsIds ++ createdIds.map .int) debateId, own₃, db⟩,
        c₃) := by
    simp only [Transaction.query, q₃]
    rfl
  have x₄ : Transaction.query
      ⟨now, user, d, .debateInserted (d.tagsIds ++ createdIds.map .int) debateId, own₃, db⟩ c₃ =
      .ok (⟨now, user, d, .tagsAssociated, own₄, db⟩, c₄) := by
    simp only [Transaction.query, q₄]
    rfl
  have hcommit : Server.step
      ⟨c₄, Function.update calls i (some ⟨now, user, d, .tagsAssociated, own₄, db⟩)⟩ (.commit i) =
      ⟨db₄, calls⟩ := by
    simp only [Server.step, Function.update_self, if_true, Function.update_idem, s₄]
    rw [← hfree, Function.update_eq_self]
  simp only [serialCall, run_cons, run_nil]
  rw [hstart, step_query x₁, step_query x₂, step_query x₃, step_query x₄, hcommit]

/-! ## Names -/

theorem trimBoth_toList (s : String) : (trimBoth s).toList =
    (s.toList.dropWhile (· = ' ')).rdropWhile (· = ' ') := by
  rw [trimBoth, String.toList_ofList, List.rdropWhile]

/-- Spaces at the end of a name do not matter. -/
theorem trimBoth_append_spaces {s s' : String} {spaces : List Char}
    (h : s.toList = s'.toList ++ spaces) (hspaces : ∀ c ∈ spaces, c = ' ') :
    trimBoth s = trimBoth s' := by
  have hnil : ∀ cs : List Char, (∀ c ∈ cs, c = ' ') → cs.dropWhile (· = ' ') = [] := fun cs hcs =>
    List.dropWhile_eq_nil_iff.2 fun c hc => decide_eq_true (hcs c hc)
  rw [← String.toList_inj, trimBoth_toList, trimBoth_toList, h, List.dropWhile_append,
    hnil spaces hspaces]
  split
  · next hempty => rw [List.isEmpty_iff.1 hempty]
  · unfold List.rdropWhile
    rw [List.reverse_append, List.dropWhile_append,
      hnil spaces.reverse fun c hc => hspaces c (List.mem_reverse.1 hc)]
    simp

/-- The column type cuts off nothing but spaces at the end. -/
theorem trimBoth_varchar {n : Nat} {s s' : String} (h : varchar n s = .ok s') :
    trimBoth s' = trimBoth s := by
  unfold varchar at h
  split at h
  · cases h
  · split at h
    · rw [Except.ok.inj h]
    · split at h
      · next hspaces =>
        obtain rfl := Except.ok.inj h
        have hcut : s.toList = (String.ofList (s.toList.take n)).toList ++ s.toList.drop n := by
          rw [String.toList_ofList, List.take_append_drop]
        exact (trimBoth_append_spaces hcut (by simpa using hspaces)).symm
      · cases h

/-- The tags that were stored for a list of names are those that the names denote. -/
theorem tagKeys_eq {names : List String} {created : List DebateTagRow}
    (h : List.Forall₂ (fun name g => varchar 30 name = .ok g.name) names created) :
    created.map (fun g => db.tagKey g.name) = names.map db.tagKey := by
  induction h with
  | nil => rfl
  | cons hname _ ih =>
    rw [List.map_cons, List.map_cons, ih, Database.tagKey, trimBoth_varchar hname]
    rfl

/-! ## The tags of a running call -/

/-- The tags that a call has stored and not committed: those of its new names, under ids that no
    committed row has. -/
structure Transaction.Valid (x : Transaction) (db : Database) : Prop where
  lower : x.snapshot.lower = db.lower
  snapshot : ∀ g ∈ x.snapshot.debateTags.rows, g ∈ db.debateTags.rows
  begun : x.stage = .begun → x.own.debateTags = []
  names : x.stage ≠ .begun →
    List.Forall₂ (fun name g => varchar 30 name = .ok g.name) x.newNames x.own.debateTags
  nodup : (x.own.debateTags.map DebateTagRow.id).Nodup
  fresh : ∀ g ∈ x.own.debateTags, ∀ g' ∈ db.debateTags.rows, g'.id ≠ g.id
  bound : ∀ g ∈ x.own.debateTags, g.id < db.debateTags.next

theorem Transaction.Valid.rows_seenBy {x : Transaction} (h : x.Valid db) :
    (db.seenBy x.own).debateTags.rows = db.debateTags.rows ++ x.own.debateTags :=
  SerialTable.rows_overlay h.nodup h.fresh

theorem Transaction.Valid.next_seenBy {x : Transaction} (h : x.Valid db) :
    (db.seenBy x.own).debateTags.next = db.debateTags.next :=
  SerialTable.next_overlay h.bound

theorem execute_eq_ok {α : Type} {m : Sql α} {own own' : Uncommitted} {a : α}
    (h : m.execute own db = .ok (a, own', db')) :
    ∃ seen, m (db.seenBy own) = .ok (a, seen) ∧ own' = .of db seen ∧ db' = db.draw seen := by
  unfold Sql.execute at h
  cases hm : m (db.seenBy own) with
  | error e => simp [hm] at h
  | ok p =>
    obtain ⟨a', seen⟩ := p
    simp only [hm, Except.ok.injEq, Prod.mk.injEq] at h
    obtain ⟨rfl, rfl, rfl⟩ := h
    exact ⟨seen, rfl, rfl, rfl⟩

/-- Through a statement, the committed tags stay and the sequence only advances. -/
structure TagsDrawn (db db' : Database) : Prop where
  rows : db'.debateTags.rows = db.debateTags.rows
  next : db.debateTags.next ≤ db'.debateTags.next
  lower : db'.lower = db.lower

theorem tagsDrawn_draw (db seen : Database) : TagsDrawn db (db.draw seen) :=
  ⟨rfl, SerialTable.le_next_draw _ _, rfl⟩

theorem TagsDrawn.valid (h : TagsDrawn db db') {x : Transaction} (hx : x.Valid db) :
    x.Valid db' where
  lower := hx.lower.trans h.lower.symm
  snapshot := fun g hg => h.rows.symm ▸ hx.snapshot g hg
  begun := hx.begun
  names := hx.names
  nodup := hx.nodup
  fresh := fun g hg g' hg' => hx.fresh g hg g' (h.rows ▸ hg')
  bound := fun g hg => Int.lt_of_lt_of_le (hx.bound g hg) h.next

/-- A statement that stores no tags leaves the transaction's own as they are. -/
theorem execute_debateTags {α : Type} {m : Sql α} {x : Transaction} {own' : Uncommitted} {a : α}
    (hm : ∀ db a db', m db = .ok (a, db') → db'.debateTags = db.debateTags) (hx : x.Valid db)
    (h : m.execute x.own db = .ok (a, own', db')) :
    own'.debateTags = x.own.debateTags ∧ TagsDrawn db db' := by
  obtain ⟨seen, hok, rfl, rfl⟩ := execute_eq_ok h
  refine ⟨?_, tagsDrawn_draw db seen⟩
  have hseen : seen.debateTags.rows = db.debateTags.rows ++ x.own.debateTags := by
    rw [hm _ _ _ hok, hx.rows_seenBy]
  exact SerialTable.added_append hseen

theorem insertTicket_debateTags {createdBy : Int} (db : Database) (id : Int) (db' : Database)
    (h : insertTicket createdBy db = .ok (id, db')) : db'.debateTags = db.debateTags := by
  obtain ⟨-, -, -, rfl⟩ := insertTicket_eq_ok.1 h
  rfl

theorem insertDebate_debateTags {now : Timestamp} {ticketId createdBy : Int} {title : String}
    (db : Database) (id : Int) (db' : Database)
    (h : insertDebate now ticketId title createdBy db = .ok (id, db')) :
    db'.debateTags = db.debateTags := by
  obtain ⟨title', -, -, -, rfl⟩ := insertDebate_eq_ok.1 h
  rfl

theorem insertAssocDebateTags_debateTags {debateId : Int} {tagsIds : List JsNumber}
    (db : Database) (u : Unit) (db' : Database)
    (h : insertAssocDebateTags debateId tagsIds db = .ok (u, db')) :
    db'.debateTags = db.debateTags := by
  obtain ⟨ids, assoc, -, -, rfl⟩ := insertAssocDebateTags_eq_ok.1 h
  rfl

theorem newTagNames_congr {names : List String} (hrows : db'.debateTags.rows = db.debateTags.rows)
    (hlower : db'.lower = db.lower) : newTagNames db' names = newTagNames db names := by
  unfold newTagNames
  rw [hrows, hlower]

/-- What a statement does to the tags of its call: it leaves them as they are, or it is the first
    and stores those that are new. -/
inductive QueriesTags (x : Transaction) (db : Database) (x' : Transaction) (db' : Database) : Prop
  | same (hrequest : x'.debateData = x.debateData) (hsnapshot : x'.snapshot = x.snapshot)
      (hstage : x.stage = .begun ↔ x'.stage = .begun)
      (hown : x'.own.debateTags = x.own.debateTags) (hdrawn : TagsDrawn db db')
  | inserted (hsnapshot : x'.snapshot = db) (hstage : x'.stage ≠ .begun)
      (hnames : List.Forall₂ (fun name g => varchar 30 name = .ok g.name) x'.newNames
        x'.own.debateTags)
      (hnodup : (x'.own.debateTags.map DebateTagRow.id).Nodup)
      (hids : ∀ g ∈ x'.own.debateTags,
        db.debateTags.next ≤ g.id ∧ g.id < db'.debateTags.next)
      (hdrawn : TagsDrawn db db')

theorem query_tags {x x' : Transaction} (hx : x.Valid db) (h : x.query db = .ok (x', db')) :
    QueriesTags x db x' db' := by
  unfold Transaction.query at h
  split at h
  · next hstage =>
    obtain ⟨⟨createdIds, own, db₁⟩, hexec, h⟩ := except_bind_eq_ok.1 h
    cases h
    obtain ⟨seen, hok, rfl, rfl⟩ := execute_eq_ok hexec
    obtain ⟨created, tags, -, hnames, -, hrows, hids, hnext, rfl⟩ := createTags_ok hok
    -- the call has no tags yet, so it sees the committed ones
    have hseen : (db.seenBy x.own).debateTags = db.debateTags := by
      show db.debateTags.overlay x.own.debateTags = _
      rw [hx.begun hstage, SerialTable.overlay_nil]
    have hnew : newTagNames (db.seenBy x.own) (x.debateData.createdTags.getD []) =
        newTagNames db (x.debateData.createdTags.getD []) :=
      newTagNames_congr (congrArg SerialTable.rows hseen) rfl
    rw [hnew] at hnames
    rw [hseen] at hrows hids hnext
    obtain rfl : db.debateTags.added tags = created := SerialTable.added_append hrows
    refine .inserted rfl (by simp) hnames ?_ (fun g hg => ⟨hids g hg, ?_⟩) (tagsDrawn_draw _ _)
    · have hnodup := tags.nodup
      rw [hrows, List.map_append] at hnodup
      exact hnodup.of_append_right
    · show g.id < (db.debateTags.draw tags).next
      rw [SerialTable.next_draw hnext]
      exact tags.fresh g (hrows ▸ List.mem_append_right _ hg)
  · next tagsIdsArr hstage =>
    obtain ⟨⟨ticketId, own, db₁⟩, hexec, h⟩ := except_bind_eq_ok.1 h
    cases h
    obtain ⟨hown, hdrawn⟩ := execute_debateTags insertTicket_debateTags hx hexec
    exact .same rfl rfl (by simp [hstage]) hown hdrawn
  · next tagsIdsArr ticketId hstage =>
    obtain ⟨⟨debateId, own, db₁⟩, hexec, h⟩ := except_bind_eq_ok.1 h
    cases h
    obtain ⟨hown, hdrawn⟩ := execute_debateTags insertDebate_debateTags hx hexec
    exact .same rfl rfl (by simp [hstage]) hown hdrawn
  · next tagsIdsArr debateId hstage =>
    obtain ⟨⟨u, own, db₁⟩, hexec, h⟩ := except_bind_eq_ok.1 h
    cases h
    obtain ⟨hown, hdrawn⟩ := execute_debateTags insertAssocDebateTags_debateTags hx hexec
    exact .same rfl rfl (by simp [hstage]) hown hdrawn
  · cases h
    exact .same rfl rfl Iff.rfl rfl ⟨rfl, Int.le_refl _, rfl⟩

theorem QueriesTags.drawn {x x' : Transaction} (h : QueriesTags x db x' db') :
    TagsDrawn db db' := by
  cases h with
  | same _ _ _ _ hdrawn => exact hdrawn
  | inserted _ _ _ _ _ hdrawn => exact hdrawn

theorem QueriesTags.valid {x x' : Transaction} (h : QueriesTags x db x' db') (hx : x.Valid db) :
    x'.Valid db' := by
  cases h with
  | same hrequest hsnapshot hstage hown hdrawn =>
    have hx' := hdrawn.valid hx
    have hnew : x'.newNames = x.newNames := by
      unfold Transaction.newNames
      rw [hrequest, hsnapshot]
    refine ⟨hsnapshot ▸ hx'.lower, hsnapshot ▸ hx'.snapshot, ?_, ?_, hown ▸ hx'.nodup,
      hown ▸ hx'.fresh, hown ▸ hx'.bound⟩
    · exact fun hbegun => hown.trans (hx.begun (hstage.2 hbegun))
    · intro hbegun
      rw [hown, hnew]
      exact hx.names (mt hstage.1 hbegun)
  | inserted hsnapshot hstage hnames hnodup hids hdrawn =>
    refine ⟨hsnapshot ▸ hdrawn.lower.symm, ?_, fun h => absurd h hstage, fun _ => hnames, hnodup,
      ?_, fun g hg => (hids g hg).2⟩
    · rw [hsnapshot, hdrawn.rows]
      exact fun g hg => hg
    · intro g hg g' hg' he
      rw [hdrawn.rows] at hg'
      have hlt : g'.id < db.debateTags.next := db.debateTags.fresh g' hg'
      have hle := (hids g hg).1
      omega

/-- The tags of a call after a statement are its own from before, or under new ids. -/
theorem QueriesTags.own {x x' : Transaction} (h : QueriesTags x db x' db') :
    ∀ g ∈ x'.own.debateTags, g ∈ x.own.debateTags ∨ db.debateTags.next ≤ g.id := by
  cases h with
  | same _ _ _ hown _ => exact fun g hg => Or.inl (hown ▸ hg)
  | inserted _ _ _ _ hids _ => exact fun g hg => Or.inr (hids g hg).1

/-! ## The server -/

/-- Every call has tags of its own. -/
structure Server.Valid (s : Server) : Prop where
  calls : ∀ i x, s.calls i = some x → x.Valid s.committed
  disjoint : ∀ i j x y, i ≠ j → s.calls i = some x → s.calls j = some y →
    ∀ g ∈ x.own.debateTags, ∀ g' ∈ y.own.debateTags, g.id ≠ g'.id

theorem Server.Valid.idle (db : Database) : (Server.idle db).Valid where
  calls := fun _ x h => absurd h.symm (Option.some_ne_none x)
  disjoint := fun _ _ x _ _ h => absurd h.symm (Option.some_ne_none x)

theorem update_none_eq_some {s : Server} {i j : Nat} {y : Transaction}
    (h : Function.update s.calls i none j = some y) : s.calls j = some y ∧ j ≠ i := by
  by_cases hj : j = i
  · rw [hj, Function.update_self] at h
    exact absurd h.symm (Option.some_ne_none y)
  · rw [Function.update_of_ne hj] at h
    exact ⟨h, hj⟩

/-- A call ends without a trace. -/
theorem Server.Valid.remove {s : Server} (h : s.Valid) (i : Nat) :
    Server.Valid { s with calls := Function.update s.calls i none } := by
  constructor
  · intro j y hy
    exact h.calls j y (update_none_eq_some hy).1
  · intro j k y z hne hy hz
    exact h.disjoint j k y z hne (update_none_eq_some hy).1 (update_none_eq_some hz).1

/-- A call goes on, or starts; tags it has not had before have new ids. -/
theorem Server.Valid.update {s : Server} (h : s.Valid) {i : Nat} {x' : Transaction}
    {db' : Database} (hdrawn : TagsDrawn s.committed db') (hx' : x'.Valid db')
    (hown : ∀ g ∈ x'.own.debateTags, (∃ x, s.calls i = some x ∧ g ∈ x.own.debateTags) ∨
      s.committed.debateTags.next ≤ g.id) :
    Server.Valid ⟨db', Function.update s.calls i (some x')⟩ := by
  have hcalls : ∀ j y, Function.update s.calls i (some x') j = some y →
      j = i ∧ y = x' ∨ j ≠ i ∧ s.calls j = some y := by
    intro j y hy
    by_cases hj : j = i
    · rw [hj, Function.update_self] at hy
      exact Or.inl ⟨hj, (Option.some.inj hy).symm⟩
    · rw [Function.update_of_ne hj] at hy
      exact Or.inr ⟨hj, hy⟩
  -- the tags of another call are not among those of call `i`
  have hother : ∀ j y, j ≠ i → s.calls j = some y → ∀ g ∈ x'.own.debateTags,
      ∀ g' ∈ y.own.debateTags, g.id ≠ g'.id := by
    intro j y hj hy g hg g' hg'
    rcases hown g hg with ⟨x, hx, hgx⟩ | hnext
    · exact h.disjoint i j x y (Ne.symm hj) hx hy g hgx g' hg'
    · have := (h.calls j y hy).bound g' hg'
      omega
  constructor
  · intro j y hy
    rcases hcalls j y hy with ⟨-, rfl⟩ | ⟨-, hy⟩
    · exact hx'
    · exact hdrawn.valid (h.calls j y hy)
  · intro j k y z hne hy hz g hg g' hg'
    rcases hcalls j y hy with ⟨rfl, rfl⟩ | ⟨hj, hy'⟩ <;>
      rcases hcalls k z hz with ⟨rfl, rfl⟩ | ⟨hk, hz'⟩
    · exact absurd rfl hne
    · exact hother k z hk hz' g hg g' hg'
    · exact (hother j y hj hy' g' hg' g hg).symm
    · exact h.disjoint j k y z hne hy' hz' g hg g' hg'

/-- A call commits: its tags are committed tags now, and no other call has them. -/
theorem Server.Valid.commit {s : Server} (h : s.Valid) {i : Nat} {x : Transaction}
    (hx : s.calls i = some x) :
    Server.Valid ⟨s.committed.seenBy x.own, Function.update s.calls i none⟩ := by
  have hvalid := h.calls i x hx
  constructor
  · intro j y hy
    obtain ⟨hy, hj⟩ := update_none_eq_some hy
    have hvalid' := h.calls j y hy
    refine ⟨hvalid'.lower, ?_, hvalid'.begun, hvalid'.names, hvalid'.nodup, ?_, ?_⟩
    · intro g hg
      rw [hvalid.rows_seenBy]
      exact List.mem_append_left _ (hvalid'.snapshot g hg)
    · intro g hg g' hg'
      rw [hvalid.rows_seenBy, List.mem_append] at hg'
      rcases hg' with hg' | hg'
      · exact hvalid'.fresh g hg g' hg'
      · exact h.disjoint i j x y (Ne.symm hj) hx hy g' hg' g hg
    · rw [hvalid.next_seenBy]
      exact hvalid'.bound
  · intro j k y z hne hy hz
    exact h.disjoint j k y z hne (update_none_eq_some hy).1 (update_none_eq_some hz).1

theorem TagsDrawn.refl (db : Database) : TagsDrawn db db := ⟨rfl, Int.le_refl _, rfl⟩

theorem tagsDrawn_skipIds (db : Database) (gaps : Gaps) : TagsDrawn db (db.skipIds gaps) where
  rows := rfl
  next := by
    show db.debateTags.next ≤ db.debateTags.next + gaps.debateTags
    omega
  lower := rfl

theorem Server.Valid.step {s : Server} (h : s.Valid) (e : ServerEvent) : (s.step e).Valid := by
  cases e with
  | start i now user debateData =>
    cases hx : s.calls i with
    | some x =>
      simp only [Server.step, hx]
      exact h
    | none =>
      simp only [Server.step, hx]
      refine h.update (.refl _) ?_ fun g hg => absurd hg List.not_mem_nil
      exact ⟨rfl, fun g hg => hg, fun _ => rfl, fun hnot => absurd rfl hnot, List.nodup_nil,
        fun g hg => absurd hg List.not_mem_nil, fun g hg => absurd hg List.not_mem_nil⟩
  | query i =>
    cases hx : s.calls i with
    | none =>
      simp only [Server.step, hx]
      exact h
    | some x =>
      have hvalid := h.calls i x hx
      cases hq : x.query s.committed with
      | error err =>
        simp only [Server.step, hx, hq]
        exact h.remove i
      | ok p =>
        obtain ⟨x', db'⟩ := p
        have htags := query_tags hvalid hq
        simp only [Server.step, hx, hq]
        exact h.update htags.drawn (htags.valid hvalid) fun g hg =>
          (htags.own g hg).imp_left fun hgx => ⟨x, hx, hgx⟩
  | commit i =>
    cases hx : s.calls i with
    | none =>
      simp only [Server.step, hx]
      exact h
    | some x =>
      simp only [Server.step, hx]
      split
      · exact h.commit hx
      · exact h
  | rollback i => exact h.remove i
  | skipIds gaps =>
    have hdrawn := tagsDrawn_skipIds s.committed gaps
    exact ⟨fun i x hx => hdrawn.valid (h.calls i x hx), h.disjoint⟩

/-! ## What a commit adds -/

theorem TagsDrawn.distinctTags_iff (h : TagsDrawn db db') :
    db'.DistinctTags ↔ db.DistinctTags := by
  unfold Database.DistinctTags Database.tagKey
  rw [h.rows, h.lower]

/-- A tag that was there for the anti-join to see, and that a new name denotes nevertheless, has
    spaces around its name. -/
theorem Transaction.padded_of_mem_newKeys {x : Transaction} {g : DebateTagRow}
    (hg : g ∈ x.snapshot.debateTags.rows) (hkey : x.snapshot.tagKey g.name ∈ x.newKeys) :
    trimBoth g.name ≠ g.name := by
  intro htrim
  obtain ⟨name, hname, hsame⟩ := List.mem_map.1 hkey
  have hnew := List.of_mem_filter hname
  rw [List.all_eq_true] at hnew
  refine of_decide_eq_true (hnew g hg) ?_
  unfold Database.tagKey at hsame
  rw [hsame, htrim]

theorem tagKey_seenBy (db : Database) (own : Uncommitted) :
    (db.seenBy own).tagKey = db.tagKey := rfl

theorem Transaction.Valid.distinctTags_iff {x : Transaction} (h : x.Valid db)
    (hstage : x.stage ≠ .begun) (hI : db.DistinctTags) :
    (db.seenBy x.own).DistinctTags ↔
      ¬ (x.RepeatsName ∨ x.MissesPadded ∨ x.Overtaken db) := by
  have hkey : db.tagKey = x.snapshot.tagKey := by
    unfold Database.tagKey
    rw [h.lower]
  have hkeys : x.own.debateTags.map (fun g => db.tagKey g.name) = x.newKeys := by
    rw [tagKeys_eq (h.names hstage), hkey]
    rfl
  have hiff : (db.seenBy x.own).DistinctTags ↔ x.newKeys.Nodup ∧
      ∀ g ∈ db.debateTags.rows, db.tagKey g.name ∉ x.newKeys := by
    unfold Database.DistinctTags
    rw [tagKey_seenBy, h.rows_seenBy, List.map_append, hkeys, List.nodup_append']
    simp only [List.Disjoint, List.mem_map]
    constructor
    · rintro ⟨-, hnodup, hdisj⟩
      exact ⟨hnodup, fun g hg hmem => hdisj ⟨g, hg, rfl⟩ hmem⟩
    · rintro ⟨hnodup, hdisj⟩
      refine ⟨hI, hnodup, ?_⟩
      rintro _ ⟨g, hg, rfl⟩ hmem
      exact hdisj g hg hmem
  rw [hiff, not_or, not_or]
  refine and_congr not_not.symm ?_
  constructor
  · intro hnone
    constructor
    · rintro ⟨g, hg, -, hmem⟩
      exact hnone g (h.snapshot g hg) (hkey ▸ hmem)
    · rintro ⟨g, hg, -, hmem⟩
      exact hnone g hg hmem
  · rintro ⟨hpadded, hover⟩ g hg hmem
    by_cases hsnap : g ∈ x.snapshot.debateTags.rows
    · have hmem' : x.snapshot.tagKey g.name ∈ x.newKeys := hkey ▸ hmem
      exact hpadded ⟨g, hsnap, Transaction.padded_of_mem_newKeys hsnap hmem', hmem'⟩
    · exact hover ⟨g, hg, hsnap, hmem⟩

/-- The tags are distinct after an event exactly when it does not commit a duplicate. -/
theorem Server.Valid.distinctTags_step {s : Server} (h : s.Valid) (hI : s.committed.DistinctTags)
    (e : ServerEvent) : (s.step e).committed.DistinctTags ↔ ¬ s.CommitsDuplicate e := by
  have hno : (∀ i, e ≠ .commit i) → ¬ s.CommitsDuplicate e := by
    rintro hne ⟨i, x, he, -⟩
    exact hne i he
  cases e with
  | start i now user debateData =>
    refine iff_of_true ?_ (hno (by simp))
    simp only [Server.step]
    split <;> exact hI
  | query i =>
    refine iff_of_true ?_ (hno (by simp))
    cases hx : s.calls i with
    | none =>
      simp only [Server.step, hx]
      exact hI
    | some x =>
      cases hq : x.query s.committed with
      | error err =>
        simp only [Server.step, hx, hq]
        exact hI
      | ok p =>
        obtain ⟨x', db'⟩ := p
        simp only [Server.step, hx, hq]
        exact (query_tags (h.calls i x hx) hq).drawn.distinctTags_iff.2 hI
  | commit i =>
    cases hx : s.calls i with
    | none =>
      simp only [Server.step, hx]
      refine iff_of_true hI ?_
      rintro ⟨j, x, he, hx', -⟩
      cases he
      rw [hx] at hx'
      exact Option.some_ne_none x hx'.symm
    | some x =>
      simp only [Server.step, hx]
      by_cases hstage : x.stage = .tagsAssociated
      · rw [if_pos hstage, (h.calls i x hx).distinctTags_iff (by simp [hstage]) hI]
        refine not_congr ⟨fun hdup => ⟨i, x, rfl, hx, hstage, hdup⟩, ?_⟩
        rintro ⟨j, x', he, hx', -, hdup⟩
        cases he
        rw [hx] at hx'
        rwa [Option.some.inj hx']
      · rw [if_neg hstage]
        refine iff_of_true hI ?_
        rintro ⟨j, x', he, hx', hstage', -⟩
        cases he
        rw [hx] at hx'
        exact hstage (Option.some.inj hx' ▸ hstage')
  | rollback i => exact iff_of_true hI (hno (by simp))
  | skipIds gaps =>
    exact iff_of_true ((tagsDrawn_skipIds s.committed gaps).distinctTags_iff.2 hI) (hno (by simp))

/-- **No duplicate tags.** From an empty `debate_tag`, however the statements of calls of
    `createDebate` interleave, the stored tags are distinct in all states exactly when no call
    commits a tag that its request repeats, that is stored with spaces around its name, or that
    another call has committed in the meantime. -/
theorem distinct_tags_iff (db : Database) (hempty : db.debateTags.rows = [])
    (events : List ServerEvent) :
    (∀ s ∈ states Server.step (Server.idle db) events, s.committed.DistinctTags) ↔
      ∀ p ∈ steps Server.step (Server.idle db) events, ¬ p.1.CommitsDuplicate p.2 := by
  refine states_iff_steps (J := Server.Valid) (I := fun s => s.committed.DistinctTags)
    (C := fun s e => ¬ s.CommitsDuplicate e) (fun s e h => h.step e)
    (fun s e h hI => h.distinctTags_step hI e) (Server.Valid.idle db) ?_ events
  show db.DistinctTags
  unfold Database.DistinctTags
  rw [hempty]
  exact List.nodup_nil

/-- Two calls, one after the other, that ask for the tag "a" by different spellings. -/
theorem distinct_tags_iff_sample :
    let db := run step (Database.empty String.toLower) createUsers
    let events := serialCall 0 1 testUser ⟨"first", [], some ["a"]⟩ ++
      serialCall 1 2 moderatorOne ⟨"second", [.int 1], some [" a ", "b"]⟩
    (run Server.step (Server.idle db) events).committed.debateTags.rows = [⟨1, "a"⟩, ⟨2, "b"⟩] ∧
      ∀ p ∈ steps Server.step (Server.idle db) events, ¬ p.1.CommitsDuplicate p.2 :=
  ⟨by decide +kernel, (distinct_tags_iff _ (by decide +kernel) _).1 (by decide +kernel)⟩

/-- One call that asks for the new tag "a" twice gets it twice. -/
theorem createDebate_repeats_tag :
    let db := run step (Database.empty String.toLower) createUsers
    db.debateTags.rows = [] ∧
      ¬ (run Server.step (Server.idle db)
        (serialCall 0 1 testUser ⟨"first", [], some ["a", "a"]⟩)).committed.DistinctTags := by
  decide +kernel

end DecentDebates

import DecentDebates.RequestedTags
import DecentDebates.Proofs.Findability
import DecentDebates.Proofs.ProposalTransactions

set_option autoImplicit false

/-! # The tags of a new debate: proofs

What a resolved proposal has stored is a list of tags, one for each name that no stored tag has, and
the links to them and to the ids of the request. A name that is left out of the list is carried
only if the request has its tag by id. -/

namespace DecentDebates

open Relational Transition

variable {db : Database} {now : Timestamp} {user : UserCookieData} {d : CreateDebateDTO}

/-- What a resolved proposal has committed. -/
structure StoresTags (db db' : Database) (d : CreateDebateDTO) (created : List DebateTagRow)
    (debate : DebateRow) (ids : List Int) : Prop where
  lower : db'.lower = db.lower
  debates : db'.debates.rows = db.debates.rows ++ [debate]
  id : debate.id = db.debates.next
  tags : db'.debateTags.rows = db.debateTags.rows ++ created
  names : List.Forall₂ (fun name g => varchar 30 name = .ok g.name) (newTagNames db d.names) created
  tagsIds : d.tagsIds ++ (created.map DebateTagRow.id).map .int = ids.map .int
  assoc : db'.assocDebateTags.rows =
    db.assocDebateTags.rows ++ ids.map fun id => ⟨debate.id, id⟩

theorem mapM_int4_eq_ok {xs : List JsNumber} {ids : List Int} (h : xs.mapM int4 = .ok ids) :
    xs = ids.map .int := by
  rw [mapM_eq_ok] at h
  induction h with
  | nil => rfl
  | cons hx _ ih => rw [List.map_cons, ← ih, (int4_eq_ok.1 hx).1]

theorem createDebate_stores (hok : (createDebate now user d db).result = .ok ()) :
    ∃ created debate ids, StoresTags db (createDebate now user d db).db d created debate ids := by
  unfold createDebate at hok ⊢
  rcases Sql.commit_cases (createDebateSql now user d) db with
    ⟨ticketId, db', hsql, hcommit⟩ | ⟨e, -, hcommit⟩
  · simp only [hcommit, Outcome.db_resolve]
    obtain ⟨createdIds, tags, title, ids, assoc, htags, -, -, hids, hassoc, -, rfl⟩ :=
      createDebateSql_eq_ok.1 hsql
    obtain ⟨created, tags', -, hnames, rfl, hrows, -, -, htags'⟩ := createTags_ok htags
    obtain rfl : tags = tags' := congrArg Database.debateTags htags'
    exact ⟨created, _, ids, rfl, rfl, rfl, hrows, hnames, mapM_int4_eq_ok hids, hassoc⟩
  · simp [hcommit] at hok

namespace StoresTags

variable {db' : Database} {created : List DebateTagRow} {debate : DebateRow} {ids : List Int}

theorem mem_ids_iff (h : StoresTags db db' d created debate ids) {id : Int} :
    id ∈ ids ↔ .int id ∈ d.tagsIds ∨ ∃ g ∈ created, g.id = id := by
  have hmem : id ∈ ids ↔ JsNumber.int id ∈ ids.map .int := by simp
  rw [hmem, ← h.tagsIds]
  simp

/-- The debate is new, so nothing but the proposal has given it tags. -/
theorem tagsIdsOf_eq (h : StoresTags db db' d created debate ids) (hA : db.AssocLinked) :
    db'.tagsIdsOf debate.id = ids := by
  have hold : (db.assocDebateTags.rows.filter fun x => x.debateId = debate.id) = [] := by
    rw [List.filter_eq_nil_iff]
    intro x hx
    obtain ⟨d', hd', hid⟩ := hA x hx
    rw [decide_eq_true_eq, h.id, ← hid]
    exact SerialTable.ne_next hd'
  rw [Database.tagsIdsOf, h.assoc, List.filter_append, hold, List.nil_append,
    List.filter_eq_self.2 (by simp), List.map_map]
  exact List.map_id _

theorem tagKey_eq (h : StoresTags db db' d created debate ids) (name : String) :
    db'.tagKey name = db.tagKey name := by
  rw [Database.tagKey, Database.tagKey, h.lower]

/-- A tag that has been stored is that of a name that no tag had. -/
theorem name_of_created (h : StoresTags db db' d created debate ids) {g : DebateTagRow}
    (hg : g ∈ created) : ∃ name ∈ newTagNames db d.names, db.tagKey name = db.tagKey g.name := by
  have hkey : db.tagKey g.name ∈ created.map fun g => db.tagKey g.name :=
    List.mem_map.2 ⟨g, hg, rfl⟩
  rw [tagKeys_eq h.names] at hkey
  exact List.mem_map.1 hkey

theorem created_of_name (h : StoresTags db db' d created debate ids) {name : String}
    (hname : name ∈ newTagNames db d.names) :
    ∃ g ∈ created, db.tagKey g.name = db.tagKey name := by
  have hkey : db.tagKey name ∈ (newTagNames db d.names).map db.tagKey := List.mem_map_of_mem hname
  rw [← tagKeys_eq h.names] at hkey
  exact List.mem_map.1 hkey

theorem names_of_created (h : StoresTags db db' d created debate ids) {g : DebateTagRow}
    (hg : g ∈ created) {name : String} (hkey : db.tagKey g.name = db.tagKey name) :
    db'.Names name g.id := by
  refine ⟨g, h.tags ▸ List.mem_append_right _ hg, rfl, ?_⟩
  rw [h.tagKey_eq, h.tagKey_eq, hkey]

/-- A tag that was stored before has the names it had. -/
theorem names_iff (h : StoresTags db db' d created debate ids) {g : DebateTagRow}
    (hg : g ∈ db.debateTags.rows) {name : String} : db'.Names name g.id ↔ db.Names name g.id := by
  have hmem : g ∈ db'.debateTags.rows := h.tags ▸ List.mem_append_left _ hg
  constructor
  · rintro ⟨g', hg', hid, hkey⟩
    obtain rfl := SerialTable.eq_of_rowId_eq hg' hmem hid
    rw [h.tagKey_eq, h.tagKey_eq] at hkey
    exact ⟨g', hg, rfl, hkey⟩
  · rintro ⟨g', hg', hid, hkey⟩
    obtain rfl := SerialTable.eq_of_rowId_eq hg' hg hid
    rw [← h.tagKey_eq, ← h.tagKey_eq] at hkey
    exact ⟨g', hmem, rfl, hkey⟩

theorem carriesTags_iff (h : StoresTags db db' d created debate ids) (hA : db.AssocLinked)
    (hids : ∀ id ∈ d.tagsIds, ∃ g ∈ db.debateTags.rows, id = .int g.id) :
    db'.CarriesTags debate.id d ↔ d.SelectsStored db := by
  have heq := h.tagsIdsOf_eq hA
  constructor
  · rintro ⟨-, hcreated, -⟩ name hname ⟨g₀, hg₀, hlower⟩
    obtain ⟨id, hid, hnames⟩ := hcreated name hname
    rw [heq, h.mem_ids_iff] at hid
    rcases hid with hasked | ⟨g, hg, rfl⟩
    · obtain ⟨g, hg, hgid⟩ := hids _ hasked
      obtain rfl := JsNumber.int.inj hgid
      exact ⟨g.id, hasked, (h.names_iff hg).1 hnames⟩
    · -- a tag stored now would have the name of one stored before
      obtain ⟨g', hg', hid, hkey⟩ := hnames
      obtain rfl := SerialTable.eq_of_rowId_eq hg' (h.tags ▸ List.mem_append_right _ hg) hid
      obtain ⟨name', hname', hkey'⟩ := h.name_of_created hg
      rw [h.tagKey_eq, h.tagKey_eq] at hkey
      have hnew := (List.mem_filter.1 hname').2
      simp only [List.all_eq_true, decide_eq_true_eq] at hnew
      exact absurd (hlower.trans (hkey.symm.trans hkey'.symm)) (hnew g₀ hg₀)
  · intro hselects
    refine ⟨fun id hid => ?_, fun name hname => ?_, fun id hid => ?_⟩
    · rw [heq, h.mem_ids_iff]
      exact Or.inl hid
    · by_cases hstored : ∃ g ∈ db.debateTags.rows, db.lower g.name = db.tagKey name
      · obtain ⟨id, hid, hnames⟩ := hselects name hname hstored
        obtain ⟨g, hg, hgid⟩ := hids _ hid
        obtain rfl := JsNumber.int.inj hgid
        refine ⟨g.id, ?_, (h.names_iff hg).2 hnames⟩
        rw [heq, h.mem_ids_iff]
        exact Or.inl hid
      · have hnew : name ∈ newTagNames db d.names := by
          refine List.mem_filter.2 ⟨hname, ?_⟩
          simp only [List.all_eq_true, decide_eq_true_eq]
          exact fun g hg heq => hstored ⟨g, hg, heq⟩
        obtain ⟨g, hg, hkey⟩ := h.created_of_name hnew
        refine ⟨g.id, ?_, h.names_of_created hg hkey⟩
        rw [heq, h.mem_ids_iff]
        exact Or.inr ⟨g, hg, rfl⟩
    · rw [heq, h.mem_ids_iff] at hid
      rcases hid with hid | ⟨g, hg, rfl⟩
      · exact Or.inl hid
      · obtain ⟨name, hname, hkey⟩ := h.name_of_created hg
        exact Or.inr ⟨name, List.mem_of_mem_filter hname, h.names_of_created hg hkey.symm⟩

end StoresTags

/-- **The tags of a new debate.** A proposal that resolves has stored one debate. The debate has the
    tags of the request's ids, a tag for each of its names and no other exactly when a name that is
    found stored comes with the id of a tag of that name. -/
theorem carries_tags_iff (hA : db.AssocLinked)
    (hids : ∀ id ∈ d.tagsIds, ∃ g ∈ db.debateTags.rows, id = .int g.id)
    (hok : (createDebate now user d db).result = .ok ()) :
    ∃ debate, (createDebate now user d db).db.debates.rows = db.debates.rows ++ [debate] ∧
      ((createDebate now user d db).db.CarriesTags debate.id d ↔ d.SelectsStored db) := by
  obtain ⟨created, debate, ids, h⟩ := createDebate_stores hok
  exact ⟨debate, h.debates, h.carriesTags_iff hA hids⟩

/-- A debate with the tag `health` is stored. -/
def healthTagged : Database :=
  run step (Database.empty id)
    (createUsers ++ [.createDebate 1 testUser ⟨"Vaccines", [], some ["health"]⟩])

theorem healthTagged_eq : healthTagged = run step (Database.withUsers id)
    [.createDebate 1 testUser ⟨"Vaccines", [], some ["health"]⟩] :=
  run_createUsers_append id _

theorem healthTagged_debateTags : healthTagged.debateTags.rows = [⟨1, "health"⟩] := by
  rw [healthTagged_eq]
  decide +kernel

theorem healthTagged_assocLinked : healthTagged.AssocLinked := by
  rw [healthTagged_eq]
  unfold Database.AssocLinked
  decide +kernel

/-- The user asks for `health` by id and by name, and for a new tag. -/
def asksForBoth : CreateDebateDTO := ⟨"Sports", [.int 1], some ["health ", " sports"]⟩

theorem asksForBoth_selects : asksForBoth.SelectsStored healthTagged := by
  intro name hname hstored
  rcases List.mem_pair.1 hname with rfl | rfl
  · refine ⟨1, List.mem_singleton_self _, ⟨1, "health"⟩, ?_, rfl, ?_⟩
    · rw [healthTagged_debateTags]
      exact List.mem_singleton_self _
    · rw [healthTagged_eq]
      decide +kernel
  · rw [healthTagged_eq] at hstored
    exact absurd hstored (by decide +kernel)

theorem carries_tags_sample :
    ∃ debate, (createDebate 2 testUser asksForBoth healthTagged).db.debates.rows =
        healthTagged.debates.rows ++ [debate] ∧
      (createDebate 2 testUser asksForBoth healthTagged).db.CarriesTags debate.id asksForBoth := by
  have hok : (createDebate 2 testUser asksForBoth healthTagged).result = .ok () := by
    rw [healthTagged_eq]
    decide +kernel
  have hids : ∀ id ∈ asksForBoth.tagsIds, ∃ g ∈ healthTagged.debateTags.rows, id = .int g.id := by
    rw [healthTagged_debateTags]
    decide
  obtain ⟨debate, hdebates, hiff⟩ := carries_tags_iff healthTagged_assocLinked hids hok
  exact ⟨debate, hdebates, hiff.2 asksForBoth_selects⟩

/-- The name of a stored tag is neither inserted nor linked. -/
theorem stored_name_not_carried :
    ¬ ∀ (db : Database) (now : Timestamp) (user : UserCookieData) (d : CreateDebateDTO),
      db.AssocLinked → (∀ id ∈ d.tagsIds, ∃ g ∈ db.debateTags.rows, id = .int g.id) →
        (createDebate now user d db).result = .ok () →
          ∃ debate, (createDebate now user d db).db.debates.rows = db.debates.rows ++ [debate] ∧
            (createDebate now user d db).db.CarriesTags debate.id d := by
  intro h
  have hids : ∀ id ∈ ([] : List JsNumber), ∃ g ∈ healthTagged.debateTags.rows, id = .int g.id :=
    nofun
  have hok : (createDebate 2 testUser ⟨"Sports", [], some ["health"]⟩ healthTagged).result =
      .ok () := by
    rw [healthTagged_eq]
    decide +kernel
  obtain ⟨debate, hdebates, hcarries⟩ :=
    h healthTagged 2 testUser _ healthTagged_assocLinked hids hok
  obtain ⟨created, debate', ids, hstores⟩ := createDebate_stores hok
  obtain rfl := List.singleton_inj.1 (List.append_cancel_left (hdebates.symm.trans hstores.debates))
  have hselects := (hstores.carriesTags_iff healthTagged_assocLinked hids).1 hcarries
  have hstored : (⟨1, "health"⟩ : DebateTagRow) ∈ healthTagged.debateTags.rows := by
    rw [healthTagged_debateTags]
    exact List.mem_singleton_self _
  have hkey : healthTagged.lower "health" = healthTagged.tagKey "health" := by
    rw [healthTagged_eq]
    decide +kernel
  obtain ⟨id, hid, -⟩ := hselects "health" (List.mem_singleton_self _) ⟨_, hstored, hkey⟩
  cases hid

end DecentDebates

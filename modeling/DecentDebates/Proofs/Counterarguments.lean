import DecentDebates.Counterarguments
import DecentDebates.Proofs.Rows

set_option autoImplicit false

/-! # When counterarguments form a forest

A call stores the place of at most one argument: its debate, type and draft mark, and what it
answers. The forest of the places is `Forest.IsForest`, whose rule for storing a node decides each
of the four calls that store a link. -/

namespace DecentDebates

open Relational Transition Forest

variable {db db' : Database}

/-! ## Places -/

/-- Where an argument stands. -/
structure ArgumentPlace where
  debateId : Int
  type : Option ArgumentType
  isDraft : Option Bool
  counterargumentTo : Option Int

def ArgumentRow.place (a : ArgumentRow) : ArgumentPlace :=
  ⟨a.debateId, a.type, a.isDraft, a.counterargumentTo⟩

def ArgumentPlace.Under (n m : ArgumentPlace) : Prop :=
  m.debateId = n.debateId ∧ m.isDraft ≠ some true ∧
    ∃ type, n.type = some type ∧ m.type = some type.opposite

/-- Every argument's place, under its id. -/
def Database.places (db : Database) (argumentId : Int) : Option ArgumentPlace :=
  (db.arguments.find? argumentId).map ArgumentRow.place

abbrev Database.PlacesForest (db : Database) : Prop :=
  IsForest ArgumentPlace.counterargumentTo ArgumentPlace.Under db.places

theorem mayAnswer_iff {a b : ArgumentRow} : a.MayAnswer b ↔ a.place.Under b.place :=
  ⟨fun h => ⟨h.debateId, h.isDraft, h.type⟩, fun ⟨hdebate, hdraft, htype⟩ =>
    ⟨hdebate, hdraft, htype⟩⟩

theorem places_eq_some {id : Int} {n : ArgumentPlace} :
    db.places id = some n ↔ ∃ a ∈ db.arguments.rows, a.id = id ∧ a.place = n := by
  simp only [Database.places, Option.map_eq_some_iff, SerialTable.find?_eq_some, rowId_argument,
    and_assoc]

theorem parentIn_places :
    parentIn ArgumentPlace.counterargumentTo db.places = db.counterargumentTo := by
  funext id
  unfold parentIn Database.places Database.counterargumentTo
  cases db.arguments.find? id <;> rfl

theorem counterargumentForest_iff : db.CounterargumentForest ↔ db.PlacesForest := by
  constructor
  · rintro ⟨hanswer, hends⟩
    refine ⟨fun id n p hn hp => ?_, fun id => ?_⟩
    · obtain ⟨a, ha, -, rfl⟩ := places_eq_some.1 hn
      obtain ⟨b, hb, hid, hmay⟩ := hanswer a ha p hp
      exact ⟨b.place, places_eq_some.2 ⟨b, hb, hid, rfl⟩, mayAnswer_iff.1 hmay⟩
    · rw [parentIn_places]
      cases h : db.arguments.find? id with
      | none => exact ends_of_root (by simp [Database.counterargumentTo, h])
      | some a =>
        obtain ⟨ha, rfl⟩ := SerialTable.find?_eq_some.1 h
        exact hends a ha
  · rintro ⟨hunder, hends⟩
    refine ⟨fun a ha p hp => ?_, fun a _ => ?_⟩
    · obtain ⟨m, hm, hu⟩ := hunder a.id a.place p (places_eq_some.2 ⟨a, ha, rfl, rfl⟩) hp
      obtain ⟨b, hb, hid, rfl⟩ := places_eq_some.1 hm
      exact ⟨b, hb, hid, mayAnswer_iff.2 hu⟩
    · rw [← parentIn_places]
      exact hends a.id

/-- What a payload may answer, read off the places. -/
theorem answersIn_iff {c : ArgumentColumns} {debateId : Int} {isDraft : Option Bool} :
    c.AnswersIn db debateId ↔ ∀ p, c.counterargumentTo = some p → ∃ m, db.places p = some m ∧
      ArgumentPlace.Under ⟨debateId, some c.type, isDraft, c.counterargumentTo⟩ m := by
  refine forall_congr' fun p => imp_congr_right fun _ => ?_
  constructor
  · rintro ⟨b, hb, hid, hdebate, hdraft, htype⟩
    exact ⟨b.place, places_eq_some.2 ⟨b, hb, hid, rfl⟩, hdebate, hdraft, c.type, rfl, htype⟩
  · rintro ⟨m, hm, hdebate, hdraft, type, hc, htype⟩
    obtain ⟨b, hb, hid, rfl⟩ := places_eq_some.1 hm
    cases hc
    exact ⟨b, hb, hid, hdebate, hdraft, htype⟩

/-! ## What a call does to the places -/

/-- The calls that store what an argument answers. -/
def Call.links : Call → Bool
  | .createArgument .. => true
  | .saveArgumentAsDraft .. => true
  | .updateDraft .. => true
  | .submitDraft .. => true
  | _ => false

theorem places_congr (h : db'.arguments.rows = db.arguments.rows) : db'.places = db.places := by
  funext id
  rw [Database.places, Database.places, SerialTable.find?, SerialTable.find?, h]

/-- A new title or content does not move an argument. -/
theorem places_of_place {p : ArgumentRow → Bool} {f : ArgumentRow → ArgumentRow}
    (hf : ∀ r, (f r).id = r.id) (hplace : ∀ r, (f r).place = r.place)
    (h : db'.arguments = db.arguments.updateWhere p f hf) : db'.places = db.places := by
  funext id
  rw [Database.places, h, SerialTable.find?_updateWhere _ _ _ _ hf, Option.map_map, Database.places]
  congr 1
  funext a
  simp only [Function.comp_apply]
  split
  · exact hplace a
  · rfl

theorem Effect.places_eq {c : Call} (h : Effect db c db') (hc : c.links = false) :
    db'.places = db.places := by
  cases h with
  | elsewhere _ _ _ _ harguments => exact places_congr harguments
  | createDebate title huser hticket hnext husers htickets hdebates harguments =>
    exact places_congr (congrArg SerialTable.rows harguments)
  | createArgument => cases hc
  | saveArgumentAsDraft => cases hc
  | updateDraft => cases hc
  | submitDraft => cases hc
  | updateArgument title content =>
    exact places_of_place (f := fun a => { a with title := title, content := content })
      (fun _ => rfl) (fun _ => rfl) rfl
  | _ => rfl

theorem places_insert {mk : Int → ArgumentRow} (hmk : ∀ n, (mk n).id = n)
    (h : db'.arguments = db.arguments.insert mk hmk) :
    db'.places = Function.update db.places db.arguments.next
      (some (mk db.arguments.next).place) := by
  funext id
  by_cases hid : id = db.arguments.next
  · subst hid
    rw [Database.places, h, SerialTable.find?_insert_next, Function.update_self, Option.map_some]
  · rw [Database.places, h, SerialTable.find?_insert_of_ne hid hmk, Function.update_of_ne hid]
    rfl

theorem places_updateWhere {p : ArgumentRow → Bool} {f : ArgumentRow → ArgumentRow}
    {a : ArgumentRow} (hf : ∀ r, (f r).id = r.id) (hp : ∀ r, p r = true → r.id = a.id)
    (ha : a ∈ db.arguments.rows) (hpa : p a = true)
    (h : db'.arguments = db.arguments.updateWhere p f hf) :
    db'.places = Function.update db.places a.id (some (f a).place) := by
  funext id
  rw [Database.places, h, SerialTable.find?_updateWhere _ _ _ _ hf]
  by_cases hid : id = a.id
  · subst hid
    have hfind : db.arguments.find? a.id = some a := SerialTable.find?_eq_some.2 ⟨ha, rfl⟩
    rw [Function.update_self, hfind, Option.map_some, if_pos hpa, Option.map_some]
  · rw [Function.update_of_ne hid]
    cases hfind : db.arguments.find? id with
    | none => simp [Database.places, hfind]
    | some r =>
      obtain ⟨-, hr⟩ := SerialTable.find?_eq_some.1 hfind
      have hpr : ¬ p r = true := fun hpr => hid (hr.symm.trans (hp r hpr))
      simp [Database.places, hfind, hpr]

theorem places_updateWhere_none {p : ArgumentRow → Bool} {f : ArgumentRow → ArgumentRow}
    (hf : ∀ r, (f r).id = r.id) (hp : ∀ a ∈ db.arguments.rows, ¬ p a = true)
    (h : db'.arguments = db.arguments.updateWhere p f hf) : db'.places = db.places := by
  refine places_congr ?_
  rw [h, SerialTable.rows_updateWhere]
  exact (List.map_congr_left fun a ha => if_neg (hp a ha)).trans (List.map_id _)

/-! ## One call -/

/-- A new argument answers nothing wrong. -/
theorem forest_insert_iff (h : db.PlacesForest) {mk : Int → ArgumentRow}
    (hmk : ∀ n, (mk n).id = n) (hdb' : db'.arguments = db.arguments.insert mk hmk)
    {c : ArgumentColumns} {debateId : Int} {isDraft : Option Bool}
    (hplace : (mk db.arguments.next).place
      = ⟨debateId, some c.type, isDraft, c.counterargumentTo⟩) :
    db'.PlacesForest ↔ c.AnswersIn db debateId := by
  have hfree : ∀ m, db.places db.arguments.next = some m → ∀ k, ¬ ArgumentPlace.Under k m := by
    intro m hm
    obtain ⟨a, ha, hid, -⟩ := places_eq_some.1 hm
    exact absurd hid (SerialTable.ne_next ha)
  rw [Database.PlacesForest, places_insert hmk hdb', hplace, isForest_update_leaf_iff h hfree,
    answersIn_iff]

theorem CreateArgumentData.Storable.unique {d : CreateArgumentData} {c c' : ArgumentColumns}
    {debateId debateId' : Int} (h : d.Storable db c debateId) (h' : d.Storable db c' debateId') :
    c' = c ∧ debateId' = debateId :=
  ⟨Except.ok.inj (h'.columns.symm.trans h.columns),
    Except.ok.inj (h'.debateId.symm.trans h.debateId)⟩

theorem createArgument_forest_iff (h : db.PlacesForest) (now : Timestamp)
    (d : CreateArgumentData) :
    (step db (.createArgument now d)).PlacesForest ↔ db.LinksWell (.createArgument now d) := by
  show (createArgument now d db).db.PlacesForest ↔ _
  rw [createArgument_commit]
  by_cases hstores : ∃ c debateId, d.Storable db c debateId ∧ db.tickets.next ≤ int4Max
  · obtain ⟨c, debateId, hd, hticket⟩ := hstores
    rw [Sql.commit_of_ok (createArgumentSql_eq_ok.2 ⟨debateId, c, hd.debateId, hd.columns, hticket,
      hd.sequence, hd.debate, hd.user, rfl, rfl⟩)]
    refine (forest_insert_iff h (fun _ => rfl) rfl rfl).trans ⟨fun hc c' debateId' hd' _ => ?_,
      fun hlinks => hlinks c debateId hd hticket⟩
    obtain ⟨rfl, rfl⟩ := hd.unique hd'
    exact hc
  · have hsame : ((createArgumentSql now d).commit db).2 = db := by
      refine Sql.commit_rule (P := (· = db)) rfl fun ticketId db' hok => ?_
      obtain ⟨debateId, c, hdebate, hc, hticket, hnext, hx, hu, -⟩ :=
        createArgumentSql_eq_ok.1 hok
      exact absurd ⟨c, debateId, ⟨hc, hnext, hx, hu, hdebate⟩, hticket⟩ hstores
    rw [hsame]
    exact iff_of_true h fun c debateId hd hticket => absurd ⟨c, debateId, hd, hticket⟩ hstores

theorem saveArgumentAsDraft_forest_iff (h : db.PlacesForest) (now : Timestamp)
    (d : CreateArgumentData) :
    (step db (.saveArgumentAsDraft now d)).PlacesForest ↔
      db.LinksWell (.saveArgumentAsDraft now d) := by
  show (saveArgumentAsDraft now d db).db.PlacesForest ↔ _
  rw [saveArgumentAsDraft_commit]
  by_cases hstores : ∃ c debateId, d.Storable db c debateId
  · obtain ⟨c, debateId, hd⟩ := hstores
    rw [Sql.commit_of_ok (insertArgument_eq_ok.2 ⟨debateId, c, hd.debateId, hd.columns,
      hd.sequence, hd.debate, hd.user, rfl, rfl⟩)]
    refine (forest_insert_iff h (fun _ => rfl) rfl rfl).trans ⟨fun hc c' debateId' hd' => ?_,
      fun hlinks => hlinks c debateId hd⟩
    obtain ⟨rfl, rfl⟩ := hd.unique hd'
    exact hc
  · have hsame : ((insertArgument now d none true).commit db).2 = db := by
      refine Sql.commit_rule (P := (· = db)) rfl fun id db' hok => ?_
      obtain ⟨debateId, c, hdebate, hc, hnext, hx, hu, -⟩ := insertArgument_eq_ok.1 hok
      exact absurd ⟨c, debateId, hc, hnext, hx, hu, hdebate⟩ hstores
    rw [hsame]
    exact iff_of_true h fun c debateId hd => absurd ⟨c, debateId, hd⟩ hstores

/-- An update of the argument with a given id is decided at the argument it finds, if it finds
    one. -/
theorem forest_updateWhere_iff (h : db.PlacesForest) {p : ArgumentRow → Bool}
    {f : ArgumentRow → ArgumentRow} {id : Int} {Q : ArgumentRow → Prop}
    (hf : ∀ r, (f r).id = r.id) (hp : ∀ r, p r = true → r.id = id)
    (hdb' : db'.arguments = db.arguments.updateWhere p f hf)
    (hone : ∀ a ∈ db.arguments.rows, p a = true →
      (IsForest ArgumentPlace.counterargumentTo ArgumentPlace.Under
        (Function.update db.places a.id (some (f a).place)) ↔ Q a)) :
    db'.PlacesForest ↔ ∀ a ∈ db.arguments.rows, p a = true → Q a := by
  by_cases haddressed : ∃ a ∈ db.arguments.rows, p a = true
  · obtain ⟨a, ha, hpa⟩ := haddressed
    rw [Database.PlacesForest, places_updateWhere hf (fun r hr => (hp r hr).trans (hp a hpa).symm)
      ha hpa hdb', hone a ha hpa]
    refine ⟨fun hQ b hb hpb => ?_, fun hQ => hQ a ha hpa⟩
    rwa [SerialTable.eq_of_rowId_eq hb ha ((hp b hpb).trans (hp a hpa).symm)]
  · rw [Database.PlacesForest,
      places_updateWhere_none hf (fun a ha hpa => haddressed ⟨a, ha, hpa⟩) hdb']
    exact iff_of_true h fun a ha hpa => absurd ⟨a, ha, hpa⟩ haddressed

/-- Nobody answers a draft. -/
theorem updateDraft_forest_iff (h : db.PlacesForest) (d : UpdateDraftData) :
    (step db (.updateDraft d)).PlacesForest ↔ db.LinksWell (.updateDraft d) := by
  show (updateDraft d db).db.PlacesForest ↔ _
  rw [updateDraft_commit]
  by_cases hstores : ∃ c debateId draftId, d.draftData.columns = .ok c ∧
      int4 d.debateId = .ok debateId ∧ int4 d.draftId = .ok draftId
  · obtain ⟨c, debateId, draftId, hc, hdebate, hdraft⟩ := hstores
    rw [Sql.commit_of_ok (updateDraftSql_eq_ok.2 ⟨c, debateId, draftId, hc, hdebate, hdraft, rfl,
      rfl⟩)]
    refine (forest_updateWhere_iff h (f := ArgumentRow.setColumns c)
      (Q := fun _ => c.AnswersIn db debateId) (fun _ => rfl)
      (fun r hr => (updateDraftWhere_holds.1 hr).2.2.1) rfl fun a ha hwhere => ?_).trans ?_
    · obtain ⟨hdebateId, -, -, hisDraft⟩ := updateDraftWhere_holds.1 hwhere
      have hleaf : ∀ m, db.places a.id = some m → ∀ k, ¬ ArgumentPlace.Under k m := by
        rintro m hm k ⟨-, hnotDraft, -⟩
        obtain ⟨b, hb, hba, rfl⟩ := places_eq_some.1 hm
        cases SerialTable.eq_of_rowId_eq hb ha hba
        exact hnotDraft hisDraft
      rw [isForest_update_leaf_iff h hleaf]
      exact hdebateId ▸ answersIn_iff.symm
    · refine ⟨fun hlinks c' debateId' draftId' hc' hdebate' hdraft' => ?_,
        fun hlinks => hlinks c debateId draftId hc hdebate hdraft⟩
      cases hc.symm.trans hc'
      cases hdebate.symm.trans hdebate'
      cases hdraft.symm.trans hdraft'
      exact hlinks
  · have hsame : ((updateDraftSql d).commit db).2 = db := by
      refine Sql.commit_rule (P := (· = db)) rfl fun n db' hok => ?_
      obtain ⟨c, debateId, draftId, hc, hdebate, hdraft, -⟩ := updateDraftSql_eq_ok.1 hok
      exact absurd ⟨c, debateId, draftId, hc, hdebate, hdraft⟩ hstores
    rw [hsame]
    exact iff_of_true h fun c debateId draftId hc hdebate hdraft =>
      absurd ⟨c, debateId, draftId, hc, hdebate, hdraft⟩ hstores

theorem opposite_opposite (type : ArgumentType) : type.opposite.opposite = type := by
  cases type <;> rfl

theorem opposite_ne (type : ArgumentType) : type.opposite ≠ type := by
  cases type <;> decide

/-- A submitted argument is no draft, so it may have counterarguments: it keeps them if they stay on
    the other side. -/
theorem forest_submit_iff (h : db.PlacesForest) {c : ArgumentColumns} {ticketId debateId : Int}
    {a : ArgumentRow} (ha : a ∈ db.arguments.rows) (hdebate : a.debateId = debateId) :
    IsForest ArgumentPlace.counterargumentTo ArgumentPlace.Under
      (Function.update db.places a.id (some (a.submit c ticketId).place)) ↔
      c.AnswersIn db debateId ∧
      (∀ p, c.counterargumentTo = some p → ¬ Above db.counterargumentTo a.id p) ∧
      ∀ b ∈ db.arguments.rows, b.counterargumentTo = some a.id →
        b.type = some c.type.opposite := by
  have hplaceOf : ∀ b ∈ db.arguments.rows, b.counterargumentTo = some a.id →
      b.place.Under a.place := by
    intro b hb hcounter
    obtain ⟨m, hm, hu⟩ := h.under b.id b.place a.id (places_eq_some.2 ⟨b, hb, rfl, rfl⟩) hcounter
    obtain ⟨a', ha', hid, rfl⟩ := places_eq_some.1 hm
    rwa [SerialTable.eq_of_rowId_eq ha' ha hid] at hu
  rw [isForest_update_iff h, parentIn_places]
  constructor
  · rintro ⟨hnew, hchildren⟩
    refine ⟨hdebate ▸ answersIn_iff.2 fun p hp => (hnew p hp).1, fun p hp => (hnew p hp).2,
      fun b hb hcounter => ?_⟩
    have hba : b.id ≠ a.id := by
      intro he
      cases SerialTable.eq_of_rowId_eq hb ha he
      obtain ⟨-, -, type, htype, hopposite⟩ := hplaceOf _ ha hcounter
      exact opposite_ne type (Option.some.inj (hopposite.symm.trans htype))
    obtain ⟨-, -, type, htype, hopposite⟩ := hchildren b.id b.place hba
      (places_eq_some.2 ⟨b, hb, rfl, rfl⟩) hcounter
    have hc : c.type = type.opposite := Option.some.inj hopposite
    rw [hc, opposite_opposite]
    exact htype
  · rintro ⟨hanswers, habove, hchildren⟩
    refine ⟨fun p hp => ⟨answersIn_iff.1 (hdebate ▸ hanswers) p hp, habove p hp⟩,
      fun j m _ hm hcounter => ?_⟩
    obtain ⟨b, hb, rfl, rfl⟩ := places_eq_some.1 hm
    exact ⟨(hplaceOf b hb hcounter).1, nofun, c.type.opposite, hchildren b hb hcounter,
      congrArg some (opposite_opposite c.type).symm⟩

theorem submitDraft_forest_iff (h : db.PlacesForest) (d : SubmitDraftData) :
    (step db (.submitDraft d)).PlacesForest ↔ db.LinksWell (.submitDraft d) := by
  show (submitDraft d db).db.PlacesForest ↔ _
  rw [submitDraft_commit]
  by_cases hstores : ∃ c draftId debateId, d.Storable db c draftId debateId
  · obtain ⟨c, draftId, debateId, hd⟩ := hstores
    have hok : submitDraftSql d db = .ok ((), db.submitted d.user.id c draftId debateId) :=
      submitDraftSql_eq_ok.2 ⟨c, draftId, debateId, hd, rfl⟩
    rw [Sql.commit_of_ok hok]
    refine (forest_updateWhere_iff h (f := ArgumentRow.submit c db.tickets.next) (fun _ => rfl)
      (fun r hr => (submitDraftWhere_holds.1 hr).1) rfl fun a ha hwhere =>
        forest_submit_iff h ha (submitDraftWhere_holds.1 hwhere).2.1).trans ?_
    refine ⟨fun hlinks c' draftId' debateId' hd' => ?_, fun hlinks => hlinks c draftId debateId hd⟩
    cases hd.columns.symm.trans hd'.columns
    cases hd.draftId.symm.trans hd'.draftId
    cases hd.debateId.symm.trans hd'.debateId
    exact hlinks
  · have hsame : ((submitDraftSql d).commit db).2 = db := by
      refine Sql.commit_rule (P := (· = db)) rfl fun _ db' hok => ?_
      obtain ⟨c, draftId, debateId, hd, -⟩ := submitDraftSql_eq_ok.1 hok
      exact absurd ⟨c, draftId, debateId, hd⟩ hstores
    rw [hsame]
    exact iff_of_true h fun c draftId debateId hd => absurd ⟨c, draftId, debateId, hd⟩ hstores

/-! ## Every run -/

/-- A call keeps the forest exactly if it links well. -/
theorem forest_step_iff (db : Database) (c : Call) (h : db.CounterargumentForest) :
    (step db c).CounterargumentForest ↔ db.LinksWell c := by
  rw [counterargumentForest_iff] at h ⊢
  cases c with
  | createArgument now d => exact createArgument_forest_iff h now d
  | saveArgumentAsDraft now d => exact saveArgumentAsDraft_forest_iff h now d
  | updateDraft d => exact updateDraft_forest_iff h d
  | submitDraft d => exact submitDraft_forest_iff h d
  | _ =>
    refine iff_of_true ?_ trivial
    rw [Database.PlacesForest, (step_effect db _).places_eq rfl]
    exact h

theorem counterargumentForest_empty (lower : String → String) :
    (Database.empty lower).CounterargumentForest :=
  ⟨fun _ ha => (nomatch ha), fun _ ha => (nomatch ha)⟩

/-- **Counterarguments form a forest exactly as long as the payloads say so**: in every run, every
    state has the forest if and only if every call links well. -/
theorem counterargument_forest_iff (lower : String → String) (calls : List Call) :
    (∀ db ∈ states step (.empty lower) calls, db.CounterargumentForest) ↔
      ∀ p ∈ steps step (.empty lower) calls, p.1.LinksWell p.2 :=
  states_iff_steps (J := fun _ => True) (fun _ _ _ => trivial)
    (fun db c _ h => forest_step_iff db c h) trivial (counterargumentForest_empty lower) calls

/-- The user's draft is told to answer itself. -/
def answersItself : List Call :=
  createUsers ++ [proposeDebate,
    .saveArgumentAsDraft 2 ⟨testUser, .int 1, sampleArgument "Draft"⟩,
    .updateDraft ⟨testUser, .int 1, .int 1, sampleArgument "Draft" (some (.int 1))⟩]

/-- An argument in answer to one that does not exist. -/
def answersNothing : List Call :=
  createUsers ++ [proposeDebate,
    .createArgument 2 ⟨testUser, .int 1, sampleArgument "Argument" (some (.int 7))⟩]

/-- **The services store both.** -/
theorem not_counterargumentForest :
    (∃ a ∈ (run step (.empty id) answersItself).arguments.rows,
      ¬ Ends (run step (.empty id) answersItself).counterargumentTo a.id) ∧
    ∃ a ∈ (run step (.empty id) answersNothing).arguments.rows,
      a.counterargumentTo = some 7 ∧
        ∀ b ∈ (run step (.empty id) answersNothing).arguments.rows, b.id ≠ 7 := by
  constructor
  · refine ⟨⟨1, 1, none, "Draft", "Because.", some 1, 1, 2, some .pro, some true⟩,
      by decide +kernel, ?_⟩
    have hself : (run step (.empty id) answersItself).counterargumentTo 1 = some 1 := by
      decide +kernel
    exact not_ends (S := (· = 1)) (fun i hi => ⟨1, hi ▸ hself, rfl⟩) rfl
  · decide +kernel

end DecentDebates

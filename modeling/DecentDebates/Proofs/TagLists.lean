import DecentDebates.TagLists
import DecentDebates.Proofs.Findability

set_option autoImplicit false

/-! # Tag lists between the server and its clients: proofs

Splitting undoes joining exactly when no part contains the separator. Ids never do, and all five
endpoints decode the one row that `debates_tags` has for the debate, so what they show depends on
the names only. -/

namespace DecentDebates

open Relational Transition

/-! ## Separated lists -/

section Separated

variable {α : Type} [BEq α] [LawfulBEq α]

/-- No piece of a split contains the separator. -/
theorem not_mem_of_mem_splitOn {x : α} {xs piece : List α} (h : piece ∈ xs.splitOn x) :
    x ∉ piece := by
  induction xs generalizing piece with
  | nil =>
    rw [List.splitOn_nil, List.mem_singleton] at h
    rw [h]
    exact List.not_mem_nil
  | cons y ys ih =>
    rw [List.splitOn_cons_eq_if_modifyHead] at h
    split at h
    · rcases List.mem_cons.1 h with rfl | h
      · exact List.not_mem_nil
      · exact ih h
    · next hne =>
      cases hpieces : ys.splitOn x with
      | nil => exact absurd hpieces (List.splitOn_ne_nil x ys)
      | cons p ps =>
        rw [hpieces, List.modifyHead_cons] at h
        rcases List.mem_cons.1 h with rfl | h
        · intro hmem
          rcases List.mem_cons.1 hmem with rfl | hmem
          · exact hne (beq_self_eq_true x)
          · exact ih (hpieces ▸ List.mem_cons_self ..) hmem
        · exact ih (hpieces ▸ List.mem_cons_of_mem _ h)

theorem splitOn_intercalate_eq_self_iff {x : α} {parts : List (List α)} (hne : parts ≠ []) :
    ([x].intercalate parts).splitOn x = parts ↔ ∀ part ∈ parts, x ∉ part := by
  constructor
  · intro h part hpart
    rw [← h] at hpart
    exact not_mem_of_mem_splitOn hpart
  · intro h
    exact List.splitOn_intercalate x h hne

end Separated

/-- What splitting a text by commas gives when the text is made by joining. -/
theorem splitCommas_stringAgg_iff {parts : List String} (hne : parts ≠ []) :
    splitCommas (stringAgg parts) = parts ↔ ∀ part ∈ parts, ',' ∉ part.toList := by
  have hjoin : (stringAgg parts).toList = [','].intercalate (parts.map String.toList) :=
    String.toList_intercalate
  have hiff : (stringAgg parts).toList.splitOn ',' = parts.map String.toList ↔
      ∀ part ∈ parts, ',' ∉ part.toList := by
    rw [hjoin, splitOn_intercalate_eq_self_iff (by simpa using hne), List.forall_mem_map]
  rw [← hiff]
  unfold splitCommas
  constructor
  · intro h
    rw [← h, List.map_map]
    simp [Function.comp_def, h]
  · intro h
    rw [h, List.map_map]
    simp [Function.comp_def]

/-! ## Texts of ids -/

theorem toList_toString_ofNat (m : Nat) : (toString (Int.ofNat m)).toList = Nat.toDigits 10 m :=
  Nat.toList_repr

theorem toList_toString_negSucc (m : Nat) :
    (toString (Int.negSucc m)).toList = '-' :: Nat.toDigits 10 (m + 1) := by
  have htext : toString (Int.negSucc m) = "-" ++ Nat.repr (m + 1) := rfl
  rw [htext, String.toList_append, Nat.toList_repr]
  rfl

theorem isDigit_of_mem_toDigits {m : Nat} {c : Char} (h : c ∈ Nat.toDigits 10 m) : c.isDigit :=
  Nat.isDigit_of_mem_toDigits (by decide) (by decide) h

theorem mem_toString {n : Int} {c : Char} (h : c ∈ (toString n).toList) : c = '-' ∨ c.isDigit := by
  cases n with
  | ofNat m =>
    rw [toList_toString_ofNat] at h
    exact Or.inr (isDigit_of_mem_toDigits h)
  | negSucc m =>
    rw [toList_toString_negSucc] at h
    exact (List.mem_cons.1 h).imp_right isDigit_of_mem_toDigits

theorem comma_not_mem_toString (n : Int) : ',' ∉ (toString n).toList := by
  intro h
  rcases mem_toString h with h | h <;> exact absurd h (by decide)

/-! ## Decoding one row -/

/-- The names decide whether the tags are decoded as they are. -/
theorem zipTags_stringAgg_iff {gs : List DebateTagRow} (hne : gs ≠ []) :
    zipTags (stringAgg (gs.map DebateTagRow.name)) (stringAgg (gs.map fun g => toString g.id)) =
        gs.map (fun g => ⟨some (toString g.id), g.name⟩) ↔
      ∀ g ∈ gs, ',' ∉ g.name.toList := by
  have hids : splitCommas (stringAgg (gs.map fun g => toString g.id)) =
      gs.map fun g => toString g.id := by
    rw [splitCommas_stringAgg_iff (by simpa using hne), List.forall_mem_map]
    exact fun g _ => comma_not_mem_toString g.id
  have hnames : splitCommas (stringAgg (gs.map DebateTagRow.name)) = gs.map DebateTagRow.name ↔
      ∀ g ∈ gs, ',' ∉ g.name.toList := by
    rw [splitCommas_stringAgg_iff (by simpa using hne), List.forall_mem_map]
  rw [← hnames]
  simp only [zipTags, hids]
  constructor
  · intro h
    refine List.ext_getElem? fun i => ?_
    have hpiece := congrArg (fun tags => (tags[i]?).map DebateTag.name) h
    simpa [Function.comp_def] using hpiece
  · intro h
    rw [h]
    refine List.ext_getElem? fun i => ?_
    simp only [List.getElem?_mapIdx, List.getElem?_map]
    cases gs[i]? <;> rfl

variable {db : Database} {d : DebateRow}

/-- The row of `debates_tags` for the debate. -/
theorem debateTagsRow_of_mem (hd : d ∈ db.debates.rows) {dts : DebatesTags}
    (hdts : dts ∈ debatesTags db) (hid : dts.debateId = d.id) : db.debateTagsRow d = some dts := by
  obtain ⟨d', hd', hrow⟩ := mem_debatesTags.1 hdts
  have hsame : d' = d :=
    SerialTable.eq_of_rowId_eq hd' hd ((debateTagsRow_debateId hrow).symm.trans hid)
  rw [← hsame]
  exact hrow

theorem zipTags_debateTagsRow_iff {dts : DebatesTags} (h : db.debateTagsRow d = some dts) :
    zipTags dts.tags dts.tagsIds = db.tagPairs d ↔ ∀ g ∈ db.tagsOf d, ',' ∉ g.name.toList := by
  unfold Database.debateTagsRow at h
  split at h
  · cases h
  · next tags hne =>
    cases h
    exact zipTags_stringAgg_iff hne

/-! ## The five endpoints -/

/-- What a successful call of the service selects. -/
theorem getAll_ok {filters : Option Filters} {debates : List Debate}
    (h : getAll filters db = .ok debates) : ∃ filter, debates = selectDebates db filter := by
  unfold getAll at h
  split at h
  · exact ⟨_, (Except.ok.inj h).symm⟩
  · split at h
    · cases h
    · cases h
    · exact ⟨_, (Except.ok.inj h).symm⟩

theorem tags_of_getAll {filters : Except ServiceError (Option Filters)}
    {debates : List ListedDebate} {debate : ListedDebate}
    (answer : DebatesController.getAll filters db = .ok debates) (mem : debate ∈ debates) :
    ∃ dts ∈ debatesTags db, dts.debateId = debate.id ∧
      debate.tags = zipTags dts.tags dts.tagsIds := by
  unfold DebatesController.getAll at answer
  split at answer
  · next e => cases e <;> cases answer
  · split at answer
    · next e _ => cases e <;> cases answer
    · next raws hraws =>
      obtain ⟨filter, rfl⟩ := getAll_ok hraws
      obtain rfl := HttpResponse.ok.inj answer
      obtain ⟨raw, hraw, rfl⟩ := List.mem_map.1 mem
      obtain ⟨⟨⟨⟨d, t⟩, u⟩, dts⟩, hrow, rfl⟩ := List.mem_map.1 hraw
      obtain ⟨-, hdts, hid⟩ := mem_innerJoin.1 (mem_selectWhere.1 hrow).1
      exact ⟨dts, hdts, (show d.id = dts.debateId by simpa using hid).symm, rfl⟩

/-- The row of `debates_tags` in a row of `proposedDebates`. -/
theorem mem_proposedDebates {d : DebateRow} {t : Option TicketRow} {dts : DebatesTags}
    {u : Option UserRow} (h : (((d, t), dts), u) ∈ proposedDebates db) :
    dts ∈ debatesTags db ∧ dts.debateId = d.id := by
  obtain ⟨-, hdts, hid⟩ := mem_innerJoin.1 (mem_of_mem_leftJoin h)
  exact ⟨hdts, by simpa [eq_comm] using hid⟩

theorem tags_of_userActivity {user : UserCookieData} {cards : List UserCard}
    {card : UserDebateCard} (answer : UserController.getActivity user db = .ok cards)
    (mem : .debate card ∈ cards) :
    ∃ dts ∈ debatesTags db, dts.debateId = card.debateId ∧
      card.tags = zipTags dts.tags dts.tagsIds := by
  obtain rfl := HttpResponse.ok.inj answer
  rcases List.mem_append.1 mem with mem | mem
  · obtain ⟨a, -, h⟩ := List.mem_map.1 mem
    cases h
  · obtain ⟨raw, hraw, h⟩ := List.mem_map.1 mem
    obtain rfl := UserCard.debate.inj h
    obtain ⟨⟨⟨⟨d, t⟩, dts⟩, u⟩, hrow, rfl⟩ := List.mem_map.1 hraw
    obtain ⟨hrow, -⟩ := mem_selectWhere.1 (List.mem_mergeSort.1 hrow)
    obtain ⟨hdts, hid⟩ := mem_proposedDebates hrow
    exact ⟨dts, hdts, hid, rfl⟩

/-- Every result of a list of computations is the result of one of them. -/
theorem exists_of_mem_mapM {ε α β : Type} {f : α → Except ε β} {xs : List α} {ys : List β}
    (h : xs.mapM f = .ok ys) {y : β} (hy : y ∈ ys) : ∃ x ∈ xs, f x = .ok y := by
  rw [mapM_eq_ok] at h
  induction h with
  | nil => exact absurd hy List.not_mem_nil
  | @cons x y' xs _ hx _ ih =>
    rcases List.mem_cons.1 hy with rfl | hy
    · exact ⟨x, List.mem_cons_self .., hx⟩
    · obtain ⟨x', hx', hfx⟩ := ih hy
      exact ⟨x', List.mem_cons_of_mem _ hx', hfx⟩

/-- The cards of the stream that the boards are made of. -/
theorem moderatorActivity_ok {lists : List BoardCards}
    (answer : ModeratorController.getActivity db = .ok lists) :
    ∃ (cards : List ModeratorCard) (args : List ModeratorActivityArgument),
      (leftJoin boardListTypes (proposedDebates db) onBoardList).mapM
          (fun row => ModeratorCard.ofDebate (.ofRow row)) = .ok cards ∧
        lists = groupCards (cards ++ args.map ModeratorCard.argument) := by
  unfold ModeratorController.getActivity at answer
  simp only at answer
  split at answer
  · next e _ => cases e <;> cases answer
  · next stream hstream =>
    obtain rfl := HttpResponse.ok.inj answer
    obtain ⟨rows, hrows, hdecoded⟩ := except_bind_eq_ok.1 hstream
    obtain ⟨cards, hcards, hjoined⟩ := except_bind_eq_ok.1 hdecoded
    obtain ⟨args, -, hlast⟩ := except_bind_eq_ok.1 hjoined
    obtain rfl := Except.ok.inj hrows
    obtain rfl := Except.ok.inj hlast
    rw [List.mapM_map] at hcards
    exact ⟨cards, args, hcards, rfl⟩

theorem tags_of_moderatorActivity {lists : List BoardCards} {list : BoardCards}
    {card : ModeratorDebateCard} (answer : ModeratorController.getActivity db = .ok lists)
    (board : list ∈ lists) (mem : .debate card ∈ list.cards) :
    ∃ dts ∈ debatesTags db, some dts.debateId = card.debateId ∧
      card.tags = zipTags dts.tags dts.tagsIds := by
  obtain ⟨cards, args, hcards, rfl⟩ := moderatorActivity_ok answer
  obtain ⟨boardList, -, rfl⟩ := List.mem_map.1 board
  rcases List.mem_append.1 (List.mem_of_mem_filter (List.mem_of_mem_filter mem)) with mem | mem
  · obtain ⟨⟨boardList, _ | ⟨⟨⟨d, t⟩, dts⟩, u⟩⟩, hrow, hdebate⟩ := exists_of_mem_mapM hcards mem
    · cases hdebate
    · obtain ⟨hdts, hid⟩ := mem_proposedDebates (mem_leftJoin_some hrow).2.1
      unfold ModeratorCard.ofDebate at hdebate
      split at hdebate
      · cases hdebate
      · cases hdebate
        exact ⟨dts, hdts, congrArg some hid, rfl⟩
  · obtain ⟨a, -, h⟩ := List.mem_map.1 mem
    cases h

theorem answerTicket_eq_ok {α β : Type} {decode : α → β} {res : Except ServiceError (Option α)}
    {data : β} :
    ReviewController.answerTicket decode res = .ok data ↔
      ∃ raw, res = .ok (some raw) ∧ decode raw = data := by
  unfold ReviewController.answerTicket
  split
  · next e => cases e <;> simp [HttpResponse.ofError]
  · simp [HttpResponse.ofError]
  · simp

/-- A review page is answered from a row of its query. -/
theorem row_of_review {α β γ : Type} {ticketId : JsNumber} {e : ServiceError}
    {service : Except ServiceError (Option α)} {W : Int → β → Truth} {base : List β}
    {ofRow : β → α} {decode : α → γ} {data : γ}
    (hservice : service = ((int4 ticketId).mapError fun _ => e).map fun k =>
      ((selectWhere (W k) base).map ofRow).head?)
    (answer : ReviewController.answerTicket decode service = .ok data) :
    ∃ x ∈ base, decode (ofRow x) = data := by
  obtain ⟨raw, hraw, rfl⟩ := answerTicket_eq_ok.1 answer
  rw [hservice] at hraw
  cases hid : int4 ticketId with
  | error _ =>
    rw [hid] at hraw
    cases hraw
  | ok k =>
    rw [hid] at hraw
    obtain ⟨x, hx, rfl⟩ := List.mem_map.1 (List.mem_of_mem_head? (Except.ok.inj hraw))
    exact ⟨x, (mem_selectWhere.1 hx).1, rfl⟩

theorem getDebateAsModerator_eq (user : UserCookieData) (ticketId : JsNumber) (db : Database) :
    getDebateAsModerator user ticketId db =
      ((int4 ticketId).mapError fun _ => .error "An error occurred while fetching the debate.").map
        fun k => ((selectWhere (debateAsModeratorWhere k user.id) (debatesAsModerator db)).map
          RawDebateAsModerator.ofRow).head? := by
  unfold getDebateAsModerator
  cases int4 ticketId <;> rfl

theorem getDebateAsUser_eq (user : UserCookieData) (ticketId : JsNumber) (db : Database) :
    getDebateAsUser user ticketId db =
      ((int4 ticketId).mapError fun _ => .error "An error occurred while fetching the debate.").map
        fun k => ((selectWhere (debateAsUserWhere k user.id) (debatesAsUser db)).map
          RawDebateAsUser.ofRow).head? := by
  unfold getDebateAsUser
  cases int4 ticketId <;> rfl

theorem tags_of_reviewAsModerator {user : UserCookieData} {ticketId : String}
    {debate : DebateAsModerator}
    (answer : ReviewController.getDebateAsModerator user ticketId db = .ok debate) :
    ∃ dts ∈ debatesTags db, dts.debateId = debate.id ∧
      debate.debateTags = zipTags dts.tags dts.tagsIds := by
  unfold ReviewController.getDebateAsModerator at answer
  split at answer
  · cases answer
  · next id _ =>
    obtain ⟨⟨⟨⟨d, u⟩, dts⟩, t⟩, hrow, rfl⟩ := row_of_review
      (getDebateAsModerator_eq user id db) answer
    obtain ⟨hrow, -⟩ := mem_innerJoin.1 hrow
    obtain ⟨-, hdts, hid⟩ := mem_innerJoin.1 hrow
    exact ⟨dts, hdts, (show dts.debateId = d.id by simpa using hid), rfl⟩

theorem tags_of_reviewAsUser {user : UserCookieData} {ticketId : String} {debate : DebateAsUser}
    (answer : ReviewController.getDebateAsUser user ticketId db = .ok debate) :
    ∃ dts ∈ debatesTags db, dts.debateId = debate.id ∧
      debate.tags = zipTags dts.tags dts.tagsIds := by
  unfold ReviewController.getDebateAsUser at answer
  split at answer
  · cases answer
  · next id _ =>
    obtain ⟨⟨⟨⟨d, dts⟩, t⟩, u⟩, hrow, rfl⟩ := row_of_review (getDebateAsUser_eq user id db) answer
    obtain ⟨hrow, -⟩ := mem_innerJoin.1 (mem_of_mem_leftJoin hrow)
    obtain ⟨-, hdts, hid⟩ := mem_innerJoin.1 hrow
    exact ⟨dts, hdts, (show dts.debateId = d.id by simpa using hid), rfl⟩

/-- Every endpoint decodes the row that `debates_tags` has for the debate. -/
theorem Database.Shows.zipTags {tags : List DebateTag} (h : db.Shows d tags) :
    ∃ dts ∈ debatesTags db, dts.debateId = d.id ∧ tags = zipTags dts.tags dts.tagsIds := by
  cases h with
  | debates answer mem id =>
    obtain ⟨dts, hdts, hid, htags⟩ := tags_of_getAll answer mem
    exact ⟨dts, hdts, hid.trans id, htags⟩
  | moderatorActivity answer board mem id =>
    obtain ⟨dts, hdts, hid, htags⟩ := tags_of_moderatorActivity answer board mem
    exact ⟨dts, hdts, Option.some.inj (hid.trans id), htags⟩
  | userActivity answer mem id =>
    obtain ⟨dts, hdts, hid, htags⟩ := tags_of_userActivity answer mem
    exact ⟨dts, hdts, hid.trans id, htags⟩
  | reviewAsModerator answer id =>
    obtain ⟨dts, hdts, hid, htags⟩ := tags_of_reviewAsModerator answer
    exact ⟨dts, hdts, hid.trans id, htags⟩
  | reviewAsUser answer id =>
    obtain ⟨dts, hdts, hid, htags⟩ := tags_of_reviewAsUser answer
    exact ⟨dts, hdts, hid.trans id, htags⟩

/-- The author of a proposal is shown its tags, if it has any. -/
theorem exists_shows (h : db.Reachable) (hd : d ∈ db.debates.rows) (htags : db.tagsOf d ≠ []) :
    ∃ tags, db.Shows d tags := by
  obtain ⟨t, ht, hid, -⟩ := h.linked.owner (.debate d) (mem_submissions_debate.2 hd) d.ticketId rfl
  have hfind : db.tickets.find? d.ticketId = some t := SerialTable.find?_eq_some.2 ⟨ht, hid⟩
  have hrow : db.debateTagsRow d ≠ none := by
    unfold Database.debateTagsRow
    cases hgs : db.tagsOf d with
    | nil => exact absurd hgs htags
    | cons g gs => simp
  obtain ⟨dts, hdts⟩ := Option.ne_none_iff_exists'.1 hrow
  have huser : (⟨t.createdBy, none, ""⟩ : UserCookieData).id = t.createdBy := rfl
  obtain ⟨debates, hdebates, hcount⟩ := getActivityDebates_once hd hfind huser hdts
  obtain ⟨raw, hraw, hrawId⟩ := List.countP_pos_iff.1 (hcount ▸ Nat.one_pos)
  have hcard : UserCard.debate (.ofRaw raw) ∈
      debates.map fun rawDebate => .debate (.ofRaw rawDebate) := List.mem_map.2 ⟨raw, hraw, rfl⟩
  obtain rfl := Except.ok.inj hdebates
  exact ⟨_, .userActivity rfl (List.mem_append_right _ hcard) (of_decide_eq_true hrawId)⟩

/-- **Tag lists.** The tags of a debate arrive as they are exactly when no name has a comma. -/
theorem tag_lists_survive_iff (h : db.Reachable) (hd : d ∈ db.debates.rows)
    (htags : db.tagsOf d ≠ []) :
    (∀ tags, db.Shows d tags → tags = db.tagPairs d) ↔
      ∀ g ∈ db.tagsOf d, ',' ∉ g.name.toList := by
  have hdecoded {tags : List DebateTag} (hshows : db.Shows d tags) :
      tags = db.tagPairs d ↔ ∀ g ∈ db.tagsOf d, ',' ∉ g.name.toList := by
    obtain ⟨dts, hdts, hid, rfl⟩ := hshows.zipTags
    exact zipTags_debateTagsRow_iff (debateTagsRow_of_mem hd hdts hid)
  obtain ⟨tags, hshows⟩ := exists_shows h hd htags
  constructor
  · intro hall
    exact (hdecoded hshows).1 (hall tags hshows)
  · intro hcomma tags hshows
    exact (hdecoded hshows).2 hcomma

/-- The user proposes debate 1 with new tags. -/
def proposeTagged (names : List String) : Database :=
  run step (Database.empty id)
    (createUsers ++ [.createDebate 1 testUser ⟨"Vaccines", [], some names⟩])

theorem proposeTagged_eq (names : List String) : proposeTagged names =
    run step (Database.withUsers id) [.createDebate 1 testUser ⟨"Vaccines", [], some names⟩] :=
  run_createUsers_append id _

def vaccines : DebateRow := ⟨1, 1, "Vaccines", 1, 1, 1⟩

/-- Spaces and empty names are kept. -/
theorem tag_lists_survive_sample :
    (proposeTagged ["public health", ""]).tagPairs vaccines =
        [⟨some "1", "public health"⟩, ⟨some "2", ""⟩] ∧
      ∀ tags, (proposeTagged ["public health", ""]).Shows vaccines tags →
        tags = (proposeTagged ["public health", ""]).tagPairs vaccines := by
  have hreach : (proposeTagged ["public health", ""]).Reachable := Database.reachable_run id _
  rw [proposeTagged_eq] at hreach ⊢
  exact ⟨by decide +kernel, (tag_lists_survive_iff hreach (by decide +kernel)
    (by decide +kernel)).2 (by decide +kernel)⟩

/-- A name with a comma is shown as two tags, and the second has no id. -/
theorem comma_splits_name :
    ¬ ∀ (db : Database) (d : DebateRow), db.Reachable → d ∈ db.debates.rows → db.tagsOf d ≠ [] →
      ∀ tags, db.Shows d tags → tags = db.tagPairs d := by
  intro h
  have hreach : (proposeTagged ["law, order"]).Reachable := Database.reachable_run id _
  rw [proposeTagged_eq] at hreach
  have hanswer : ReviewController.getDebateAsUser testUser "1" (run step (Database.withUsers id)
      [.createDebate 1 testUser ⟨"Vaccines", [], some ["law, order"]⟩]) =
      .ok ⟨1, "Vaccines", 1, 1, none, none, some .pending, 1, none, 1,
        [⟨some "1", "law"⟩, ⟨none, " order"⟩]⟩ := by decide +kernel
  have htags := h _ vaccines hreach (by decide +kernel) (by decide +kernel) _
    (.reviewAsUser hanswer rfl)
  exact absurd htags (by decide +kernel)

end DecentDebates

import DecentDebates.DebateLookup
import DecentDebates.Proofs.Numbers
import DecentDebates.Proofs.Linkage
import DecentDebates.Proofs.TagLists

set_option autoImplicit false

/-! # Looking up one debate: proofs

A path parameter is read as the id it denotes or as no id. For an id every row of the query carries
the title of the debate, so the fold either fails at its first row or keeps all rows but the
last. -/

namespace DecentDebates

open Relational Transition

variable {db : Database}

/-! ## The path parameter -/

theorem numericString_toString (n : Int) :
    numericString (toString n) = some (decide (n < 0), Nat.toDigits 10 n.natAbs) := by
  have hdigits (m : Nat) : Nat.toDigits 10 m ≠ [] ∧ (Nat.toDigits 10 m).all Char.isDigit = true :=
    ⟨Nat.toDigits_ne_nil, Json.all_isDigit_toDigits m⟩
  unfold numericString
  cases n with
  | ofNat m =>
    rw [toList_toString_ofNat]
    split
    next negative digits hsign =>
      split at hsign
      · next rest heq =>
        have hall := List.all_eq_true.1 (hdigits m).2
        exact absurd (hall '-' (heq ▸ List.mem_cons_self ..)) (by decide)
      · cases hsign
        rw [if_pos (hdigits m)]
        rfl
  | negSucc m =>
    have hneg : decide (Int.negSucc m < 0) = true := decide_eq_true (Int.negSucc_lt_zero m)
    rw [toList_toString_negSucc, hneg]
    exact if_pos (c := _ ∧ _) (hdigits (m + 1))

theorem le_doubleOverflow : 2 ^ 52 ≤ doubleOverflow := by
  have hle (k : Nat) : 2 ^ 52 ≤ 2 ^ (k + 54) - 2 ^ k := by
    have hpos := Nat.two_pow_pos k
    rw [Nat.pow_add]
    omega
  have h := hle 970
  rwa [show 970 + 54 = 1024 from rfl] at h

/-- An integer in the path is read as the id that it denotes, or as none. -/
theorem parseIntPipe_toString (n : Int) :
    (parseIntPipe (toString n) = none ∧ ¬ IsInt4 n) ∨
      ∃ x, parseIntPipe (toString n) = some x ∧ ∀ k, int4 x = .ok k ↔ k = n ∧ IsInt4 k := by
  have hsign : (if decide (n < 0) then -(n.natAbs : Int) else n.natAbs) = n := by
    simp only [decide_eq_true_eq]
    split <;> omega
  have hparse : parseIntPipe (toString n) = if doubleOverflow ≤ n.natAbs then none
      else some (.ofRational (decide (n < 0)) n.natAbs 1) := by
    simp only [parseIntPipe, numericString_toString, Option.bind_eq_bind, Option.bind_some,
      digitsValue_toDigits]
    rfl
  rw [hparse]
  split
  · next h =>
    refine Or.inl ⟨rfl, fun hint => ?_⟩
    rw [← hsign] at hint
    exact not_isInt4_of_le (le_doubleOverflow.trans h) _ hint
  · refine Or.inr ⟨_, rfl, fun k => ?_⟩
    rw [int4_ofRational, hsign]

/-! ## The fold -/

/-- Rows of arguments are all kept. -/
theorem foldlM_getDebatesReducer_eq {rows : List DebateArgument} {title : String}
    (hne : title ≠ "") (h : ∀ r ∈ rows, r.debateTitle = some title ∧
      ∃ k, r.argumentId = some k ∧ k ≠ 0) (acc : DebateBody) :
    ∃ metadata, rows.foldlM getDebatesReducer acc =
      .ok ⟨metadata, acc.args ++ rows.map DebateArgument.argData⟩ := by
  induction rows generalizing acc with
  | nil => exact ⟨acc.metadata, by simp [pure, Except.pure]⟩
  | cons r rows ih =>
    obtain ⟨⟨htitle, k, hk, hk0⟩, hrows⟩ := List.forall_mem_cons.1 h
    have hstep : getDebatesReducer acc r =
        .ok ⟨some ⟨r.debateId, title⟩, acc.args ++ [r.argData]⟩ := by
      unfold getDebatesReducer
      rw [htitle, hk, Option.filter_some_pos (by simpa using hne),
        Option.filter_some_pos (by simpa using hk0)]
      rfl
    obtain ⟨metadata, hrest⟩ := ih hrows ⟨some ⟨r.debateId, title⟩, acc.args ++ [r.argData]⟩
    refine ⟨metadata, ?_⟩
    rw [List.foldlM_cons, hstep]
    refine hrest.trans ?_
    rw [List.map_cons, List.append_assoc, List.singleton_append]

/-- Of rows that all carry the title of the debate, the last one gives the metadata and no
    argument. -/
theorem getDebates_eq {rows : List DebateArgument} {title : String} (debateId : Int)
    (hne : title ≠ "") (h : ∀ r ∈ rows, r.debateTitle = some title ∧
      ∃ k, r.argumentId = some k ∧ k ≠ 0) :
    getDebates (rows ++ [.sentinel debateId (some title)]) =
      .ok ⟨some ⟨debateId, title⟩, rows.map DebateArgument.argData⟩ := by
  obtain ⟨metadata, hrows⟩ := foldlM_getDebatesReducer_eq hne h ⟨none, []⟩
  have hlast : getDebatesReducer ⟨metadata, rows.map DebateArgument.argData⟩
      (.sentinel debateId (some title)) =
        .ok ⟨some ⟨debateId, title⟩, rows.map DebateArgument.argData⟩ := by
    unfold getDebatesReducer DebateArgument.sentinel
    rw [Option.filter_some_pos (by simpa using hne)]
    rfl
  rw [List.nil_append] at hrows
  unfold getDebates
  rw [List.foldlM_append, hrows]
  show List.foldlM getDebatesReducer _ [_] = _
  rw [List.foldlM_cons, hlast]
  rfl

/-- A first row without a title is refused. -/
theorem getDebates_untitled {r : DebateArgument} (rows : List DebateArgument)
    (h : r.debateTitle.filter (· ≠ "") = none) :
    getDebates (r :: rows) = .error (.entityNotFound "debate") := by
  have hstep : getDebatesReducer ⟨none, []⟩ r = .error (.entityNotFound "debate") := by
    unfold getDebatesReducer
    rw [h]
  unfold getDebates
  rw [List.foldlM_cons, hstep]
  rfl

/-! ## The rows -/

/-- The row that an argument contributes to the query. -/
def DebateArgument.ofJoined : JoinedArgument → DebateArgument
  | (((a, _), d), u) => { DebateArgument.ofRow a d u with title := some a.title }

theorem debateArgumentsWhere_holds {n : Int} {a : ArgumentRow} {t : TicketRow} {d : DebateRow}
    {u : UserRow} : (debateArgumentsWhere n (((a, t), d), u)).holds = true ↔
      a.debateId = n ∧ t.boardList = some .accepted := by
  simp [debateArgumentsWhere]

/-- Each ACCEPTED argument of the debate has one row, as its ticket, its debate and its author are
    stored. -/
theorem map_id_debateArguments (hS : db.Stored) (n : Int) :
    (selectWhere (debateArgumentsWhere n) (joinedArguments db)).map (fun q => q.1.1.1.id) =
      db.acceptedIn n := by
  rw [selectWhere, joinedArguments_eq, List.filter_filterMap, List.map_filterMap,
    Database.acceptedIn, ← List.filterMap_eq_map, List.filterMap_filter]
  refine List.filterMap_congr fun a ha => ?_
  by_cases hacc : a.debateId = n ∧ db.ArgumentAccepted a
  · obtain ⟨hn, k, hk, t, ht, rfl, hb⟩ := hacc
    obtain ⟨d, hd, hdid⟩ := hS.argument_debate a ha
    obtain ⟨u, hu, huid⟩ := hS.argument_user a ha
    have hrow : db.joinedArgument a = some (((a, t), d), u) :=
      joinedArgument_eq_some.2 ⟨rfl, ⟨ht, hk⟩, ⟨hd, hdid⟩, hu, huid⟩
    have hacc : a.debateId = n ∧ db.ArgumentAccepted a := ⟨hn, t.id, hk, t, ht, rfl, hb⟩
    rw [hrow, Option.filter_some, if_pos (debateArgumentsWhere_holds.2 ⟨hn, hb⟩),
      if_pos (decide_eq_true hacc)]
    rfl
  · rw [if_neg (by simpa using hacc)]
    cases hrow : db.joinedArgument a with
    | none => rfl
    | some q =>
      obtain ⟨⟨⟨a', t⟩, d⟩, u⟩ := q
      obtain ⟨rfl, ⟨ht, hk⟩, -⟩ := joinedArgument_eq_some.1 hrow
      have hnot : ¬ (debateArgumentsWhere n (((a, t), d), u)).holds = true := by
        intro hw
        obtain ⟨hn, hb⟩ := debateArgumentsWhere_holds.1 hw
        exact hacc ⟨hn, t.id, hk, t, ht, rfl, hb⟩
      rw [Option.filter_some, if_neg hnot]
      rfl

theorem nodup_acceptedIn (db : Database) (n : Int) : (db.acceptedIn n).Nodup :=
  db.arguments.nodup.sublist (List.filter_sublist.map _)

/-- What the fold needs to know about the rows of a debate. -/
theorem debateArguments_titled (hP : db.PositiveIds) {d : DebateRow} (hd : d ∈ db.debates.rows)
    {r : DebateArgument}
    (hr : r ∈ (selectWhere (debateArgumentsWhere d.id) (joinedArguments db)).map .ofJoined) :
    r.debateTitle = some d.title ∧ ∃ k, r.argumentId = some k ∧ k ≠ 0 := by
  obtain ⟨⟨⟨⟨a, t⟩, d'⟩, u⟩, hq, rfl⟩ := List.mem_map.1 hr
  obtain ⟨hq, hw⟩ := mem_selectWhere.1 hq
  rw [joinedArguments_eq, List.mem_filterMap] at hq
  obtain ⟨a', ha, hrow⟩ := hq
  obtain ⟨rfl, -, ⟨hd', hdid⟩, -⟩ := joinedArgument_eq_some.1 hrow
  obtain ⟨hn, -⟩ := debateArgumentsWhere_holds.1 hw
  obtain rfl := SerialTable.eq_of_rowId_eq hd' hd (hdid.trans hn)
  exact ⟨rfl, a'.id, rfl, (hP.arguments a' ha).ne'⟩

/-- A debate that does not exist has no row but the sentinel. -/
theorem debateArguments_missing {n : Int} (h : ∀ d ∈ db.debates.rows, d.id ≠ n) :
    selectWhere (debateArgumentsWhere n) (joinedArguments db) = [] := by
  rw [List.eq_nil_iff_forall_not_mem]
  rintro ⟨⟨⟨a, t⟩, d⟩, u⟩ hq
  obtain ⟨hq, hw⟩ := mem_selectWhere.1 hq
  rw [joinedArguments_eq, List.mem_filterMap] at hq
  obtain ⟨a', -, hrow⟩ := hq
  obtain ⟨rfl, -, ⟨hd, hdid⟩, -⟩ := joinedArgument_eq_some.1 hrow
  exact h d hd (hdid.trans (debateArgumentsWhere_holds.1 hw).1)

/-! ## The answer -/

theorem getDebateArguments_eq {n : Int} (hn : IsInt4 n) : getDebateArguments (.int n) db =
    .ok ((selectWhere (debateArgumentsWhere n) (joinedArguments db)).map .ofJoined ++
      [.sentinel n ((db.debates.find? n).map DebateRow.title)]) := by
  have hint4 : int4 (.int n) = .ok n := int4_int.2 ⟨hn, rfl⟩
  rw [getDebateArguments, hint4]
  rfl

/-- For an id the pipe changes nothing. -/
theorem parseIntPipe_of_isInt4 {n : Int} (hn : IsInt4 n) :
    parseIntPipe (toString n) = some (.int n) := by
  rcases parseIntPipe_toString n with ⟨-, hnot⟩ | ⟨x, hx, hid⟩
  · exact absurd hn hnot
  · obtain ⟨rfl, -⟩ := int4_eq_ok.1 ((hid n).2 ⟨rfl, hn⟩)
    exact hx

theorem getDebate_of_ok {n : Int} (hn : IsInt4 n) {data : DebateBody}
    (h : getDebates ((selectWhere (debateArgumentsWhere n) (joinedArguments db)).map .ofJoined ++
      [.sentinel n ((db.debates.find? n).map DebateRow.title)]) = .ok data) :
    DebatesController.getDebate (toString n) db = .ok data := by
  rw [DebatesController.getDebate, parseIntPipe_of_isInt4 hn]
  simp only [getDebateArguments_eq hn, bind, Except.bind, h]

theorem getDebate_of_error {n : Int} (hn : IsInt4 n) {e : ServiceError}
    (h : getDebates ((selectWhere (debateArgumentsWhere n) (joinedArguments db)).map .ofJoined ++
      [.sentinel n ((db.debates.find? n).map DebateRow.title)]) = .error e) :
    DebatesController.getDebate (toString n) db = .ofError e := by
  rw [DebatesController.getDebate, parseIntPipe_of_isInt4 hn]
  simp only [getDebateArguments_eq hn, bind, Except.bind, h]

/-- An integer that is no id is refused by the pipe or by the query. -/
theorem getDebate_outOfRange {n : Int} (hn : ¬ IsInt4 n) (message : String) :
    DebatesController.getDebate (toString n) db ≠ .error 404 message := by
  intro h
  rcases parseIntPipe_toString n with ⟨hnone, -⟩ | ⟨x, hx, hid⟩
  · rw [DebatesController.getDebate, hnone] at h
    simp [HttpResponse.numericExpected] at h
  · rw [DebatesController.getDebate, hx] at h
    cases hint : int4 x with
    | ok k =>
      obtain ⟨rfl, hk⟩ := (hid k).1 hint
      exact hn hk
    | error e => simp [getDebateArguments, hint, bind, Except.bind, HttpResponse.ofError] at h

/-- A title is found when it is not empty. -/
theorem getDebate_of_title (hP : db.PositiveIds) {d : DebateRow} (hd : d ∈ db.debates.rows)
    (hn : IsInt4 d.id) (hne : d.title ≠ "") :
    DebatesController.getDebate (toString d.id) db = .ok ⟨some ⟨d.id, d.title⟩,
      ((selectWhere (debateArgumentsWhere d.id) (joinedArguments db)).map .ofJoined).map
        DebateArgument.argData⟩ := by
  have hfind : db.debates.find? d.id = some d := SerialTable.find?_eq_some.2 ⟨hd, rfl⟩
  have hok := getDebates_eq d.id hne fun r hr => debateArguments_titled hP hd hr
  exact getDebate_of_ok hn (by rw [hfind, Option.map_some, hok])

theorem getDebate_missing {n : Int} (hn : IsInt4 n) (h : ∀ d ∈ db.debates.rows, d.id ≠ n) :
    DebatesController.getDebate (toString n) db = .ofError (.entityNotFound "debate") := by
  have hfind : db.debates.find? n = none := SerialTable.find?_eq_none.2 h
  have herror : getDebates [.sentinel n none] = .error (.entityNotFound "debate") :=
    getDebates_untitled _ rfl
  refine getDebate_of_error hn ?_
  rw [hfind, debateArguments_missing h, List.map_nil, List.nil_append, Option.map_none, herror]

/-- With an empty title an existing debate is not found. -/
theorem getDebate_untitled (hP : db.PositiveIds) {d : DebateRow} (hd : d ∈ db.debates.rows)
    (hn : IsInt4 d.id) (hempty : d.title = "") :
    DebatesController.getDebate (toString d.id) db = .ofError (.entityNotFound "debate") := by
  have hfind : db.debates.find? d.id = some d := SerialTable.find?_eq_some.2 ⟨hd, rfl⟩
  have herror : getDebates
      ((selectWhere (debateArgumentsWhere d.id) (joinedArguments db)).map .ofJoined ++
        [.sentinel d.id (some d.title)]) = .error (.entityNotFound "debate") := by
    have htitles := fun r hr => (debateArguments_titled (r := r) hP hd hr).1
    cases hrows : (selectWhere (debateArgumentsWhere d.id) (joinedArguments db)).map
        DebateArgument.ofJoined with
    | nil =>
      refine getDebates_untitled _ ?_
      simp [DebateArgument.sentinel, hempty]
    | cons r rows =>
      refine getDebates_untitled _ ?_
      rw [htitles r (hrows ▸ List.mem_cons_self ..), hempty]
      rfl
  exact getDebate_of_error hn (by rw [hfind, Option.map_some, herror])

/-- **Looking up a debate.** In every reachable state the request for an id is answered as the
    tables have it exactly when the id is in the range of the column and no debate with this id has
    an empty title. -/
theorem looksUp_iff (h : db.Reachable) (id : Int) : db.LooksUp id ↔ db.Titled id := by
  have hS := h.stored
  have hP := h.positiveIds
  constructor
  · intro hlook
    have hint : IsInt4 id := by
      by_contra hn
      have hnone : ∀ d ∈ db.debates.rows, d.id ≠ id := fun d hd he => hn (he ▸ hS.debate_id d hd)
      obtain ⟨message, hmessage⟩ := hlook.missing.2 hnone
      exact getDebate_outOfRange hn message hmessage
    refine ⟨hint, fun d hd he hempty => ?_⟩
    subst he
    obtain ⟨rows, -, hok, -⟩ := hlook.found d hd rfl
    rw [getDebate_untitled hP hd hint hempty] at hok
    exact nomatch hok
  · rintro ⟨hint, htitles⟩
    refine ⟨⟨?_, fun hnone => ⟨_, getDebate_missing hint hnone⟩⟩, ?_⟩
    · rintro ⟨message, hmessage⟩ d hd rfl
      rw [getDebate_of_title hP hd hint (htitles d hd rfl)] at hmessage
      exact nomatch hmessage
    · rintro d hd rfl
      have hfind : db.debates.find? d.id = some d := SerialTable.find?_eq_some.2 ⟨hd, rfl⟩
      have hids : ((selectWhere (debateArgumentsWhere d.id) (joinedArguments db)).map
          DebateArgument.ofJoined).map DebateArgument.argumentId =
            (db.acceptedIn d.id).map some := by
        rw [← map_id_debateArguments hS, List.map_map, List.map_map]
        rfl
      refine ⟨_, ?_, getDebate_of_title hP hd hint (htitles d hd rfl), hids, ?_⟩
      · rw [getDebateArguments_eq hint, hfind]
        rfl
      · rw [hids]
        exact (nodup_acceptedIn db d.id).map fun _ _ => Option.some.inj

/-- The user proposes a debate with an empty title. -/
def untitledDatabase : Database :=
  run step (Database.empty String.toLower) (createUsers ++
    [.createDebate 1 testUser ⟨"", [], none⟩, proposeDebate])

theorem untitledDatabase_eq : untitledDatabase = run step (Database.withUsers String.toLower)
    [.createDebate 1 testUser ⟨"", [], none⟩, proposeDebate] :=
  run_createUsers_append String.toLower _

/-- Of two debates the second is found, and the empty title hides the first. -/
theorem looksUp_iff_sample : untitledDatabase.debates.rows.map DebateRow.id = [1, 2] ∧
    (untitledDatabase.LooksUp 2 ↔ untitledDatabase.Titled 2) :=
  ⟨by rw [untitledDatabase_eq]; decide +kernel, looksUp_iff (Database.reachable_run _ _) 2⟩

theorem untitled_debate_notFound :
    ¬ ∀ (db : Database) (id : Int), db.Reachable → db.LooksUp id := by
  intro h
  have hlook := h untitledDatabase 1 (Database.reachable_run _ _)
  have hanswer : DebatesController.getDebate (toString 1) untitledDatabase =
      .error 404 "Entity debate not found." := by
    rw [untitledDatabase_eq]
    decide +kernel
  have hmem : ⟨1, 1, "", 1, 1, 1⟩ ∈ untitledDatabase.debates.rows := by
    rw [untitledDatabase_eq]
    decide +kernel
  exact hlook.missing.1 ⟨_, hanswer⟩ _ hmem rfl

end DecentDebates

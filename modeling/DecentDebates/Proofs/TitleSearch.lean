import DecentDebates.TitleSearch
import DecentDebates.Proofs.TagFiltering

set_option autoImplicit false

/-! # Searching titles: proofs

A pattern without special characters matches the texts that contain it. Of any other query the
shortest match is a title that does not contain the query, and it can be published if it fits the
column. -/

namespace DecentDebates

open Relational Transition

/-! ## Patterns -/

theorem like_percent {p s : List Char} :
    like ('%' :: p) s = true ↔ ∃ t, t <:+ s ∧ like p t = true := by
  change s.tails.any (like p) = true ↔ _
  simp only [List.any_eq_true, List.mem_tails]

theorem like_percent_nil (s : List Char) : like ['%'] s = true :=
  like_percent.2 ⟨[], List.nil_suffix, rfl⟩

theorem like_underscore {p s : List Char} :
    like ('_' :: p) s = true ↔ ∃ c t, s = c :: t ∧ like p t = true := by
  cases s with
  | nil => exact ⟨nofun, nofun⟩
  | cons c s =>
    change like p s = true ↔ _
    simp

theorem head_and_like_iff {c c' : Char} {p s : List Char} :
    (decide (c = c') && like p s) = true ↔ ∃ t, c' :: s = c :: t ∧ like p t = true := by
  rw [Bool.and_eq_true, decide_eq_true_eq]
  refine ⟨fun h => ⟨s, by rw [h.1], h.2⟩, ?_⟩
  intro ⟨t, ht, hlike⟩
  obtain ⟨hc, hs⟩ := List.cons.inj ht
  exact ⟨hc.symm, hs ▸ hlike⟩

theorem like_backslash {c : Char} {p s : List Char} :
    like ('\\' :: c :: p) s = true ↔ ∃ t, s = c :: t ∧ like p t = true := by
  cases s with
  | nil => exact ⟨nofun, nofun⟩
  | cons c' s => exact head_and_like_iff

theorem like_plain {c : Char} (hc : ¬ IsSpecial c) {p s : List Char} :
    like (c :: p) s = true ↔ ∃ t, s = c :: t ∧ like p t = true := by
  obtain ⟨hpercent, hunderscore, hbackslash⟩ : c ≠ '%' ∧ c ≠ '_' ∧ c ≠ '\\' := by
    simpa [IsSpecial] using hc
  cases s with
  | nil => simp [like, hbackslash]
  | cons c' s =>
    have heq : like (c :: p) (c' :: s) = (decide (c = c') && like p s) := by
      rw [like.eq_def]
      split <;> simp_all
    rw [heq]
    exact head_and_like_iff

theorem like_plain_append {p : List Char} (hp : ∀ c ∈ p, ¬ IsSpecial c) {r s : List Char} :
    like (p ++ r) s = true ↔ ∃ t, s = p ++ t ∧ like r t = true := by
  induction p generalizing s with
  | nil => simp
  | cons c p ih =>
    rw [List.forall_mem_cons] at hp
    rw [List.cons_append, like_plain hp.1]
    constructor
    · rintro ⟨t, rfl, ht⟩
      obtain ⟨t', rfl, ht'⟩ := (ih hp.2).1 ht
      exact ⟨t', rfl, ht'⟩
    · rintro ⟨t, rfl, ht⟩
      exact ⟨p ++ t, rfl, (ih hp.2).2 ⟨t, rfl, ht⟩⟩

/-- A pattern without special characters is looked for as it stands. -/
theorem like_plain_infix {p : List Char} (hp : ∀ c ∈ p, ¬ IsSpecial c) {s : List Char} :
    like ('%' :: (p ++ ['%'])) s = true ↔ p <:+: s := by
  rw [like_percent]
  constructor
  · rintro ⟨t, hsuffix, ht⟩
    obtain ⟨t', rfl, -⟩ := (like_plain_append hp).1 ht
    exact (List.prefix_append p t').isInfix.trans hsuffix.isInfix
  · rintro ⟨before, after, rfl⟩
    refine ⟨p ++ after, ⟨before, by simp⟩, (like_plain_append hp).2 ⟨after, rfl, ?_⟩⟩
    exact like_percent_nil after

/-! ## Shortest matches -/

theorem shortestMatch_escape : shortestMatch ['\\'] = ['%'] := rfl

theorem shortestMatch_escaped (c : Char) (q : List Char) :
    shortestMatch ('\\' :: c :: q) = c :: shortestMatch q := rfl

theorem shortestMatch_percent (q : List Char) : shortestMatch ('%' :: q) = shortestMatch q := rfl

theorem shortestMatch_underscore (q : List Char) :
    shortestMatch ('_' :: q) = 'x' :: shortestMatch q := rfl

/-- The last case of `shortestMatch`. -/
theorem shortestMatch_plain {c : Char} (hc : ¬ IsSpecial c) (q : List Char) :
    shortestMatch (c :: q) = c :: shortestMatch q := by
  rw [shortestMatch.eq_def]
  split <;> simp_all [IsSpecial]

/-- A query ends, or it goes on with an escaped character, a wildcard, or any other character. -/
theorem query_induction {P : List Char → Prop} (nil : P []) (escape : P ['\\'])
    (escaped : ∀ c q, P q → P ('\\' :: c :: q)) (percent : ∀ q, P q → P ('%' :: q))
    (underscore : ∀ q, P q → P ('_' :: q))
    (plain : ∀ c q, ¬ IsSpecial c → P q → P (c :: q)) (q : List Char) : P q := by
  induction q using shortestMatch.induct with
  | case1 => exact nil
  | case2 => exact escape
  | case3 c q ih => exact escaped c q ih
  | case4 q ih => exact percent q ih
  | case5 q ih => exact underscore q ih
  | case6 c q hend hmore hpercent hunderscore ih =>
    refine plain c q ?_ ih
    intro hspecial
    rcases hspecial with h | h | h
    · exact hpercent h
    · exact hunderscore h
    · cases q with
      | nil => exact hend h rfl
      | cons c' q => exact hmore c' q h rfl

theorem mem_shortestMatch {q : List Char} {c : Char} (hc : c ∈ shortestMatch q) :
    c ∈ q ∨ c = '%' ∨ c = 'x' := by
  induction q using query_induction with
  | nil => exact absurd hc List.not_mem_nil
  | escape => exact Or.inr (Or.inl (List.mem_singleton.1 hc))
  | escaped c' q ih =>
    rw [shortestMatch_escaped] at hc
    rcases List.mem_cons.1 hc with rfl | hc
    · exact Or.inl (by simp)
    · exact (ih hc).imp_left fun h => List.mem_cons_of_mem _ (List.mem_cons_of_mem _ h)
  | percent q ih =>
    rw [shortestMatch_percent] at hc
    exact (ih hc).imp_left fun h => List.mem_cons_of_mem _ h
  | underscore q ih =>
    rw [shortestMatch_underscore] at hc
    rcases List.mem_cons.1 hc with rfl | hc
    · exact Or.inr (Or.inr rfl)
    · exact (ih hc).imp_left fun h => List.mem_cons_of_mem _ h
  | plain c' q hplain ih =>
    rw [shortestMatch_plain hplain] at hc
    rcases List.mem_cons.1 hc with rfl | hc
    · exact Or.inl (List.mem_cons_self ..)
    · exact (ih hc).imp_left fun h => List.mem_cons_of_mem _ h

theorem length_shortestMatch_le (q : List Char) : (shortestMatch q).length ≤ q.length := by
  induction q using query_induction with
  | nil => exact Nat.le_refl _
  | escape => exact Nat.le_refl _
  | escaped c q ih => simp only [shortestMatch_escaped, List.length_cons]; omega
  | percent q ih => simp only [shortestMatch_percent, List.length_cons]; omega
  | underscore q ih => simp only [shortestMatch_underscore, List.length_cons]; omega
  | plain c q hc ih => simp only [shortestMatch_plain hc, List.length_cons]; omega

section Lower

variable {lower : String → String} {f : Char → Char} (h : LowersChars lower f)

include h

namespace LowersChars

theorem isSpecial_iff (c : Char) : IsSpecial (f c) ↔ IsSpecial c := by
  unfold IsSpecial
  rw [h.percent, h.underscore, h.backslash]

theorem eq_percent : f '%' = '%' := (h.percent '%').2 rfl

theorem eq_underscore : f '_' = '_' := (h.underscore '_').2 rfl

theorem eq_backslash : f '\\' = '\\' := (h.backslash '\\').2 rfl

end LowersChars

theorem like_shortestMatch (q : List Char) :
    like (q.map f ++ ['%']) ((shortestMatch q).map f) = true := by
  induction q using query_induction with
  | nil => exact like_percent_nil _
  | escape =>
    rw [List.map_singleton, h.eq_backslash, shortestMatch_escape, List.map_singleton, h.eq_percent]
    exact like_backslash.2 ⟨[], rfl, rfl⟩
  | escaped c q ih =>
    rw [List.map_cons, h.eq_backslash, shortestMatch_escaped, List.map_cons]
    exact like_backslash.2 ⟨_, rfl, ih⟩
  | percent q ih =>
    rw [List.map_cons, h.eq_percent, shortestMatch_percent]
    exact like_percent.2 ⟨_, List.suffix_rfl, ih⟩
  | underscore q ih =>
    rw [List.map_cons, h.eq_underscore, shortestMatch_underscore, List.map_cons]
    exact like_underscore.2 ⟨_, _, rfl, ih⟩
  | plain c q hc ih =>
    rw [shortestMatch_plain hc, List.map_cons]
    exact (like_plain (mt (h.isSpecial_iff c).1 hc)).2 ⟨_, rfl, ih⟩

/-- No match is shorter. -/
theorem length_shortestMatch_le_of_like {q s : List Char}
    (hlike : like (q.map f ++ ['%']) s = true) : (shortestMatch q).length ≤ s.length := by
  induction q using query_induction generalizing s with
  | nil => exact Nat.zero_le _
  | escape =>
    rw [List.map_singleton, h.eq_backslash] at hlike
    obtain ⟨t, rfl, -⟩ := like_backslash.1 hlike
    simp [shortestMatch_escape]
  | escaped c q ih =>
    rw [List.map_cons, h.eq_backslash] at hlike
    obtain ⟨t, rfl, ht⟩ := like_backslash.1 hlike
    rw [shortestMatch_escaped]
    exact Nat.succ_le_succ (ih ht)
  | percent q ih =>
    rw [List.map_cons, h.eq_percent] at hlike
    obtain ⟨t, hsuffix, ht⟩ := like_percent.1 hlike
    rw [shortestMatch_percent]
    exact (ih ht).trans hsuffix.length_le
  | underscore q ih =>
    rw [List.map_cons, h.eq_underscore] at hlike
    obtain ⟨c, t, rfl, ht⟩ := like_underscore.1 hlike
    rw [shortestMatch_underscore]
    exact Nat.succ_le_succ (ih ht)
  | plain c q hc ih =>
    obtain ⟨t, rfl, ht⟩ := (like_plain (mt (h.isSpecial_iff c).1 hc)).1 hlike
    rw [shortestMatch_plain hc]
    exact Nat.succ_le_succ (ih ht)

/-- The shortest match is the query only if nothing in the query is special. -/
theorem plain_of_shortestMatch {q : List Char} (heq : (shortestMatch q).map f = q.map f) :
    ∀ c ∈ q, ¬ IsSpecial c := by
  induction q using query_induction with
  | nil => exact fun c hc => absurd hc List.not_mem_nil
  | escape =>
    rw [shortestMatch_escape, List.map_singleton, List.map_singleton, h.eq_percent,
      h.eq_backslash] at heq
    exact absurd heq (by decide)
  | escaped c q ih =>
    have hlen := congrArg List.length heq
    have hle := length_shortestMatch_le q
    simp only [shortestMatch_escaped, List.length_map, List.length_cons] at hlen
    omega
  | percent q ih =>
    have hlen := congrArg List.length heq
    have hle := length_shortestMatch_le q
    simp only [shortestMatch_percent, List.length_map, List.length_cons] at hlen
    omega
  | underscore q ih =>
    rw [shortestMatch_underscore] at heq
    have hhead := (List.cons.inj heq).1
    rw [h.eq_underscore, h.underscore] at hhead
    exact absurd hhead (by decide)
  | plain c q hc ih =>
    rw [shortestMatch_plain hc] at heq
    exact List.forall_mem_cons.2 ⟨hc, ih (List.cons.inj heq).2⟩

/-- A query with a special character is not in its shortest match. -/
theorem not_infix_shortestMatch {q : List Char} (hspecial : ¬ ∀ c ∈ q, ¬ IsSpecial c) :
    ¬ q.map f <:+: (shortestMatch q).map f := by
  intro hinfix
  have hle := length_shortestMatch_le q
  have hlen := hinfix.length_le
  rw [List.length_map, List.length_map] at hlen
  have heq := hinfix.eq_of_length (by rw [List.length_map, List.length_map]; omega)
  exact hspecial (plain_of_shortestMatch h heq.symm)

end Lower

/-! ## Titles of debates -/

theorem varchar_length {n : Nat} {s t : String} (h : varchar n s = .ok t) : t.length ≤ n := by
  unfold varchar at h
  split at h
  · cases h
  · split at h
    · cases h
      assumption
    · split at h
      · cases h
        rw [String.length_ofList, List.length_take]
        exact Nat.min_le_left _ _
      · cases h

/-- The titles fit their column. -/
def Database.TitlesFit (db : Database) : Prop := ∀ x ∈ db.debates.rows, x.title.length ≤ 80

theorem titlesFit_step (db : Database) (c : Call) (hdb : db.TitlesFit) :
    (step db c).TitlesFit := by
  by_cases hc : (∃ now user d, c = .createDebate now user d) ∨ ∃ d, c = .updateDebate d
  · rcases hc with ⟨now, user, d, rfl⟩ | ⟨d, rfl⟩
    · rw [step, createDebate_commit]
      refine Sql.commit_rule hdb fun ticketId db' hok => ?_
      obtain ⟨_, tags, title, ids, assoc, -, -, ⟨-, htitle⟩, -, -, -, rfl⟩ :=
        createDebateSql_eq_ok.1 hok
      intro x hx
      rcases (SerialTable.mem_insert).1 hx with hx | rfl
      · exact hdb x hx
      · exact varchar_length htitle
    · rw [step, updateDebate_commit]
      refine Sql.commit_rule hdb fun n db' hok => ?_
      by_cases hn : n = 0
      · subst hn
        obtain rfl := updateDebateSql_of_zero hok
        exact hdb
      · obtain ⟨given, title, debateId, -, htitle, -, -, rfl⟩ :=
          (updateDebateSql_eq_ok_of_ne_zero hn).1 hok
        intro x hx
        obtain ⟨x', hx', rfl⟩ := (SerialTable.mem_updateWhere).1 hx
        split
        · exact varchar_length htitle
        · exact hdb x' hx'
  · intro x hx
    rcases (step_effect db c).debate_prev hx with ⟨x', hx', hchange⟩ | hnew
    · cases hchange with
      | same => exact hdb x hx'
      | retitled => exact absurd (Or.inr ⟨_, rfl⟩) hc
    · exact absurd (Or.inl hnew.call) hc

theorem Database.Reachable.titlesFit {db : Database} (h : db.Reachable) : db.TitlesFit :=
  h.invariant (fun _ _ hx => absurd hx List.not_mem_nil) titlesFit_step

/-- A moderator publishes debate 1, which has this title and a tag. -/
def publishTitled (lower : String → String) (title : String) : Database :=
  run step (Database.empty lower) (createUsers ++
    [.createDebate 1 testUser ⟨title, [], some ["tag"]⟩, .updateTicket ⟨2, 1, "IN REVIEW"⟩,
      .approveTicket moderatorOne 1])

/-- Every title that fits the column can be published. -/
theorem exists_published (lower : String → String) {title : String}
    (htitle : varchar 80 title = .ok title) :
    ∃ db : Database, db.Reachable ∧ db.lower = lower ∧
      ∃ d ∈ db.debates.rows, d.title = title ∧ db.DebateAccepted d ∧ db.tagsOf d ≠ [] := by
  let db := run step (Database.empty lower) createUsers
  let tags := db.debateTags.insert fun id => ⟨id, "tag"⟩
  let assoc : AssocTable := ⟨[⟨1, 1⟩], by decide⟩
  have hsql : createDebateSql 1 testUser ⟨title, [], some ["tag"]⟩ db = .ok (1, { db with
      tickets := db.tickets.insert fun id => ⟨id, 1, none, some .pending⟩
      debates := db.debates.insert fun id => ⟨id, 1, title, 1, 1, 1⟩
      debateTags := tags
      assocDebateTags := assoc }) :=
    createDebateSql_eq_ok.2 ⟨[1], tags, title, [1], assoc, rfl,
      ⟨show (1 : Int) ≤ int4Max by decide, _, .head _, rfl⟩,
      ⟨show (1 : Int) ≤ int4Max by decide, htitle⟩, rfl, rfl, rfl, rfl⟩
  have hstep : step db (.createDebate 1 testUser ⟨title, [], some ["tag"]⟩) = { db with
      tickets := db.tickets.insert fun id => ⟨id, 1, none, some .pending⟩
      debates := db.debates.insert fun id => ⟨id, 1, title, 1, 1, 1⟩
      debateTags := tags
      assocDebateTags := assoc } := by
    rw [step, createDebate_commit, Sql.commit_of_ok hsql]
  have hpublish : publishTitled lower title =
      run step (step db (.createDebate 1 testUser ⟨title, [], some ["tag"]⟩))
        [.updateTicket ⟨2, 1, "IN REVIEW"⟩, .approveTicket moderatorOne 1] := by
    rw [publishTitled, run_append, run_cons]
  refine ⟨publishTitled lower title, Database.reachable_run lower _, ?_, ?_⟩ <;>
    rw [hpublish, hstep]
  · rfl
  refine ⟨⟨1, 1, title, 1, 1, 1⟩, .head _, rfl, ?_, ?_⟩
  · exact ⟨⟨1, 1, some 2, some .accepted⟩, .head _, rfl, rfl⟩
  · exact List.ne_nil_of_mem (mem_tagsOf.2 ⟨⟨1, 1⟩, .head _, rfl, .head _, rfl⟩)

/-! ## Searches -/

/-- The debates that a search finds, for a query that the server accepts as a text. -/
theorem getAll_by_title {db : Database} (h : db.Reachable) {q : String} (hq : q ≠ "")
    (htext : IsText q) :
    ∃ debates, getAll (some ⟨some q, none⟩) db = .ok debates ∧ (debates.map Debate.id).Nodup ∧
      ∀ n, n ∈ debates.map Debate.id ↔ ∃ d ∈ db.debates.rows, d.id = n ∧ db.DebateAccepted d ∧
        db.tagsOf d ≠ [] ∧ ilike db.lower d.title ("%" ++ q ++ "%") = true := by
  have hgiven : (some q).filter (· ≠ "") = some q := by simp [Option.filter_some, hq]
  let filter : DebateRow → DebatesTags → Truth :=
    fun d _ => .known (ilike db.lower d.title ("%" ++ q ++ "%"))
  have hget : getAll (some ⟨some q, none⟩) db = .ok (selectDebates db filter) := by
    simp only [getAll, applyDebateFilters, hgiven, getQueryStrSql, text, if_pos htext]
    rfl
  have hpasses (d : DebateRow) : db.passes filter d = true ↔
      db.tagsOf d ≠ [] ∧ ilike db.lower d.title ("%" ++ q ++ "%") = true :=
    passes_iff fun _ _ => Iff.rfl
  obtain ⟨hnodup, hmem⟩ := selectDebates_exactly h.stored filter
  simp only [hpasses] at hmem
  exact ⟨_, hget, hnodup, hmem⟩

/-- The pattern is the query between two `%`, in lower case. -/
theorem ilike_query_iff {lower : String → String} {f : Char → Char} (h : LowersChars lower f)
    (title q : String) : ilike lower title ("%" ++ q ++ "%") = true ↔
      like ('%' :: (q.toList.map f ++ ['%'])) (title.toList.map f) = true := by
  have hpattern : (lower ("%" ++ q ++ "%")).toList = '%' :: (q.toList.map f ++ ['%']) := by
    rw [h.chars]
    simp [h.eq_percent]
  rw [ilike, hpattern, h.chars]

theorem isText_of_searchesLiterally {lower : String → String} {q : String}
    (hsearch : SearchesLiterally lower q) : IsText q := by
  by_contra hnul
  obtain ⟨debates, hget, -⟩ := hsearch (Database.empty lower) (Database.reachable_run lower []) rfl
  rw [getAll_of_nul _ hnul none] at hget
  cases hget

section Literal

variable {lower : String → String} {f : Char → Char} (h : LowersChars lower f) {q : String}
  (hq : q ≠ "") (htext : IsText q)

include h hq htext

theorem not_searchesLiterally (hspecial : ¬ ∀ c ∈ q.toList, ¬ IsSpecial c)
    (hlen : (shortestMatch q.toList).length ≤ 80) : ¬ SearchesLiterally lower q := by
  intro hsearch
  -- a debate with the shortest match as its title is found, and its title does not contain `q`
  have htitle : varchar 80 (String.ofList (shortestMatch q.toList)) =
      .ok (String.ofList (shortestMatch q.toList)) := by
    have hnul : IsText (String.ofList (shortestMatch q.toList)) := by
      intro hmem
      rw [String.toList_ofList] at hmem
      rcases mem_shortestMatch hmem with hmem | hmem | hmem
      · exact htext hmem
      · exact absurd hmem (by decide)
      · exact absurd hmem (by decide)
    rw [varchar, if_neg (not_not.2 hnul), if_pos]
    rwa [String.length_ofList]
  obtain ⟨db, hreachable, hlower, d, hd, hdtitle, haccepted, htags⟩ :=
    exists_published lower htitle
  obtain ⟨debates, hget, -, hmem⟩ := hsearch db hreachable hlower
  obtain ⟨debates', hget', -, hmem'⟩ := getAll_by_title hreachable hq htext
  obtain rfl := Except.ok.inj (hget.symm.trans hget')
  have hlike : ilike lower d.title ("%" ++ q ++ "%") = true := by
    rw [ilike_query_iff h, hdtitle, String.toList_ofList]
    exact like_percent.2 ⟨_, List.suffix_rfl, like_shortestMatch h q.toList⟩
  obtain ⟨d', hd', hid, -, -, hcontains⟩ :=
    (hmem d.id).1 ((hmem' d.id).2 ⟨d, hd, rfl, haccepted, htags, hlower ▸ hlike⟩)
  obtain rfl : d' = d := SerialTable.eq_of_rowId_eq hd' hd hid
  unfold Database.TitleContains at hcontains
  rw [hlower, h.chars, h.chars, hdtitle, String.toList_ofList] at hcontains
  exact not_infix_shortestMatch h hspecial hcontains

theorem searchesLiterally_of
    (hliteral : (∀ c ∈ q.toList, ¬ IsSpecial c) ∨ 80 < (shortestMatch q.toList).length) :
    SearchesLiterally lower q := by
  intro db hdb hlower
  obtain ⟨debates, hget, hnodup, hmem⟩ := getAll_by_title hdb hq htext
  refine ⟨debates, hget, hnodup, fun n => (hmem n).trans ?_⟩
  subst hlower
  refine exists_congr fun d => and_congr_right fun hd => and_congr_right fun _ =>
    and_congr_right fun _ => and_congr_right fun _ => ?_
  unfold Database.TitleContains
  rw [ilike_query_iff h, h.chars, h.chars]
  rcases hliteral with hplain | hlong
  · exact like_plain_infix (List.forall_mem_map.2 fun c hc => mt (h.isSpecial_iff c).1 (hplain c hc))
  · have hfits := hdb.titlesFit d hd
    rw [← String.length_toList] at hfits
    constructor
    · intro hlike
      obtain ⟨t, hsuffix, ht⟩ := like_percent.1 hlike
      have hle := length_shortestMatch_le_of_like h ht
      have hle' := hsuffix.length_le
      rw [List.length_map] at hle'
      omega
    · intro hinfix
      have hle := hinfix.length_le
      have hle' := length_shortestMatch_le q.toList
      rw [List.length_map, List.length_map] at hle
      omega

end Literal

/-- **Title search.** The search for a query is literal exactly when the server accepts the query
    and nothing in it is special, or its shortest match is too long for a title. -/
theorem search_literal_iff {lower : String → String} {f : Char → Char} (h : LowersChars lower f)
    {q : String} (hq : q ≠ "") :
    SearchesLiterally lower q ↔ IsText q ∧
      ((∀ c ∈ q.toList, ¬ IsSpecial c) ∨ 80 < (shortestMatch q.toList).length) := by
  constructor
  · intro hsearch
    have htext := isText_of_searchesLiterally hsearch
    refine ⟨htext, ?_⟩
    by_contra hnot
    rw [not_or, Nat.not_lt] at hnot
    exact not_searchesLiterally h hq htext hnot.1 hnot.2 hsearch
  · intro hliteral
    exact searchesLiterally_of h hq hliteral.1 hliteral.2

theorem toNat_toLower (c : Char) :
    c.toLower.toNat = if 65 ≤ c.toNat ∧ c.toNat ≤ 90 then c.toNat + 32 else c.toNat := by
  have hiff : (c.val ≥ 'A'.val ∧ c.val ≤ 'Z'.val) ↔ 65 ≤ c.toNat ∧ c.toNat ≤ 90 := Iff.rfl
  unfold Char.toLower
  split
  · next h =>
    have hle : c.val.toNat ≤ 90 := (hiff.1 h).2
    have hshift : ('a'.val - 'A'.val).toNat = 32 := rfl
    rw [if_pos (hiff.1 h)]
    show (c.val + ('a'.val - 'A'.val)).toNat = c.val.toNat + 32
    rw [UInt32.toNat_add, hshift]
    omega
  · next h => rw [if_neg (mt hiff.2 h)]

theorem toLower_eq_iff {w : Char} (hw : w.toNat < 65 ∨ 90 < w.toNat ∧ w.toNat < 97) (c : Char) :
    c.toLower = w ↔ c = w := by
  rw [← Char.toNat_inj, ← Char.toNat_inj, toNat_toLower]
  split <;> omega

/-- The lower case of ASCII letters. -/
theorem lowersChars_toLower : LowersChars String.toLower Char.toLower where
  chars s := String.toList_map
  percent := toLower_eq_iff (by decide)
  underscore := toLower_eq_iff (by decide)
  backslash := toLower_eq_iff (by decide)

theorem search_literal_sample : SearchesLiterally String.toLower "Topic#2" := by
  have hplain : "Topic#2".toList.all (fun c => ¬ IsSpecial c) = true := by decide
  exact (search_literal_iff lowersChars_toLower (by decide)).2
    ⟨by decide, Or.inl fun c hc => of_decide_eq_true (List.all_eq_true.1 hplain c hc)⟩

/-- The search for `50%` also finds `50`. -/
theorem percent_not_literal :
    ¬ ∀ (lower : String → String) (f : Char → Char), LowersChars lower f →
      ∀ q, q ≠ "" → SearchesLiterally lower q := by
  intro hall
  refine not_searchesLiterally lowersChars_toLower (by decide) (by decide) ?_ (by decide)
    (hall _ _ lowersChars_toLower "50%" (by decide))
  intro hplain
  exact hplain '%' (by decide) (Or.inl rfl)

end DecentDebates

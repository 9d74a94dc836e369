import DecentDebates.DebatePage

set_option autoImplicit false

/-! # When opened arguments keep their texts

Only a response changes the list: what is there after it is the list of its own click, with one
content more (`shows_step`). If every request is answered then only the last outstanding response
matters (`keepsTexts_step`); if requests may fail then each may be the last one (`shows_iff`). That
nothing but fetched contents ever changes holds of every list that is around (`Sound`). -/

namespace DecentDebates.DebatePage

open Transition

/-! ## Nothing else changes -/

theorem Refetched.refl (args : List DebateArgument) : Refetched args [] args :=
  ⟨fun _ => none, by simp, (List.map_id' args).symm⟩

theorem Refetched.mono {args l : List DebateArgument} {fetched : List (Int × Option String)}
    (h : Refetched args fetched l) (p : Int × Option String) : Refetched args (p :: fetched) l := by
  obtain ⟨contents, hcontents, hl⟩ := h
  exact ⟨contents, fun id content hid => List.mem_cons_of_mem _ (hcontents id content hid), hl⟩

theorem Refetched.withContent {args l : List DebateArgument} {fetched : List (Int × Option String)}
    (h : Refetched args fetched l) (argId : Int) (content : Option String) :
    Refetched args ((argId, content) :: fetched) (l.map (withContent argId content)) := by
  obtain ⟨contents, hcontents, rfl⟩ := h
  refine ⟨fun id => if id = argId then some content else contents id, ?_, ?_⟩
  · intro id c hid
    by_cases heq : id = argId
    · simp only [if_pos heq, Option.some.injEq] at hid
      rw [heq, hid]
      exact List.mem_cons_self
    · simp only [if_neg heq] at hid
      exact List.mem_cons_of_mem _ (hcontents id c hid)
  · rw [List.map_map]
    refine List.map_congr_left fun a _ => ?_
    by_cases ha : a.argumentId = argId
    · simp [DebatePage.withContent, ha]
    · simp [DebatePage.withContent, ha]

/-- Every list that is around is the first one with fetched contents. -/
def Sound (args : List DebateArgument) (s : State) : Prop :=
  Refetched args s.fetched s.detailedArgs ∧
    ∀ fetch ∈ s.fetching, Refetched args s.fetched fetch.detailedArgs

theorem sound_step {args : List DebateArgument} (s : State) (e : Step) (h : Sound args s) :
    Sound args (step s e) := by
  obtain ⟨hcurrent, hfetching⟩ := h
  cases e with
  | onReadArgument argId =>
    simp only [step, onReadArgument]
    split_ifs
    · exact ⟨hcurrent, hfetching⟩
    · exact ⟨hcurrent, hfetching⟩
    · exact ⟨hcurrent, List.forall_mem_append.2 ⟨hfetching, List.forall_mem_singleton.2 hcurrent⟩⟩
  | onCollapseArgument argId => exact ⟨hcurrent, hfetching⟩
  | onFetched i content =>
    simp only [step]
    split
    · next fetch hfetch =>
      refine ⟨(hfetching fetch (List.mem_of_getElem? hfetch)).withContent fetch.argId content, ?_⟩
      intro other hother
      exact (hfetching other (List.mem_of_mem_eraseIdx hother)).mono _
    · exact ⟨hcurrent, hfetching⟩
  | onRejected i => exact ⟨hcurrent, fun other h => hfetching other (List.mem_of_mem_eraseIdx h)⟩

/-! ## Texts of opened arguments -/

theorem expanded_collapse {s : State} {argId id : Int}
    (h : (onCollapseArgument argId s).Expanded id) : s.Expanded id := by
  cases hids : s.expandedArgumentsIDs with
  | none => simp [State.Expanded, onCollapseArgument, removeExpandedArgumentID, hids] at h
  | some ids =>
    simp only [State.Expanded, onCollapseArgument, removeExpandedArgumentID, hids, Option.map_some,
      Option.getD_some] at h ⊢
    exact (List.mem_filter.1 h).1

theorem expanded_onFetched {s : State} {fetch : Fetch} {content : Option String} {id : Int}
    (hid : id ≠ fetch.argId) : (onFetched fetch content s).Expanded id ↔ s.Expanded id := by
  cases hids : s.expandedArgumentsIDs with
  | none => simp [State.Expanded, onFetched, addExpandedArgumentID, hids]
  | some ids => simp [State.Expanded, onFetched, addExpandedArgumentID, hids, hid]

/-- After a response, its own argument has its text, and the others have what the list of the click
    has. -/
theorem shows_onFetched {s : State} {fetch : Fetch} {content : Option String} :
    (onFetched fetch content s).Shows (onFetched fetch content s).detailedArgs ↔
      s.FindsTexts fetch := by
  have hlookup : ∀ id, id ≠ fetch.argId →
      (onFetched fetch content s).fetched.lookup id = s.fetched.lookup id := by
    intro id hid
    show List.lookup id ((fetch.argId, content) :: s.fetched) = _
    rw [List.lookup_cons, beq_eq_false_iff_ne.2 hid]
  have hself : (onFetched fetch content s).fetched.lookup fetch.argId = some content := by
    show List.lookup fetch.argId ((fetch.argId, content) :: s.fetched) = _
    rw [List.lookup_cons, beq_self_eq_true]
  constructor
  · intro h a ha hexpanded
    obtain ⟨ha, hne⟩ := List.mem_filter.1 ha
    have hne := of_decide_eq_true hne
    have hmem : a ∈ (onFetched fetch content s).detailedArgs :=
      List.mem_map.2 ⟨a, ha, if_pos hne⟩
    rw [← hlookup _ hne]
    exact h a hmem ((expanded_onFetched hne).2 hexpanded)
  · intro h a ha hexpanded
    obtain ⟨a, hmem, rfl⟩ := List.mem_map.1 ha
    by_cases hid : a.argumentId = fetch.argId
    · simp only [withContent, hid, ne_eq, not_true, if_false]
      exact hself
    · simp only [withContent, ne_eq, hid, not_false_eq_true, if_true] at hexpanded ⊢
      rw [hlookup _ hid]
      exact h a (List.mem_filter.2 ⟨hmem, decide_eq_true hid⟩) ((expanded_onFetched hid).1 hexpanded)

theorem shows_collapse {s : State} {argId : Int} {args : List DebateArgument} (h : s.Shows args) :
    (onCollapseArgument argId s).Shows args :=
  fun a ha hexpanded => h a ha (expanded_collapse hexpanded)

theorem shows_step (s : State) (e : Step) (h : s.Shows s.detailedArgs) :
    (step s e).Shows (step s e).detailedArgs ↔ InTime s e := by
  cases e with
  | onReadArgument argId =>
    refine iff_of_true ?_ trivial
    simp only [step, onReadArgument]
    split_ifs <;> exact h
  | onCollapseArgument argId => exact iff_of_true (shows_collapse h) trivial
  | onFetched i content =>
    cases hi : s.fetching[i]? with
    | some fetch =>
      simp only [step, InTime, hi, Option.some.injEq, forall_eq']
      exact shows_onFetched
    | none =>
      simp only [step, InTime, hi]
      exact iff_of_true h (fun _ hfetch => absurd hfetch (by simp))
  | onRejected i => exact iff_of_true h trivial

/-! ## The last outstanding request -/

/-- No request is left exactly if this was the only one. -/
theorem fetching_eraseIdx_eq_nil_iff {s : State} {fetch : Fetch} {i : Nat}
    (hfetch : s.fetching[i]? = some fetch) :
    s.fetching.eraseIdx i = [] ↔ s.fetching = [fetch] ∧ i = 0 := by
  rw [List.eraseIdx_eq_nil_iff]
  constructor
  · rintro (hnil | ⟨hlen, rfl⟩)
    · rw [hnil] at hfetch
      cases hfetch
    · obtain ⟨x, hx⟩ := List.length_eq_one_iff.1 hlen
      rw [hx] at hfetch ⊢
      rw [Option.some.inj hfetch]
      exact ⟨rfl, rfl⟩
  · rintro ⟨hsingle, rfl⟩
    exact Or.inr ⟨congrArg List.length hsingle, rfl⟩

/-- A step that takes a request away needs its condition only of the last one. -/
theorem keepsTexts_eraseIdx {s s' : State} {i : Nat} {P : Fetch → Prop} {fetch : Fetch}
    (hfetch : s.fetching[i]? = some fetch) (hs' : s'.fetching = s.fetching.eraseIdx i)
    (h : s'.Shows s'.detailedArgs ↔ P fetch) :
    s'.KeepsTexts ↔ ∀ fetch, s.fetching = [fetch] → i = 0 → P fetch := by
  constructor
  · intro hkeeps fetch' hfetching hi
    obtain rfl : fetch = fetch' := by
      rw [hfetching, hi] at hfetch
      exact (Option.some.inj hfetch).symm
    exact h.1 (hkeeps (hs'.trans ((fetching_eraseIdx_eq_nil_iff hfetch).2 ⟨hfetching, hi⟩)))
  · intro hfine hnil
    obtain ⟨hsingle, hi⟩ := (fetching_eraseIdx_eq_nil_iff hfetch).1 (hs'.symm.trans hnil)
    exact h.2 (hfine fetch hsingle hi)

theorem keepsTexts_step (s : State) (e : Step) (h : s.KeepsTexts) :
    (step s e).KeepsTexts ↔ Fine s e := by
  -- a position without a request is not that of the last one
  have hnone {i : Nat} {P : Fetch → Prop} (hi : s.fetching[i]? = none) :
      ∀ fetch, s.fetching = [fetch] → i = 0 → P fetch := by
    intro fetch hfetching hzero
    rw [hfetching, hzero] at hi
    cases hi
  cases e with
  | onReadArgument argId =>
    refine ⟨fun _ => trivial, fun _ => ?_⟩
    simp only [step, onReadArgument]
    split_ifs
    · exact h
    · exact h
    · exact fun hfetching => absurd hfetching (List.append_ne_nil_of_right_ne_nil _ (by simp))
  | onCollapseArgument argId =>
    exact iff_of_true (fun hfetching => shows_collapse (h hfetching)) trivial
  | onFetched i content =>
    cases hi : s.fetching[i]? with
    | some fetch =>
      refine keepsTexts_eraseIdx hi ?_ ?_
      · simp only [step, hi]
        rfl
      · simp only [step, hi]
        exact shows_onFetched
    | none =>
      simp only [step, hi]
      exact iff_of_true h (hnone hi)
  | onRejected i =>
    cases hi : s.fetching[i]? with
    | some fetch => exact keepsTexts_eraseIdx hi rfl Iff.rfl
    | none =>
      refine iff_of_true ?_ (hnone hi)
      rw [step, List.eraseIdx_of_length_le (List.getElem?_eq_none_iff.1 hi)]
      exact h

/-! ## Failures -/

theorem shows_rejected (s : State) (e : Step) (he : e.IsRejected) :
    (step s e).Shows (step s e).detailedArgs ↔ s.Shows s.detailedArgs := by
  cases e with
  | onRejected i => exact Iff.rfl
  | onReadArgument argId => exact absurd he id
  | onCollapseArgument argId => exact absurd he id
  | onFetched i content => exact absurd he id

/-- The first outstanding request may fail. -/
theorem exists_rejected (s : State) (fetch : Fetch) (rest : List Fetch)
    (h : s.fetching = fetch :: rest) :
    ∃ e : Step, e.IsRejected ∧ (step s e).fetching = rest :=
  ⟨.onRejected 0, trivial, by rw [step, h]; rfl⟩

/-- The list has all texts when it will have them however the outstanding requests fail. -/
theorem shows_iff (s : State) : s.Shows s.detailedArgs ↔
    ∀ es : List Step, (∀ e ∈ es, e.IsRejected) → (run step s es).KeepsTexts :=
  iff_run_emptied (P := fun s => s.Shows s.detailedArgs) State.fetching shows_rejected
    exists_rejected s

/-! ## Whole runs -/

/-- **Opened arguments.** For every list of arguments and every sequence of clicks, responses and
    failures: every opened argument has its text whenever no response is to come, exactly when every
    step is fine; it also has it after any failures of what is then outstanding, exactly when every
    response is in time; and nothing changes but contents, to what has been fetched. -/
theorem opened_keep_texts_iff (isNaN : Bool) (args : List DebateArgument) (es : List Step) :
    ((∀ s ∈ states step (.open isNaN args) es,
        s.KeepsTexts ∧ Refetched args s.fetched s.detailedArgs) ↔
      ∀ p ∈ steps step (.open isNaN args) es, Fine p.1 p.2) ∧
    ((∀ s ∈ states step (.open isNaN args) es, ∀ es' : List Step, (∀ e ∈ es', e.IsRejected) →
        (run step s es').KeepsTexts ∧
          Refetched args (run step s es').fetched (run step s es').detailedArgs) ↔
      ∀ p ∈ steps step (.open isNaN args) es, InTime p.1 p.2) := by
  have hsound : ∀ s ∈ states step (.open isNaN args) es, Sound args s :=
    states_invariant sound_step ⟨Refetched.refl args, fun _ h => absurd h List.not_mem_nil⟩ es
  have hshows : (State.open isNaN args).Shows args :=
    fun _ _ hexpanded => absurd hexpanded List.not_mem_nil
  constructor
  · rw [← states_iff_steps (J := fun _ => True) (fun _ _ _ => trivial)
      (fun s e _ h => keepsTexts_step s e h) trivial (fun _ => hshows) es]
    exact ⟨fun h s hs => (h s hs).1, fun h s hs => ⟨h s hs, (hsound s hs).1⟩⟩
  · rw [← states_iff_steps (J := fun _ => True) (fun _ _ _ => trivial)
      (fun s e _ h => shows_step s e h) trivial hshows es]
    refine forall₂_congr fun s hs => Iff.trans ?_ (shows_iff s).symm
    exact ⟨fun h es' hes' => (h es' hes').1, fun h es' hes' =>
      ⟨h es' hes', (run_invariant sound_step (hsound s hs) es').1⟩⟩

/-- Two arguments of a debate. -/
def twoArguments : List DebateArgument :=
  [1, 2].map fun id =>
    ⟨id, 1, "Vaccines", id, "Argument", none, 1, .pro, "", "moderator-user", none, none⟩

/-- The second response brings back the list without the first text. -/
theorem overlapping_reads_lose_text :
    ¬ ∀ (isNaN : Bool) (args : List DebateArgument),
      (args.map DebateArgument.argumentId).Nodup → ∀ es : List Step,
        (run step (.open isNaN args) es).KeepsTexts := by
  intro h
  have hkeeps := h false twoArguments (by decide)
    [.onReadArgument 1, .onReadArgument 2, .onFetched 0 (some "one"), .onFetched 0 (some "two")]
    rfl
  have hlost := hkeeps ⟨1, 1, "Vaccines", 1, "Argument", none, 1, .pro, "", "moderator-user", none,
    none⟩ (by decide) (by decide)
  exact absurd hlost (by decide)

end DecentDebates.DebatePage

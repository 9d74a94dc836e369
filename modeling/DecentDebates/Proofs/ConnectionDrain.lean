import DecentDebates.ConnectionDrain

set_option autoImplicit false

/-! # Draining connections: proofs

`closeAfterResponse` gives every response one of the two means, and no later step takes it away.
What ends with a hook leaves an immediate behind, and an immediate closes every connection on which
nothing is being waited for. -/

namespace DecentDebates.ConnectionDrain

open Transition

variable {s s₁ : Server}

/-! ## The two means -/

@[simp] theorem closeAfterResponse_status (res : ServerResponse) :
    (closeAfterResponse res).status = res.status := by
  unfold closeAfterResponse
  split <;> rfl

@[simp] theorem closeAfterResponse_connection (res : ServerResponse) :
    (closeAfterResponse res).connection = res.connection := by
  unfold closeAfterResponse
  split <;> rfl

theorem closeAfterResponse_closes (res : ServerResponse) : (closeAfterResponse res).Closes := by
  unfold closeAfterResponse
  split
  · next h =>
    have hnone : res.headers = none := by simpa [ServerResponse.headersSent] using h
    exact Or.inl (by simp [ServerResponse.announcesClose, hnone])
  · exact Or.inr (Nat.succ_pos _)

/-! ## The set of responses in flight -/

/-- The set has exactly the responses that have neither ended nor been aborted. -/
def Tracked (s : Server) : Prop :=
  ∀ i, i ∈ s.inFlight ↔ ∃ res, s.responses[i]? = some res ∧ res.status = .inFlight

theorem onInFlight_cases (i : Nat) (next : ServerResponse → Server) :
    s.onInFlight i next = s ∨ ∃ res, s.responses[i]? = some res ∧ res.status = .inFlight ∧
      s.onInFlight i next = next res := by
  unfold Server.onInFlight
  split
  · next res hres =>
    split
    · next hstatus => exact Or.inr ⟨res, hres, hstatus, rfl⟩
    · exact Or.inl rfl
  · exact Or.inl rfl

/-- A response that has been in flight is replaced; if it no longer is, it leaves the set. -/
structure Replaces (s s' : Server) (i : Nat) (res res' : ServerResponse) : Prop where
  here : s.responses[i]? = some res
  status : res.status = .inFlight
  connection : res'.connection = res.connection
  responses : s'.responses = s.responses.set i res'
  inFlight : s'.inFlight =
    if res'.status = .inFlight then s.inFlight else s.inFlight.filter (· ≠ i)
  draining : s'.draining = s.draining
  immediates : s.immediates ≤ s'.immediates
  closed : ∀ c ∈ s.closed, c ∈ s'.closed

namespace Replaces

variable {s' : Server} {i : Nat} {res res' : ServerResponse}

theorem getElem? (h : Replaces s s' i res res') (j : Nat) :
    s'.responses[j]? = if i = j then some res' else s.responses[j]? := by
  have hlt := (List.getElem?_eq_some_iff.1 h.here).1
  rw [h.responses, List.getElem?_set]
  by_cases hij : i = j
  · subst hij
    simp [hlt]
  · simp [hij]

theorem tracked (h : Replaces s s' i res res') (ht : Tracked s) : Tracked s' := by
  intro j
  rw [h.inFlight, h.getElem? j]
  by_cases hij : i = j
  · subst hij
    rw [if_pos rfl]
    split
    · next hstatus =>
      constructor
      · exact fun _ => ⟨res', rfl, hstatus⟩
      · exact fun _ => (ht i).2 ⟨res, h.here, h.status⟩
    · next hstatus =>
      constructor
      · intro hmem
        exact absurd rfl (of_decide_eq_true (List.mem_filter.1 hmem).2)
      · rintro ⟨r, hr, hin⟩
        obtain rfl := Option.some.inj hr
        exact absurd hin hstatus
  · rw [if_neg hij, ← ht j]
    split
    · exact Iff.rfl
    · simp [Ne.symm hij]

/-- A connection stays busy, unless it is the one of the response. -/
theorem busy (h : Replaces s s' i res res') {c : Nat} (hc : s.Busy c) :
    s'.Busy c ∨ (c = res.connection ∧ res'.status ≠ .inFlight) := by
  obtain ⟨r, hr, rfl, hin⟩ := hc
  obtain ⟨j, hj⟩ := List.mem_iff_getElem?.1 hr
  have hj' := h.getElem? j
  by_cases hij : i = j
  · subst hij
    obtain rfl := Option.some.inj (h.here.symm.trans hj)
    rw [if_pos rfl] at hj'
    by_cases hstatus : res'.status = .inFlight
    · exact Or.inl ⟨res', List.mem_of_getElem? hj', h.connection, hstatus⟩
    · exact Or.inr ⟨rfl, hstatus⟩
  · rw [if_neg hij, hj] at hj'
    exact Or.inl ⟨r, List.mem_of_getElem? hj', rfl, hin⟩

/-- Nothing lingers if the replaced response closes its connection: later, when it is still in
    flight, and now, when it is not. -/
theorem drains (h : Replaces s s' i res res') (hd : Drains s₁ s) (hcloses : res'.Closes)
    (hend : res'.status ≠ .inFlight → res.connection ∈ s'.closed ∨ 0 < s'.immediates) :
    Drains s₁ s' where
  inFlight := by
    intro r hr hin
    obtain ⟨j, hj⟩ := List.mem_iff_getElem?.1 hr
    rw [h.getElem? j] at hj
    split at hj
    · obtain rfl := Option.some.inj hj
      exact hcloses
    · exact hd.inFlight r (List.mem_of_getElem? hj) hin
  finished := by
    intro j r hj hfin hnew
    rw [h.getElem? j] at hj
    split at hj
    · obtain rfl := Option.some.inj hj
      have hne : res'.status ≠ .inFlight := by simp [hfin]
      rw [h.connection]
      exact ⟨hcloses, (hend hne).imp_right Or.inl⟩
    · obtain ⟨hr, hclosed | himm | hbusy⟩ := hd.finished j r hj hfin hnew
      · exact ⟨hr, Or.inl (h.closed _ hclosed)⟩
      · exact ⟨hr, Or.inr (Or.inl (Nat.lt_of_lt_of_le himm h.immediates))⟩
      · rcases h.busy hbusy with hbusy | ⟨hc, hne⟩
        · exact ⟨hr, Or.inr (Or.inr hbusy)⟩
        · rw [hc]
          exact ⟨hr, (hend hne).imp_right Or.inl⟩
  untracked := by
    intro j r hj hne
    obtain ⟨h₁, h₂⟩ := hd.untracked j r hj hne
    refine ⟨h₁, fun hmem => h₂ ?_⟩
    rw [h.inFlight] at hmem
    split at hmem
    · exact hmem
    · exact (List.mem_filter.1 hmem).1
  tracked := h.tracked hd.tracked

end Replaces

theorem replaces_flush {i : Nat} {res : ServerResponse} (hres : s.responses[i]? = some res)
    (hin : res.status = .inFlight) :
    Replaces s { s with responses := s.responses.set i res.flush } i res res.flush where
  here := hres
  status := hin
  connection := rfl
  responses := rfl
  inFlight := (if_pos hin).symm
  draining := rfl
  immediates := Nat.le_refl _
  closed := fun _ h => h

theorem replaces_finish {i : Nat} {res : ServerResponse} (hres : s.responses[i]? = some res)
    (hin : res.status = .inFlight) :
    Replaces s (finish i res s) i res { res.flush with status := .finished } where
  here := hres
  status := hin
  connection := rfl
  responses := rfl
  inFlight := rfl
  draining := rfl
  immediates := Nat.le_add_right _ _
  closed := by
    intro c hc
    unfold finish
    simp only
    split
    · exact List.mem_cons_of_mem _ hc
    · exact hc

theorem replaces_abort {i : Nat} {res : ServerResponse} (hres : s.responses[i]? = some res)
    (hin : res.status = .inFlight) :
    Replaces s (abort i res s) i res { res with status := .aborted } where
  here := hres
  status := hin
  connection := rfl
  responses := rfl
  inFlight := rfl
  draining := rfl
  immediates := Nat.le_refl _
  closed := fun _ hc => List.mem_cons_of_mem _ hc

/-- A response that closes its connection does so when it ends. -/
theorem finish_closes {i : Nat} {res : ServerResponse} (hcloses : res.Closes) :
    res.connection ∈ (finish i res s).closed ∨ 0 < (finish i res s).immediates := by
  rcases hcloses with hannounce | hhook
  · have hheaders : res.flush.headers = some true := congrArg some hannounce
    refine Or.inl ?_
    unfold finish
    simp only [hheaders, if_true]
    exact List.mem_cons_self ..
  · exact Or.inr (Nat.lt_of_lt_of_le hhook (Nat.le_add_left _ _))

/-! ## A request -/

theorem getElem?_concat {α : Type} {l : List α} {a x : α} {i : Nat} :
    (l ++ [a])[i]? = some x ↔ l[i]? = some x ∨ (i = l.length ∧ a = x) := by
  rw [List.getElem?_append]
  split
  · next hlt =>
    have hne : i ≠ l.length := Nat.ne_of_lt hlt
    simp [hne]
  · next hge =>
    have hnone : l[i]? = none := List.getElem?_eq_none (Nat.le_of_not_lt hge)
    rw [hnone, List.getElem?_singleton]
    split
    · next h0 =>
      have hi : i = l.length := by omega
      simp [hi]
    · next h0 =>
      have hi : i ≠ l.length := by omega
      simp [hi]

/-- What the listener makes of a new response. -/
def newResponse (connection : Nat) (headersSent : Bool) (s : Server) : ServerResponse :=
  let res : ServerResponse :=
    ⟨connection, false, if headersSent then some false else none, 0, .inFlight⟩
  if s.draining then closeAfterResponse res else res

theorem newResponse_status (connection : Nat) (headersSent : Bool) (s : Server) :
    (newResponse connection headersSent s).status = .inFlight := by
  unfold newResponse
  extract_lets res
  split
  · exact closeAfterResponse_status res
  · rfl

theorem newResponse_closes (connection : Nat) (headersSent : Bool) (h : s.draining = true) :
    (newResponse connection headersSent s).Closes := by
  unfold newResponse
  rw [if_pos h]
  exact closeAfterResponse_closes _

theorem onRequest_responses (connection : Nat) (headersSent : Bool) (s : Server) :
    (onRequest connection headersSent s).responses =
      s.responses ++ [newResponse connection headersSent s] := rfl

theorem tracked_onRequest (connection : Nat) (headersSent : Bool) (h : Tracked s) :
    Tracked (onRequest connection headersSent s) := by
  intro i
  have hmem : i ∈ (onRequest connection headersSent s).inFlight ↔
      i ∈ s.inFlight ∨ i = s.responses.length := by
    simp [onRequest]
  rw [hmem, h i, onRequest_responses]
  constructor
  · rintro (⟨res, hres, hin⟩ | rfl)
    · exact ⟨res, getElem?_concat.2 (Or.inl hres), hin⟩
    · exact ⟨_, getElem?_concat.2 (Or.inr ⟨rfl, rfl⟩), newResponse_status _ _ s⟩
  · rintro ⟨res, hres, hin⟩
    rcases getElem?_concat.1 hres with hres | ⟨hi, -⟩
    · exact Or.inl ⟨res, hres, hin⟩
    · exact Or.inr hi

theorem drains_onRequest (connection : Nat) (headersSent : Bool) (hdraining : s.draining = true)
    (hlen : s₁.responses.length ≤ s.responses.length) (h : Drains s₁ s) :
    Drains s₁ (onRequest connection headersSent s) where
  inFlight := by
    intro res hres hin
    rw [onRequest_responses] at hres
    rcases List.mem_append.1 hres with hres | hres
    · exact h.inFlight res hres hin
    · rw [List.mem_singleton.1 hres]
      exact newResponse_closes connection headersSent hdraining
  finished := by
    intro i res hres hfin hnew
    rw [onRequest_responses] at hres
    rcases getElem?_concat.1 hres with hres | ⟨-, rfl⟩
    · obtain ⟨hcloses, hend⟩ := h.finished i res hres hfin hnew
      refine ⟨hcloses, hend.imp_right (Or.imp_right ?_)⟩
      rintro ⟨r, hr, hc, hin⟩
      exact ⟨r, List.mem_append_left _ hr, hc, hin⟩
    · rw [newResponse_status] at hfin
      exact nomatch hfin
  untracked := by
    intro i res₁ hres₁ hne
    obtain ⟨h₁, h₂⟩ := h.untracked i res₁ hres₁ hne
    have hlt := (List.getElem?_eq_some_iff.1 hres₁).1
    refine ⟨h₁, fun hmem => ?_⟩
    rcases List.mem_append.1 hmem with hmem | hmem
    · exact h₂ hmem
    · have hi := List.mem_singleton.1 hmem
      omega
  tracked := tracked_onRequest connection headersSent h.tracked

/-! ## The call -/

theorem getElem?_startDraining (s : Server) (i : Nat) :
    (startDrainingConnections s).responses[i]? =
      s.responses[i]?.map fun res => if i ∈ s.inFlight then closeAfterResponse res else res :=
  List.getElem?_mapIdx

/-- The call only touches responses in flight. -/
theorem startDraining_cases {i : Nat} {res : ServerResponse} (h : Tracked s)
    (hres : (startDrainingConnections s).responses[i]? = some res) :
    ∃ res₀, s.responses[i]? = some res₀ ∧ res.status = res₀.status ∧
      res.connection = res₀.connection ∧
      (res₀.status = .inFlight ∧ res.Closes ∨ res₀.status ≠ .inFlight ∧ res = res₀) := by
  rw [getElem?_startDraining, Option.map_eq_some_iff] at hres
  obtain ⟨res₀, hres₀, rfl⟩ := hres
  refine ⟨res₀, hres₀, ?_⟩
  split
  · next hmem =>
    obtain ⟨r, hr, hin⟩ := (h i).1 hmem
    obtain rfl := Option.some.inj (hres₀.symm.trans hr)
    exact ⟨closeAfterResponse_status _, closeAfterResponse_connection _,
      Or.inl ⟨hin, closeAfterResponse_closes _⟩⟩
  · next hmem =>
    exact ⟨rfl, rfl, Or.inr ⟨fun hin => hmem ((h i).2 ⟨res₀, hres₀, hin⟩), rfl⟩⟩

theorem tracked_startDraining (h : Tracked s) : Tracked (startDrainingConnections s) := by
  intro i
  refine (h i).trans ?_
  rw [getElem?_startDraining]
  constructor
  · rintro ⟨res, hres, hin⟩
    rw [hres]
    refine ⟨_, rfl, ?_⟩
    split
    · rw [closeAfterResponse_status, hin]
    · exact hin
  · rintro ⟨res, hres, hin⟩
    obtain ⟨res₀, hres₀, hstatus, -⟩ :=
      startDraining_cases h ((getElem?_startDraining s i).trans hres)
    exact ⟨res₀, hres₀, hstatus ▸ hin⟩

theorem busy_startDraining {c : Nat} (h : s.Busy c) : (startDrainingConnections s).Busy c := by
  obtain ⟨res, hres, hc, hin⟩ := h
  obtain ⟨i, hi⟩ := List.mem_iff_getElem?.1 hres
  have hi' := getElem?_startDraining s i
  rw [hi, Option.map_some] at hi'
  refine ⟨_, List.mem_of_getElem? hi', ?_⟩
  split
  · exact ⟨(closeAfterResponse_connection _).trans hc, (closeAfterResponse_status _).trans hin⟩
  · exact ⟨hc, hin⟩

theorem drains_startDraining (ht : Tracked s)
    (hfin : ∀ (i : Nat) (res : ServerResponse), s.responses[i]? = some res →
      res.status = .finished → (∀ res₁, s₁.responses[i]? = some res₁ → res₁.status = .inFlight) →
      res.Closes ∧ (res.connection ∈ s.closed ∨ 0 < s.immediates ∨ s.Busy res.connection))
    (hun : ∀ (i : Nat) (res₁ : ServerResponse), s₁.responses[i]? = some res₁ →
      res₁.status ≠ .inFlight → i ∉ s₁.inFlight ∧ i ∉ s.inFlight) :
    Drains s₁ (startDrainingConnections s) where
  inFlight := by
    intro res hres hin
    obtain ⟨i, hi⟩ := List.mem_iff_getElem?.1 hres
    obtain ⟨res₀, -, hstatus, -, ⟨-, hcloses⟩ | ⟨hne, -⟩⟩ := startDraining_cases ht hi
    · exact hcloses
    · exact absurd (hstatus ▸ hin) hne
  finished := by
    intro i res hres hfinished hnew
    obtain ⟨res₀, hres₀, hstatus, -, ⟨hin, -⟩ | ⟨-, rfl⟩⟩ := startDraining_cases ht hres
    · rw [hstatus, hin] at hfinished
      exact nomatch hfinished
    · obtain ⟨hcloses, hend⟩ := hfin i res hres₀ hfinished hnew
      exact ⟨hcloses, hend.imp_right (Or.imp_right busy_startDraining)⟩
  untracked := hun
  tracked := tracked_startDraining ht

/-! ## An immediate -/

theorem drains_closeIdle {n : Nat} (h : Drains s₁ s) :
    Drains s₁ (closeIdleConnections { s with immediates := n }) where
  inFlight := h.inFlight
  finished := by
    intro i res hres hfin hnew
    obtain ⟨hcloses, -⟩ := h.finished i res hres hfin hnew
    refine ⟨hcloses, ?_⟩
    by_cases hbusy : s.Busy res.connection
    · exact Or.inr (Or.inr hbusy)
    · refine Or.inl (List.mem_append_left _ (List.mem_filter.2 ⟨?_, decide_eq_true hbusy⟩))
      exact List.mem_map.2 ⟨res, List.mem_of_getElem? hres, rfl⟩
  untracked := h.untracked
  tracked := h.tracked

/-! ## One step -/

/-- What a step can do. A response that is replaced keeps its means, and closes its connection by it
    when it is no longer in flight. -/
inductive Effect (s : Server) : Server → Prop
  | same : Effect s s
  | request (connection : Nat) (headersSent : Bool) : Effect s (onRequest connection headersSent s)
  | response {s' : Server} {i : Nat} {res res' : ServerResponse} (h : Replaces s s' i res res')
      (closes : res.Closes → res'.Closes ∧
        (res'.status ≠ .inFlight → res.connection ∈ s'.closed ∨ 0 < s'.immediates)) : Effect s s'
  | call : Effect s (startDrainingConnections s)
  | immediate (n : Nat) : Effect s (closeIdleConnections { s with immediates := n })

theorem effect_onInFlight (i : Nat) (next : ServerResponse → Server)
    (h : ∀ res, s.responses[i]? = some res → res.status = .inFlight → Effect s (next res)) :
    Effect s (s.onInFlight i next) := by
  rcases onInFlight_cases i next with hsame | ⟨res, hres, hin, hnext⟩
  · rw [hsame]
    exact .same
  · rw [hnext]
    exact h res hres hin

theorem step_effect (s : Server) (e : Step) : Effect s (step s e) := by
  cases e with
  | request connection headersSent =>
    rw [step]
    split
    · exact .same
    · exact .request connection headersSent
  | flushHeaders i =>
    refine effect_onInFlight i _ fun res hres hin => .response (replaces_flush hres hin) ?_
    exact fun hcloses => ⟨hcloses, fun hne => absurd hin hne⟩
  | finish i =>
    refine effect_onInFlight i _ fun res hres hin => .response (replaces_finish hres hin) ?_
    exact fun hcloses => ⟨hcloses, fun _ => finish_closes hcloses⟩
  | abort i =>
    refine effect_onInFlight i _ fun res hres hin => .response (replaces_abort hres hin) ?_
    exact fun hcloses => ⟨hcloses, fun _ => Or.inl (List.mem_cons_self ..)⟩
  | startDrainingConnections => exact .call
  | immediate =>
    rw [step]
    split
    · exact .same
    · exact .immediate _

theorem tracked_step (s : Server) (e : Step) (h : Tracked s) : Tracked (step s e) := by
  have heffect := step_effect s e
  generalize step s e = s' at heffect
  cases heffect with
  | same => exact h
  | request connection headersSent => exact tracked_onRequest connection headersSent h
  | response hrep _ => exact hrep.tracked h
  | call => exact tracked_startDraining h
  | immediate n => exact h

/-! ## Runs -/

/-- A state after the call. -/
structure After (s₁ s : Server) : Prop where
  draining : s.draining = true
  length : s₁.responses.length ≤ s.responses.length
  drains : Drains s₁ s

theorem after_step (s : Server) (e : Step) (h : After s₁ s) : After s₁ (step s e) := by
  have heffect := step_effect s e
  generalize step s e = s' at heffect
  cases heffect with
  | same => exact h
  | request connection headersSent =>
    refine ⟨h.draining, ?_, drains_onRequest connection headersSent h.draining h.length h.drains⟩
    rw [onRequest_responses, List.length_append]
    exact Nat.le_trans h.length (Nat.le_add_right _ _)
  | response hrep hcloses =>
    have hres := hcloses (h.drains.inFlight _ (List.mem_of_getElem? hrep.here) hrep.status)
    refine ⟨hrep.draining.trans h.draining, ?_, hrep.drains h.drains hres.1 hres.2⟩
    rw [hrep.responses, List.length_set]
    exact h.length
  | call =>
    refine ⟨rfl, ?_, drains_startDraining h.drains.tracked h.drains.finished h.drains.untracked⟩
    rw [startDrainingConnections, List.length_mapIdx]
    exact h.length
  | immediate n => exact ⟨h.draining, h.length, drains_closeIdle h.drains⟩

theorem after_call (h : Tracked s) : After s (startDrainingConnections s) where
  draining := rfl
  length := Nat.le_of_eq (List.length_mapIdx ..).symm
  drains := by
    refine drains_startDraining h (fun i res hres hfin hnew => ?_) fun i res hres hne => ?_
    · rw [hnew res hres] at hfin
      exact nomatch hfin
    · have hnot : i ∉ s.inFlight := by
        intro hmem
        obtain ⟨r, hr, hin⟩ := (h i).1 hmem
        obtain rfl := Option.some.inj (hres.symm.trans hr)
        exact hne hin
      exact ⟨hnot, hnot⟩

theorem tracked_tracked : Tracked .tracked := by
  intro i
  simp [Server.tracked]

/-- **Draining leaves no lingering response.** After the call, whatever happens before and after it,
    each response in flight closes its connection by one of the two means, each one that has ended
    since has done so, and only responses in flight are tracked. -/
theorem draining_leaves_nothing (before after : List Step) :
    Drains (run step .tracked before)
      (run step .tracked (before ++ .startDrainingConnections :: after)) := by
  have htracked := run_invariant tracked_step tracked_tracked before
  rw [run_append, run_cons]
  exact (run_invariant (fun s e h => after_step s e h) (after_call htracked) after).drains

/-- Two streams whose headers have been sent, one before and one after the call, and a response that
    has ended before. -/
example : run step .tracked [.request 1 false, .finish 0, .request 1 true, .startDrainingConnections,
    .request 2 true, .finish 1, .finish 2, .immediate] =
      { responses := [⟨1, false, some false, 0, .finished⟩, ⟨1, false, some false, 1, .finished⟩,
          ⟨2, false, some false, 1, .finished⟩]
        inFlight := []
        draining := true
        immediates := 1
        closed := [1, 1, 2] } := by decide

end DecentDebates.ConnectionDrain

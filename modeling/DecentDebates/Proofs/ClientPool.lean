import DecentDebates.ClientPool
import Mathlib.Algebra.BigOperators.Group.List.Basic
import Mathlib.Data.List.Perm.Basic

set_option autoImplicit false

/-! # Database clients are given back: proofs

A `finally` block releases whatever the `try` block has done (`releasing_usage`), so all that is left
to look at is the code outside of such blocks. -/

namespace DecentDebates.Pool

open Effects Json Transition

variable {α β : Type} {d : Driver} {u : Usage}

/-! ## Methods -/

/-- `x` takes and releases as many clients. -/
def Uses (x : PoolM α) (taken released : Nat) : Prop :=
  ∀ u, (x.run u).2.taken = u.taken + taken ∧ (x.run u).2.released = u.released + released

theorem uses_onClient (x : ClientM α) : Uses (onClient x) 0 0 := fun _ => ⟨rfl, rfl⟩

theorem uses_pure (a : α) : Uses (pure a) 0 0 := fun _ => ⟨rfl, rfl⟩

theorem uses_releasing (body : ClientM α) (handler : String → ClientM α) :
    Uses (releasing body handler) 0 1 := by
  intro u
  unfold releasing
  rw [Comp.run_tryFinally]
  obtain ⟨htaken, hreleased⟩ := uses_onClient (tryCatch body handler) u
  rcases hx : (onClient (tryCatch body handler)).run u with ⟨_ | a, u'⟩
  all_goals
    rw [hx] at htaken hreleased
    exact ⟨htaken, congrArg (· + 1) hreleased⟩

/-- What follows may not be reached, so it must not use the pool. -/
theorem Uses.bind {x : PoolM α} {f : α → PoolM β} {n m : Nat} (hx : Uses x n m)
    (hf : ∀ a, Uses (f a) 0 0) : Uses (x >>= f) n m := by
  intro u
  obtain ⟨htaken, hreleased⟩ := hx u
  rw [Comp.run_bind]
  rcases hrun : x.run u with ⟨e | a, u'⟩
  · rw [hrun] at htaken hreleased
    exact ⟨htaken, hreleased⟩
  · rw [hrun] at htaken hreleased
    obtain ⟨htaken', hreleased'⟩ := hf a u'
    exact ⟨htaken'.trans htaken, hreleased'.trans hreleased⟩

theorem Uses.discard {x : PoolM α} {n m : Nat} (h : Uses x n m) : Uses (discard x) n m :=
  h.bind fun _ => uses_pure _

/-- What goes before has returned, so what follows is reached. -/
theorem Uses.after {x : PoolM α} {f : α → PoolM β} {n m n' m' : Nat} (hx : Uses x n m)
    (hok : ∀ u, ∃ a, (x.run u).1 = .ok a ∧ Uses (f a) n' m') :
    Uses (x >>= f) (n + n') (m + m') := by
  intro u
  obtain ⟨htaken, hreleased⟩ := hx u
  obtain ⟨a, ha, hf⟩ := hok u
  rw [Comp.run_bind]
  rcases hrun : x.run u with ⟨e | b, u'⟩
  · rw [hrun] at ha
    exact nomatch ha
  · rw [hrun] at ha htaken hreleased
    cases ha
    obtain ⟨htaken', hreleased'⟩ := hf u'
    exact ⟨by simp only at *; omega, by simp only at *; omega⟩

theorem uses_connect (h : d.connect = .ok ()) : Uses (connect d) 1 0 := by
  intro u
  unfold connect
  rw [h]
  exact ⟨rfl, rfl⟩

theorem Uses.after_connect {f : Unit → PoolM α} {n m : Nat} (h : d.connect = .ok ())
    (hf : Uses (f ()) n m) : Uses (connect d >>= f) (n + 1) m := by
  have hafter := (uses_connect h).after (f := f) fun u => ⟨(), by rw [connect, h]; rfl, hf⟩
  rwa [Nat.add_comm, Nat.zero_add] at hafter

theorem uses_withClient (h : d.connect = .ok ()) (body : ClientM α) (handler : String → ClientM α) :
    Uses (withClient d body handler) 1 1 :=
  .after_connect h (uses_releasing body handler)

/-- If the pool has no client for a method, there is nothing to release. -/
theorem uses_of_connect_error {e : String} {f : Unit → PoolM α} (h : d.connect = .error e) :
    Uses (connect d >>= f) 0 0 := by
  intro u
  unfold connect
  rw [h]
  exact ⟨rfl, rfl⟩

/-! ## `getAll` and `getOneByEmailOrUsername` -/

/-- A truthy query becomes a pattern if it has a text. -/
theorem queryStrFilter_cases (text : Value → String) (f : ParsedFilters) :
    (∃ v, f.queryStr = some v ∧ JsValue.truthy (some v) = true ∧
      ((hasText v = true ∧ ∃ w, f.queryStrFilter text = .ok (some w)) ∨
        hasText v = false ∧ ∃ e, f.queryStrFilter text = .error e)) ∨
      f.queryStr.truthy = false ∧ f.queryStrFilter text = .ok none := by
  have hpattern : ∀ v, (hasText v = true ∧ ∃ w, ParsedFilters.pattern text v = .ok w) ∨
      hasText v = false ∧ ∃ e, ParsedFilters.pattern text v = .error e := by
    intro v
    unfold ParsedFilters.pattern
    split
    · exact Or.inl ⟨rfl, _, rfl⟩
    · split
      · next h => exact Or.inl ⟨h, _, rfl⟩
      · next h => exact Or.inr ⟨by simpa using h, _, rfl⟩
  unfold ParsedFilters.queryStrFilter
  rcases f.queryStr with _ | v
  · exact Or.inr ⟨rfl, rfl⟩
  · by_cases htruthy : JsValue.truthy (some v) = true
    · refine Or.inl ⟨v, rfl, htruthy, (hpattern v).imp ?_ ?_⟩
      · rintro ⟨h, w, hw⟩
        exact ⟨h, w, by simp only [htruthy, if_true, hw]; rfl⟩
      · rintro ⟨h, e, he⟩
        exact ⟨h, e, by simp only [htruthy, if_true, he]; rfl⟩
    · exact Or.inr ⟨by simpa using htruthy, by simp [htruthy]⟩

theorem getTagFiltersSql_some (tags : ParsedTags) (n : Nat) :
    ∃ sql, ParsedFilters.getTagFiltersSql (some tags) n = .ok sql := by
  unfold ParsedFilters.getTagFiltersSql
  split
  · contradiction
  · split <;> exact ⟨_, rfl⟩

/-- The filters can be applied, or applying them throws. -/
theorem applyDebateFilters_cases (text : Value → String) (f : ParsedFilters) :
    (¬ FiltersThrow f ∧ ∃ r, f.applyDebateFilters text = .ok r) ∨
      FiltersThrow f ∧ ∃ e, f.applyDebateFilters text = .error e := by
  unfold ParsedFilters.applyDebateFilters
  rcases queryStrFilter_cases text f with
    ⟨v, hv, htruthy, ⟨htext, w, hw⟩ | ⟨htext, e, he⟩⟩ | ⟨hfalsy, hnone⟩
  · refine Or.inl ⟨?_, ?_⟩
    · simp [FiltersThrow, hv, htruthy, htext]
    · cases htags : f.tags with
      | none => exact ⟨_, by simp only [hw]; rfl⟩
      | some tags =>
        obtain ⟨sql, hsql⟩ := getTagFiltersSql_some tags 2
        exact ⟨_, by simp only [hw, bind, Except.bind, hsql]; rfl⟩
  · exact Or.inr ⟨Or.inl ⟨v, hv, htruthy, htext⟩, e, by simp only [he]; rfl⟩
  · cases htags : f.tags with
    | none => exact Or.inr ⟨Or.inr ⟨hfalsy, htags⟩, _, by simp only [hnone]; rfl⟩
    | some tags =>
      obtain ⟨sql, hsql⟩ := getTagFiltersSql_some tags 1
      refine Or.inl ⟨?_, _, by simp only [hnone, bind, Except.bind, hsql]; rfl⟩
      rintro (⟨v, hv, htruthy, -⟩ | ⟨-, hnotags⟩)
      · rw [hv, htruthy] at hfalsy
        exact nomatch hfalsy
      · exact nomatch htags.symm.trans hnotags

theorem getAll_releases (h : d.connect = .ok ()) {filters : Option ParsedFilters}
    (hf : ∀ f ∈ filters, ¬ FiltersThrow f) : Uses (DebatesService.getAll d filters) 1 1 := by
  refine .after_connect h fun u => ?_
  cases filters with
  | none => exact uses_releasing _ _ u
  | some f =>
    obtain ⟨-, r, hr⟩ := (applyDebateFilters_cases d.textOf f).resolve_right fun hthrow =>
      hf f rfl hthrow.1
    simp only [hr]
    exact uses_releasing _ _ u

theorem getAll_leaks (h : d.connect = .ok ()) {f : ParsedFilters} (hf : FiltersThrow f) :
    Uses (DebatesService.getAll d (some f)) 1 0 := by
  refine .after_connect h fun u => ?_
  obtain ⟨-, e, he⟩ := (applyDebateFilters_cases d.textOf f).resolve_left fun hok => hok.1 hf
  simp only [he]
  exact ⟨rfl, rfl⟩

theorem run_connect (h : d.connect = .ok ()) :
    (connect d).run u = (.ok (), { u with taken := u.taken + 1 }) := by
  unfold connect
  rw [h]
  rfl

theorem run_discard (x : PoolM α) (u : Usage) : ((discard x).run u).2 = (x.run u).2 := by
  show ((x >>= fun _ => pure ⟨⟩ : PoolM PUnit).run u).2 = _
  rw [Comp.run_bind]
  rcases x.run u with ⟨e | a, u'⟩ <;> rfl

/-- The release is reached if the query is not rejected. -/
theorem usage_getOne (h : d.connect = .ok ()) :
    Method.usage .getOneByEmailOrUsername d =
      match d.query [UserService.selectUser] with
      | .ok _ => ⟨[UserService.selectUser], 1, 1⟩
      | .error _ => ⟨[UserService.selectUser], 1, 0⟩ := by
  refine (run_discard _ _).trans ?_
  have hquery : (onClient (query d UserService.selectUser)).run ⟨[], 1, 0⟩ =
    (d.query [UserService.selectUser], ⟨[UserService.selectUser], 1, 0⟩) := rfl
  unfold UserService.getOneByEmailOrUsername
  rw [Comp.run_bind_ok (run_connect h)]
  cases hres : d.query [UserService.selectUser] with
  | error e =>
    rw [hres] at hquery
    exact congrArg Prod.snd (Comp.run_bind_error hquery)
  | ok res =>
    rw [hres] at hquery
    exact congrArg Prod.snd (Comp.run_bind_ok hquery)

/-! ## Every method -/

theorem Uses.usage {m : Method} {n k : Nat} (h : Uses (m.run d) n k) :
    (m.usage d).taken = n ∧ (m.usage d).released = k := by
  obtain ⟨htaken, hreleased⟩ := h ⟨[], 0, 0⟩
  exact ⟨htaken.trans (Nat.zero_add n), hreleased.trans (Nat.zero_add k)⟩

theorem uses_of_not_leaks {m : Method} (h : d.connect = .ok ()) (hm : ¬ m.Leaks d) :
    (m.usage d).taken = 1 ∧ (m.usage d).released = 1 := by
  cases m with
  | getAll filters =>
    exact Uses.usage (Uses.discard (getAll_releases h fun f hf hthrow => hm ⟨f, hf, hthrow⟩))
  | getOneByEmailOrUsername =>
    rw [usage_getOne h]
    cases hres : d.query [UserService.selectUser] with
    | error e => exact absurd ⟨e, hres⟩ hm
    | ok res => exact ⟨rfl, rfl⟩
  | updateTicket =>
    refine Uses.usage (.bind (uses_withClient h _ _) fun rowCount => ?_)
    split
    · exact fun _ => ⟨rfl, rfl⟩
    · exact uses_pure _
  | createDebate | createArgument | saveArgumentAsDraft | updateDraft | submitDraft
  | markNotificationsAsRead => exact Uses.usage (uses_withClient h _ _)
  | _ => exact Uses.usage (Uses.discard (uses_withClient h _ _))

theorem usage_of_leaks {m : Method} (h : d.connect = .ok ()) (hm : m.Leaks d) :
    (m.usage d).taken = 1 ∧ (m.usage d).released = 0 := by
  cases m with
  | getAll filters =>
    obtain ⟨f, hf, hthrow⟩ := hm
    cases hf
    exact Uses.usage (Uses.discard (getAll_leaks h hthrow))
  | getOneByEmailOrUsername =>
    obtain ⟨e, he⟩ := hm
    rw [usage_getOne h, he]
    exact ⟨rfl, rfl⟩
  | _ => exact hm.elim

/-- Without a client there is nothing to give back. -/
theorem usage_of_connect_error {m : Method} {e : String} (h : d.connect = .error e) :
    (m.usage d).taken = 0 ∧ (m.usage d).released = 0 := by
  cases m with
  | updateTicket =>
    refine Uses.usage (.bind (uses_of_connect_error h) fun rowCount => ?_)
    split
    · exact fun _ => ⟨rfl, rfl⟩
    · exact uses_pure _
  | createDebate | createArgument | saveArgumentAsDraft | updateDraft | submitDraft
  | markNotificationsAsRead => exact Uses.usage (uses_of_connect_error h)
  | _ => exact Uses.usage (Uses.discard (uses_of_connect_error h))

/-! ## Runs -/

/-- The client that a call gets and does not give back. -/
def lost (m : Method) (d : Driver) : Nat := (m.usage d).taken - (m.usage d).released

theorem taken_eq (m : Method) (d : Driver) :
    (m.usage d).taken = (m.usage d).released + lost m d := by
  have hle : (m.usage d).released ≤ (m.usage d).taken := by
    cases hconnect : d.connect with
    | error e =>
      obtain ⟨htaken, hreleased⟩ := usage_of_connect_error (m := m) hconnect
      omega
    | ok u =>
      by_cases hm : m.Leaks d
      · obtain ⟨htaken, hreleased⟩ := usage_of_leaks hconnect hm
        omega
      · obtain ⟨htaken, hreleased⟩ := uses_of_not_leaks hconnect hm
        omega
  unfold lost
  omega

theorem lost_eq_zero_iff (m : Method) (d : Driver) :
    lost m d = 0 ↔ ¬ (PoolStep.call m d).Leaks := by
  unfold lost PoolStep.Leaks
  cases hconnect : d.connect with
  | error e =>
    obtain ⟨htaken, hreleased⟩ := usage_of_connect_error (m := m) hconnect
    simp [htaken, hconnect]
  | ok u =>
    by_cases hm : m.Leaks d
    · obtain ⟨htaken, hreleased⟩ := usage_of_leaks hconnect hm
      simp [htaken, hreleased, hm, hconnect]
    · obtain ⟨htaken, hreleased⟩ := uses_of_not_leaks hconnect hm
      simp [htaken, hreleased, hm]

/-- The clients that a step's call does not give back. -/
def PoolStep.lost : PoolStep → Nat
  | .call m d => Pool.lost m d
  | .settle _ => 0

/-- The clients that the running calls will give back. -/
def PoolState.owed (s : PoolState) : Nat := (s.running.map fun c => (c.1.usage c.2).released).sum

/-- What is checked out is owed, or lost for good. -/
theorem checkedOut_step {s : PoolState} {n : Nat} (h : s.checkedOut = s.owed + n) (l : PoolStep) :
    (poolStep s l).checkedOut = (poolStep s l).owed + (n + l.lost) := by
  cases l with
  | call m d =>
    simp only [poolStep, PoolState.owed, PoolStep.lost, List.map_append, List.sum_append,
      List.map_singleton, List.sum_singleton] at h ⊢
    have htaken := taken_eq m d
    omega
  | settle position =>
    cases hcall : s.running[position]? with
    | none =>
      simp only [poolStep, hcall]
      exact h
    | some c =>
      obtain ⟨m, d⟩ := c
      have howed : s.owed = (m.usage d).released +
          PoolState.owed ⟨s.running.eraseIdx position, s.checkedOut - (m.usage d).released⟩ := by
        obtain ⟨hlt, hget⟩ := List.getElem?_eq_some_iff.1 hcall
        have hperm := List.getElem_cons_eraseIdx_perm hlt
        rw [hget] at hperm
        exact (hperm.map fun c => (c.1.usage c.2).released).sum_eq.symm
      simp only [poolStep, hcall, PoolStep.lost]
      omega

theorem checkedOut_run {s : PoolState} {n : Nat} (h : s.checkedOut = s.owed + n)
    (ls : List PoolStep) :
    (run poolStep s ls).checkedOut = (run poolStep s ls).owed + (n + (ls.map PoolStep.lost).sum) := by
  induction ls generalizing s n with
  | nil => simpa using h
  | cons l ls ih =>
    rw [run_cons, List.map_cons, List.sum_cons, ← Nat.add_assoc n]
    exact ih (checkedOut_step h l)

/-- **Clients that are given back.** A method releases its client exactly once if it is not one of
    the two that leak, and when no call is running the pool is whole exactly if none has leaked. -/
theorem clients_released_iff (m : Method) (d : Driver) (h : d.connect = .ok ())
    (ls : List PoolStep) :
    ((m.usage d).taken = 1 ∧ (m.usage d).released = 1 ↔ ¬ m.Leaks d) ∧
      ((run poolStep .init ls).running = [] →
        ((run poolStep .init ls).checkedOut = 0 ↔ ∀ l ∈ ls, ¬ l.Leaks)) := by
  refine ⟨⟨fun ⟨htaken, hreleased⟩ hm => ?_, uses_of_not_leaks h⟩, fun hidle => ?_⟩
  · rw [(usage_of_leaks h hm).2] at hreleased
    exact nomatch hreleased
  · have hrun := checkedOut_run (s := .init) (n := 0) rfl ls
    rw [PoolState.owed, hidle, List.map_nil, List.sum_nil, Nat.zero_add, Nat.zero_add] at hrun
    rw [hrun, List.sum_eq_zero_iff_forall_eq_nat]
    constructor
    · intro h l hl
      cases l with
      | call m d => exact (lost_eq_zero_iff m d).1 (h _ (List.mem_map_of_mem hl))
      | settle position => exact id
    · intro h n hn
      obtain ⟨l, hl, rfl⟩ := List.mem_map.1 hn
      cases l with
      | call m d => exact (lost_eq_zero_iff m d).2 (h _ hl)
      | settle position => rfl

/-- Every call succeeds, and every query finds one row. -/
def answering : Driver :=
  ⟨.ok (), fun _ => .ok ⟨[.object [("id", .string "1")]], 1⟩, .ok (), fun _ => ""⟩

theorem clients_released_sample :
    ((Method.usage .createArgument answering).taken = 1 ∧
        (Method.usage .createArgument answering).released = 1) ∧
      (run poolStep .init [.call .createArgument answering, .settle 0]).checkedOut = 0 := by
  have h := clients_released_iff .createArgument answering rfl
    [.call .createArgument answering, .settle 0]
  refine ⟨h.1.2 id, (h.2 rfl).2 ?_⟩
  intro l hl
  rcases List.mem_pair.1 hl with rfl | rfl
  · exact fun h => h.2
  · exact id

/-- Filters with neither a query nor tags: the client is never released. -/
theorem getAll_keeps_client :
    ¬ ∀ (m : Method) (d : Driver), d.connect = .ok () →
      (m.usage d).taken = 1 ∧ (m.usage d).released = 1 := by
  intro h
  exact absurd (h (.getAll (some ⟨none, none⟩)) answering rfl).2 (by decide)

end DecentDebates.Pool

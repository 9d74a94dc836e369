import DecentDebates.Lib.Effects

set_option autoImplicit false

/-! # Transactions, statement by statement

A connection on which a program sends its statements one by one. Each of them may fail, for a reason
of its own or because the driver says so, and a failure ends what the transaction can do. `Refines`
relates such a program to a computation that does the same at once; from `BEGIN` to `COMMIT` the
program then commits once what the computation makes of the committed state, or one statement fails
and nothing is committed (`run_transaction`). -/

namespace Atomic

open Effects

inductive Transaction (δ : Type) where
  | none
  | running (view : δ)
  | aborted

structure Connection (δ ν : Type) where
  committed : δ
  /-- What was committed before, the last state first. -/
  past : List δ
  transaction : Transaction δ
  /-- The statements that have failed. -/
  failed : List ν

/-- A connection on which nothing has been sent. -/
def Connection.idle {δ : Type} (ν : Type) (committed : δ) : Connection δ ν :=
  ⟨committed, [], .none, []⟩

structure Driver (ε η ν : Type) where
  /-- Why a statement fails, whatever the state. -/
  fault : ν → Option ε
  /-- The error of a statement that fails by itself. -/
  rejected : η → ε
  /-- The error of a statement in a transaction that has failed. -/
  aborted : ε

section Statements

variable {δ ε η ν α β : Type}

/-- A statement has failed; a transaction that runs is aborted. -/
def Connection.fail (c : Connection δ ν) (name : ν) : Connection δ ν :=
  { c with
    transaction :=
      match c.transaction with
      | .none => .none
      | _ => .aborted
    failed := c.failed ++ [name] }

variable (d : Driver ε η ν)

/-- Outside of a transaction, a statement is committed by itself. -/
def execute (name : ν) (m : StateT δ (Except η) α) : Comp ε (Connection δ ν) α := fun c =>
  match d.fault name with
  | some e => (.error e, c.fail name)
  | none =>
    match c.transaction with
    | .none =>
      match m c.committed with
      | .ok (a, db) => (.ok a, { c with committed := db, past := c.committed :: c.past })
      | .error e => (.error (d.rejected e), c.fail name)
    | .running view =>
      match m view with
      | .ok (a, view') => (.ok a, { c with transaction := .running view' })
      | .error e => (.error (d.rejected e), c.fail name)
    | .aborted => (.error d.aborted, c.fail name)

/-- `BEGIN` -/
def start (name : ν) : Comp ε (Connection δ ν) Unit := fun c =>
  match d.fault name with
  | some e => (.error e, c.fail name)
  | none =>
    match c.transaction with
    | .none => (.ok (), { c with transaction := .running c.committed })
    | _ => (.ok (), c)

/-- `COMMIT`. Whether it fails or not, the transaction is over, and an aborted one is rolled
    back. -/
def commit (name : ν) : Comp ε (Connection δ ν) Unit := fun c =>
  match d.fault name with
  | some e => (.error e, { c with transaction := .none, failed := c.failed ++ [name] })
  | none =>
    match c.transaction with
    | .running view =>
      (.ok (), { c with
        committed := view, past := c.committed :: c.past, transaction := .none })
    | _ => (.ok (), { c with transaction := .none })

/-- `ROLLBACK` -/
def rollback : Comp ε (Connection δ ν) Unit := fun c => (.ok (), { c with transaction := .none })

/-- From `BEGIN` to `COMMIT`. -/
def transaction (begins commits : ν) (x : Comp ε (Connection δ ν) α) :
    Comp ε (Connection δ ν) α := do
  start d begins
  let a ← x
  commit d commits
  return a

/-! ## Programs in a transaction -/

/-- Why a program that does what `m` does fails at a statement: it is `m` that fails, or there is a
    reason that has nothing to do with the state. -/
def Fails (name : ν) (m : StateT δ (Except η) α) (view : δ) (e : ε) : Prop :=
  d.fault name = some e ∨ ∃ e', m view = .error e' ∧ e = d.rejected e'

/-- In a transaction, `x` sends the statements `names`, and does with them what `m` does; or one of
    them fails. -/
def Refines (names : List ν) (x : Comp ε (Connection δ ν) α) (m : StateT δ (Except η) α) : Prop :=
  ∀ (c : Connection δ ν) (view : δ), c.transaction = .running view →
    (∃ a view', m view = .ok (a, view') ∧ (∀ n ∈ names, d.fault n = none) ∧
      x.run c = (.ok a, { c with transaction := .running view' })) ∨
    ∃ e, ∃ n ∈ names, Fails d n m view e ∧ x.run c = (.error e, c.fail n)

variable {d}

theorem fail_running {c : Connection δ ν} {view view' : δ} (h : c.transaction = .running view)
    (name : ν) : { c with transaction := .running view' }.fail name = c.fail name := by
  simp only [Connection.fail, h]

theorem refines_execute (name : ν) (m : StateT δ (Except η) α) :
    Refines d [name] (execute d name m) m := by
  intro c view h
  have hrun : (execute d name m).run c = execute d name m c := rfl
  simp only [List.mem_singleton, forall_eq, exists_eq_left, hrun, execute, h]
  cases hfault : d.fault name with
  | some e => exact Or.inr ⟨e, Or.inl hfault, rfl⟩
  | none =>
    cases hm : m view with
    | ok r => exact Or.inl ⟨r.1, r.2, rfl, rfl, rfl⟩
    | error e => exact Or.inr ⟨d.rejected e, Or.inr ⟨e, hm, rfl⟩, rfl⟩

theorem refines_pure (a : α) : Refines d [] (pure a) (pure a : StateT δ (Except η) α) := by
  intro c view h
  refine Or.inl ⟨a, view, rfl, fun n hn => absurd hn List.not_mem_nil, ?_⟩
  rw [Comp.run_pure, ← h]

theorem bind_eq_of_ok {m : StateT δ (Except η) α} {g : α → StateT δ (Except η) β} {view view' : δ}
    {a : α} (h : m view = .ok (a, view')) : (m >>= g) view = g a view' := by
  show (m view >>= fun r => g r.1 r.2) = _
  rw [h]
  rfl

theorem Fails.of_bind {name : ν} {m : StateT δ (Except η) α} {g : α → StateT δ (Except η) β}
    {view : δ} {e : ε} (h : Fails d name m view e) : Fails d name (m >>= g) view e := by
  rcases h with hfault | ⟨e', hm, he⟩
  · exact Or.inl hfault
  · refine Or.inr ⟨e', ?_, he⟩
    show (m view >>= fun r => g r.1 r.2) = _
    rw [hm]
    rfl

theorem Refines.bind {names names' : List ν} {x : Comp ε (Connection δ ν) α}
    {m : StateT δ (Except η) α} {f : α → Comp ε (Connection δ ν) β}
    {g : α → StateT δ (Except η) β} (hx : Refines d names x m)
    (hf : ∀ a, Refines d names' (f a) (g a)) :
    Refines d (names ++ names') (x >>= f) (m >>= g) := by
  intro c view h
  rcases hx c view h with ⟨a, view', hm, hnames, hrun⟩ | ⟨e, n, hn, hfails, hrun⟩
  · have hbind := bind_eq_of_ok (g := g) hm
    rcases hf a { c with transaction := .running view' } view' rfl with
      ⟨b, view'', hg, hnames', hrun'⟩ | ⟨e, n, hn, hfails, hrun'⟩
    · refine Or.inl ⟨b, view'', hbind.trans hg, ?_, (Comp.run_bind_ok hrun).trans hrun'⟩
      intro n hn
      exact (List.mem_append.1 hn).elim (hnames n) (hnames' n)
    · refine Or.inr ⟨e, n, List.mem_append_right _ hn, ?_, ?_⟩
      · simpa only [Fails, hbind] using hfails
      · rw [Comp.run_bind_ok hrun, hrun', fail_running h]
  · exact Or.inr ⟨e, n, List.mem_append_left _ hn, hfails.of_bind, Comp.run_bind_error hrun⟩

/-! ## Whole transactions -/

theorem run_start (d : Driver ε η ν) (name : ν) {c : Connection δ ν}
    (h : c.transaction = .none) :
    (start d name).run c =
      match d.fault name with
      | some e => (.error e, c.fail name)
      | none => (.ok (), { c with transaction := .running c.committed }) := by
  show start d name c = _
  simp only [start, h]

theorem run_commit (d : Driver ε η ν) (name : ν) {c : Connection δ ν} {view : δ}
    (h : c.transaction = .running view) :
    (commit d name).run c =
      match d.fault name with
      | some e => (.error e, { c with transaction := .none, failed := c.failed ++ [name] })
      | none =>
        (.ok (), { c with
          committed := view, past := c.committed :: c.past, transaction := .none }) := by
  show commit d name c = _
  simp only [commit, h]

/-- **Transactions.** What the program does is committed at once, or one statement fails and
    nothing is. -/
theorem run_transaction {names : List ν} {x : Comp ε (Connection δ ν) α}
    {m : StateT δ (Except η) α} (h : Refines d names x m) (begins commits : ν)
    {c : Connection δ ν} (hc : c.transaction = .none) :
    (∃ a db, m c.committed = .ok (a, db) ∧
      (∀ n ∈ begins :: (names ++ [commits]), d.fault n = none) ∧
      (transaction d begins commits x).run c =
        (.ok a, { c with committed := db, past := c.committed :: c.past })) ∨
    ∃ e, ∃ n ∈ begins :: (names ++ [commits]), Fails d n m c.committed e ∧
      ∃ c', (transaction d begins commits x).run c = (.error e, c') ∧
        c'.committed = c.committed ∧ c'.past = c.past ∧ c'.failed = c.failed ++ [n] := by
  have hstart := run_start d begins hc
  cases hbegins : d.fault begins with
  | some e =>
    rw [hbegins] at hstart
    exact Or.inr ⟨e, begins, List.mem_cons_self, Or.inl hbegins, _, Comp.run_bind_error hstart, rfl,
      rfl, rfl⟩
  | none =>
    rw [hbegins] at hstart
    have hrest := Comp.run_bind_ok hstart
      (f := fun _ => x >>= fun a => commit d commits >>= fun _ => pure a)
    rcases h { c with transaction := .running c.committed } c.committed rfl with
      ⟨a, db, hm, hnames, hrun⟩ | ⟨e, n, hn, hfails, hrun⟩
    · have hcommit := run_commit d commits (c := { c with transaction := .running db }) rfl
      rw [Comp.run_bind_ok hrun] at hrest
      cases hcommits : d.fault commits with
      | some e =>
        rw [hcommits] at hcommit
        rw [Comp.run_bind_error hcommit] at hrest
        exact Or.inr ⟨e, commits, by simp, Or.inl hcommits, _, hrest, rfl, rfl, rfl⟩
      | none =>
        rw [hcommits] at hcommit
        rw [Comp.run_bind_ok hcommit] at hrest
        refine Or.inl ⟨a, db, hm, ?_, ?_⟩
        · simp only [List.forall_mem_cons, List.forall_mem_append, List.not_mem_nil,
            false_implies, implies_true, and_true]
          exact ⟨hbegins, hnames, hcommits⟩
        · rw [hc]
          exact hrest
    · rw [Comp.run_bind_error hrun] at hrest
      exact Or.inr ⟨e, n, List.mem_cons_of_mem _ (List.mem_append_left _ hn), hfails, _, hrest, rfl,
        rfl, rfl⟩

end Statements

end Atomic

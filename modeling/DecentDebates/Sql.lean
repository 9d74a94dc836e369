import DecentDebates.Schema

set_option autoImplicit false

/-! # Statements, parameters and transactions

A statement is a state transformer that may fail, and a transaction a sequence of statements. A
failing statement discards the state, so a transaction either commits as a whole or leaves the
tables as they were (`ROLLBACK`, `Sql.commit`). PostgreSQL does not roll sequences back; such gaps
are a step of the system of their own (`Call.skipIds`).

Parameters are checked as PostgreSQL checks them when it binds or plans a statement, whether or
not a row is touched. -/

namespace DecentDebates

open Relational

/-- A number as node-postgres sends it: the text of an integer, or a text that the input function
    of `int4` rejects (NaN, an infinity, a fraction, a string that is no number). -/
inductive JsNumber where
  | int (n : Int)
  | other
deriving DecidableEq, Repr

inductive SqlError where
  | invalidText
  | outOfRange
  | valueTooLong (limit : Nat)
  | notNullViolation
  | uniqueViolation
  | foreignKeyViolation (constraint : String)
  | sequenceLimit
deriving DecidableEq, Repr

abbrev Sql := StateT Database (Except SqlError)

/-! ## Parameters -/

def int4Min : Int := -2147483648
def int4Max : Int := 2147483647

/-- The values of a column of type `int`. -/
def IsInt4 (n : Int) : Prop := int4Min ≤ n ∧ n ≤ int4Max

instance (n : Int) : Decidable (IsInt4 n) := inferInstanceAs (Decidable (_ ∧ _))

def int4 : JsNumber → Except SqlError Int
  | .int n => if IsInt4 n then .ok n else .error .outOfRange
  | .other => .error .invalidText

/-- A parameter that may be null or undefined. -/
def nullable {α β : Type} (f : α → Except SqlError β) : Option α → Except SqlError (Option β)
  | none => .ok none
  | some a => (f a).map some

def nullableInt4 : Option JsNumber → Except SqlError (Option Int) := nullable int4

/-- A text the server can store: it has no NUL character. -/
def IsText (s : String) : Prop := '\x00' ∉ s.toList

instance (s : String) : Decidable (IsText s) := inferInstanceAs (Decidable (_ ∉ _))

def text (s : String) : Except SqlError String :=
  if IsText s then .ok s else .error .invalidText

/-- Assignment to `varchar(n)`: excess characters are an error unless they are all spaces, which
    are cut off. -/
def varchar (n : Nat) (s : String) : Except SqlError String :=
  if ¬ IsText s then .error .invalidText
  else if s.length ≤ n then .ok s
  else if (s.toList.drop n).all (· = ' ') then .ok (String.ofList (s.toList.take n))
  else .error (.valueTooLong n)

def notNull {α : Type} : Option α → Except SqlError α
  | some a => .ok a
  | none => .error .notNullViolation

def boardListType (s : String) : Except SqlError BoardList :=
  match BoardList.ofLabel? s with
  | some b => .ok b
  | none => .error .invalidText

def argumentType (s : String) : Except SqlError ArgumentType :=
  match ArgumentType.ofLabel? s with
  | some t => .ok t
  | none => .error .invalidText

@[simp] theorem int4_int {n m : Int} : int4 (.int n) = .ok m ↔ IsInt4 n ∧ n = m := by
  simp only [int4]
  split <;> simp_all

@[simp] theorem int4_other {m : Int} : int4 .other ≠ .ok m := by simp [int4]

theorem int4_eq_ok {x : JsNumber} {n : Int} : int4 x = .ok n ↔ x = .int n ∧ IsInt4 n := by
  cases x with
  | int m =>
    rw [int4_int, JsNumber.int.injEq]
    constructor
    · rintro ⟨hm, rfl⟩
      exact ⟨rfl, hm⟩
    · rintro ⟨rfl, hm⟩
      exact ⟨hm, rfl⟩
  | other => simp

theorem nullableInt4_eq_ok_some {x : Option JsNumber} {n : Int} :
    nullableInt4 x = .ok (some n) ↔ x = some (.int n) ∧ IsInt4 n := by
  cases x with
  | none => simp [nullableInt4, nullable]
  | some x =>
    rw [Option.some.injEq, ← int4_eq_ok]
    cases hx : int4 x <;> simp [nullableInt4, nullable, hx, Except.map]

theorem ofLabel?_eq_some {s : String} {b : BoardList} :
    BoardList.ofLabel? s = some b ↔ b.label = s := by
  constructor
  · intro h
    simpa using List.find?_some h
  · rintro rfl
    cases b <;> decide

@[simp] theorem boardListType_eq_ok {s : String} {b : BoardList} :
    boardListType s = .ok b ↔ b.label = s := by
  rw [← ofLabel?_eq_some]
  simp only [boardListType]
  split <;> simp_all

theorem boardList_label_inj {b b' : BoardList} : b.label = b'.label ↔ b = b' := by
  cases b <;> cases b' <;> decide

@[simp] theorem label_eq_pending {b : BoardList} : b.label = "PENDING" ↔ b = .pending :=
  @boardList_label_inj b .pending

@[simp] theorem label_eq_accepted {b : BoardList} : b.label = "ACCEPTED" ↔ b = .accepted :=
  @boardList_label_inj b .accepted

theorem except_bind_eq_ok {ε α β : Type} {x : Except ε α} {f : α → Except ε β} {b : β} :
    (x >>= f) = .ok b ↔ ∃ a, x = .ok a ∧ f a = .ok b := by
  cases x <;> simp [bind, Except.bind]

/-- A list of parameters is checked parameter by parameter. -/
theorem mapM_eq_ok {ε α β : Type} {f : α → Except ε β} {xs : List α} {ys : List β} :
    xs.mapM f = .ok ys ↔ List.Forall₂ (fun x y => f x = .ok y) xs ys := by
  induction xs generalizing ys with
  | nil =>
    rw [List.mapM_nil, List.forall₂_nil_left_iff]
    exact ⟨fun h => (Except.ok.inj h).symm, fun h => h ▸ rfl⟩
  | cons x xs ih =>
    simp only [List.mapM_cons, except_bind_eq_ok, ih, List.forall₂_cons_left_iff]
    constructor
    · rintro ⟨y, hy, ys', hys, h⟩
      exact ⟨y, ys', hy, hys, (Except.ok.inj h).symm⟩
    · rintro ⟨y, ys', hy, hys, rfl⟩
      exact ⟨y, hy, ys', hys, rfl⟩

@[simp] theorem argumentType_label (t : ArgumentType) : argumentType t.label = .ok t := by
  cases t <;> rfl

/-- A title that fits the column and differs from the given one. -/
def otherTitle (title : String) : String := if title = "a" then "b" else "a"

theorem otherTitle_ne (title : String) : otherTitle title ≠ title := by
  unfold otherTitle
  by_cases h : title = "a"
  · rw [if_pos h, h]
    decide
  · rw [if_neg h]
    exact Ne.symm h

theorem otherTitle_ne_empty (title : String) : otherTitle title ≠ "" := by
  unfold otherTitle
  split <;> decide

theorem varchar_otherTitle (title : String) :
    varchar 80 (otherTitle title) = .ok (otherTitle title) := by
  unfold otherTitle
  split <;> decide

/-! ## Statements -/

/-- Fail unless a condition holds. -/
def check (b : Bool) (e : SqlError) : Sql Unit := fun db => if b then .ok ((), db) else .error e

/-- Run a transaction: its result and the state it committed, or the state before it. -/
def Sql.commit {α : Type} (m : Sql α) (db : Database) : Except SqlError α × Database :=
  match m db with
  | .ok (a, db') => (.ok a, db')
  | .error e => (.error e, db)

section Rules

variable {α β : Type} {db db' : Database}

theorem Sql.commit_of_ok {m : Sql α} {a : α} (h : m db = .ok (a, db')) :
    m.commit db = (.ok a, db') := by
  simp only [Sql.commit, h]

theorem Sql.commit_of_error {m : Sql α} {e : SqlError} (h : m db = .error e) :
    m.commit db = (.error e, db) := by
  simp only [Sql.commit, h]

/-- A transaction commits what its statements left, or leaves the state as it was. -/
theorem Sql.commit_cases (m : Sql α) (db : Database) :
    (∃ a db', m db = .ok (a, db') ∧ m.commit db = (.ok a, db')) ∨
      ∃ e, m db = .error e ∧ m.commit db = (.error e, db) := by
  cases h : m db with
  | error e => exact Or.inr ⟨e, rfl, commit_of_error h⟩
  | ok p => exact Or.inl ⟨p.1, p.2, rfl, commit_of_ok h⟩

theorem Sql.commit_eq_ok {m : Sql α} {a : α} :
    (m.commit db).1 = .ok a ↔ m db = .ok (a, (m.commit db).2) := by
  rcases Sql.commit_cases m db with ⟨a', db', hok, hcommit⟩ | ⟨e, herror, hcommit⟩
  · simp [hok, hcommit]
  · simp [herror, hcommit]

theorem Sql.bind_eq_ok {m : Sql α} {k : α → Sql β} {b : β} :
    (m >>= k) db = .ok (b, db') ↔ ∃ a db₁, m db = .ok (a, db₁) ∧ k a db₁ = .ok (b, db') := by
  show (m db >>= fun p => k p.1 p.2) = _ ↔ _
  cases h : m db with
  | error e => simp [bind, Except.bind]
  | ok p =>
    obtain ⟨a, db₁⟩ := p
    simp [bind, Except.bind]

@[simp] theorem Sql.pure_eq_ok {a b : α} :
    (pure a : Sql α) db = .ok (b, db') ↔ a = b ∧ db = db' := by
  show Except.ok (a, db) = .ok (b, db') ↔ _
  simp

@[simp] theorem Sql.lift_eq_ok {x : Except SqlError α} {a : α} :
    (liftM x : Sql α) db = .ok (a, db') ↔ x = .ok a ∧ db = db' := by
  show (x >>= fun a => Except.ok (a, db)) = .ok (a, db') ↔ _
  cases x <;> simp [bind, Except.bind]

@[simp] theorem Sql.check_eq_ok {b : Bool} {e : SqlError} {u : Unit} :
    check b e db = .ok (u, db') ↔ b = true ∧ db = db' := by
  cases b <;> simp [check]

@[simp] theorem Sql.get_eq_ok {db₁ : Database} :
    (get : Sql Database) db = .ok (db₁, db') ↔ db = db₁ ∧ db = db' := by
  show Except.ok (db, db) = .ok (db₁, db') ↔ _
  simp

@[simp] theorem Sql.set_eq_ok {db₁ : Database} {u : PUnit} :
    (set db₁ : Sql PUnit) db = .ok (u, db') ↔ db₁ = db' := by
  show Except.ok (PUnit.unit, db₁) = .ok (u, db') ↔ _
  simp

end Rules

end DecentDebates

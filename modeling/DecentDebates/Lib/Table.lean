import DecentDebates.Lib.Truth
import Mathlib.Data.List.Nodup

set_option autoImplicit false

/-! # Tables with a serial primary key

A `SerialTable` is a list of rows whose ids are pairwise distinct and lie below the next value of
the table's sequence, which starts at 1. These facts are fields, so a row inserted under a fresh
id, a row updated in place and a row looked up by its id need no side conditions later: `insert`
draws the next id itself and `updateWhere` only takes updates that keep the id.

Joins are nested loops over rows, as SQL states them. A join on a primary key is a lookup
(`innerJoin_rowId`, `leftJoin_rowId`), which is the form proofs work with. -/

namespace Relational

/-- Rows with an `id` column. -/
class SerialRow (ρ : Type) where
  rowId : ρ → Int

open SerialRow

/-- A table with a column `id serial primary key`. -/
@[ext]
structure SerialTable (ρ : Type) [SerialRow ρ] where
  rows : List ρ
  /-- The next value of the sequence behind the `id` column. -/
  next : Int
  pos : 0 < next
  nodup : (rows.map rowId).Nodup
  fresh : ∀ r ∈ rows, rowId r < next

namespace SerialTable

variable {ρ : Type} [SerialRow ρ]

def empty : SerialTable ρ where
  rows := []
  next := 1
  pos := by decide
  nodup := by simp
  fresh := by simp

/-- `insert into … values (default, …)`: the new row's id is the next value of the sequence. -/
def insert (t : SerialTable ρ) (mk : Int → ρ)
    (hmk : ∀ n, rowId (mk n) = n := by intro; rfl) : SerialTable ρ where
  rows := t.rows ++ [mk t.next]
  next := t.next + 1
  pos := by have := t.pos; omega
  nodup := by
    rw [List.map_append]
    refine t.nodup.append (List.nodup_singleton _) (List.disjoint_singleton.2 fun h => ?_)
    obtain ⟨r, hr, he⟩ := List.mem_map.1 h
    have := t.fresh r hr
    rw [he, hmk] at this
    omega
  fresh := by
    intro r hr
    rcases List.mem_append.1 hr with hr | hr
    · have := t.fresh r hr
      omega
    · rw [List.mem_singleton.1 hr, hmk]
      omega

/-- `update … set … where …`, for a `set` list that leaves the id alone. -/
def updateWhere (t : SerialTable ρ) (p : ρ → Bool) (f : ρ → ρ)
    (hf : ∀ r, rowId (f r) = rowId r := by intro; rfl) : SerialTable ρ where
  rows := t.rows.map fun r => if p r then f r else r
  next := t.next
  pos := t.pos
  nodup := by
    have h : (t.rows.map fun r => if p r then f r else r).map rowId = t.rows.map rowId := by
      rw [List.map_map]
      refine List.map_congr_left fun r _ => ?_
      simp only [Function.comp_apply]
      split
      · exact hf r
      · rfl
    rw [h]
    exact t.nodup
  fresh := by
    intro r hr
    obtain ⟨r', hr', rfl⟩ := List.mem_map.1 hr
    have := t.fresh r' hr'
    split
    · rwa [hf]
    · exact this

/-- Draw `n` values of the sequence without using them: a rolled back transaction leaves such a
    gap. -/
def skip (t : SerialTable ρ) (n : Nat) : SerialTable ρ where
  rows := t.rows
  next := t.next + n
  pos := by have := t.pos; omega
  nodup := t.nodup
  fresh := fun r hr => by have := t.fresh r hr; omega

/-- `insert … on conflict (id) do update set …`: `r` takes the place of a row with its id. -/
def put (t : SerialTable ρ) (r : ρ) : SerialTable ρ where
  rows := t.rows.filter (fun x => rowId x ≠ rowId r) ++ [r]
  next := max t.next (rowId r + 1)
  pos := by have := t.pos; omega
  nodup := by
    rw [List.map_append]
    refine (t.nodup.sublist (List.filter_sublist.map _)).append (List.nodup_singleton _)
      (List.disjoint_singleton.2 fun h => ?_)
    obtain ⟨x, hx, he⟩ := List.mem_map.1 h
    simpa [he] using (List.mem_filter.1 hx).2
  fresh := by
    intro x hx
    rcases List.mem_append.1 hx with hx | hx
    · have := t.fresh x (List.mem_filter.1 hx).1
      omega
    · rw [List.mem_singleton.1 hx]
      omega

def find? (t : SerialTable ρ) (id : Int) : Option ρ := t.rows.find? fun r => rowId r = id

/-! ## Membership -/

@[simp] theorem rows_empty : (empty : SerialTable ρ).rows = [] := rfl

@[simp] theorem rows_skip (t : SerialTable ρ) (n : Nat) : (t.skip n).rows = t.rows := rfl

@[simp] theorem next_updateWhere (t : SerialTable ρ) (p : ρ → Bool) (f : ρ → ρ)
    (hf : ∀ r, rowId (f r) = rowId r) : (t.updateWhere p f hf).next = t.next := rfl

@[simp] theorem next_insert (t : SerialTable ρ) (mk : Int → ρ) (hmk : ∀ n, rowId (mk n) = n) :
    (t.insert mk hmk).next = t.next + 1 := rfl

theorem rows_insert (t : SerialTable ρ) (mk : Int → ρ) (hmk : ∀ n, rowId (mk n) = n) :
    (t.insert mk hmk).rows = t.rows ++ [mk t.next] := rfl

theorem rows_updateWhere (t : SerialTable ρ) (p : ρ → Bool) (f : ρ → ρ)
    (hf : ∀ r, rowId (f r) = rowId r) :
    (t.updateWhere p f hf).rows = t.rows.map fun r => if p r then f r else r := rfl

@[simp] theorem mem_insert {t : SerialTable ρ} {mk : Int → ρ} {r : ρ}
    (hmk : ∀ n, rowId (mk n) = n := by intro; rfl) :
    r ∈ (t.insert mk hmk).rows ↔ r ∈ t.rows ∨ r = mk t.next := by
  simp [rows_insert]

theorem mem_updateWhere {t : SerialTable ρ} {p : ρ → Bool} {f : ρ → ρ} {r : ρ}
    (hf : ∀ r, rowId (f r) = rowId r := by intro; rfl) :
    r ∈ (t.updateWhere p f hf).rows ↔ ∃ r₀ ∈ t.rows, (if p r₀ then f r₀ else r₀) = r := by
  simp [rows_updateWhere]

theorem updateWhere_eq_self {t : SerialTable ρ} {p : ρ → Bool} {f : ρ → ρ}
    (hf : ∀ r, rowId (f r) = rowId r) (h : t.rows.countP p = 0) : t.updateWhere p f hf = t := by
  have hrows : (t.rows.map fun r => if p r then f r else r) = t.rows := by
    refine (List.map_congr_left fun r hr => ?_).trans (List.map_id _)
    rw [if_neg (List.countP_eq_zero.1 h r hr)]
    rfl
  cases t
  simp only [updateWhere, hrows]

theorem updateWhere_mem {t : SerialTable ρ} {p : ρ → Bool} {f : ρ → ρ} {r : ρ} (hr : r ∈ t.rows)
    (hp : p r = true) (hf : ∀ r, rowId (f r) = rowId r := by intro; rfl) :
    f r ∈ (t.updateWhere p f hf).rows :=
  (mem_updateWhere hf).2 ⟨r, hr, by simp [hp]⟩

theorem updateWhere_mem_of_not {t : SerialTable ρ} {p : ρ → Bool} {f : ρ → ρ} {r : ρ}
    (hr : r ∈ t.rows) (hp : ¬ p r = true) (hf : ∀ r, rowId (f r) = rowId r := by intro; rfl) :
    r ∈ (t.updateWhere p f hf).rows :=
  (mem_updateWhere hf).2 ⟨r, hr, by simp [hp]⟩

theorem mem_put {t : SerialTable ρ} {r x : ρ} :
    x ∈ (t.put r).rows ↔ (x ∈ t.rows ∧ rowId x ≠ rowId r) ∨ x = r := by
  simp [put]

theorem put_mem (t : SerialTable ρ) (r : ρ) : r ∈ (t.put r).rows := mem_put.2 (Or.inr rfl)

/-- Ids do not disappear. -/
theorem exists_mem_put {t : SerialTable ρ} {r x : ρ} (hx : x ∈ t.rows) :
    ∃ y ∈ (t.put r).rows, rowId y = rowId x := by
  by_cases h : rowId x = rowId r
  · exact ⟨r, put_mem t r, h.symm⟩
  · exact ⟨x, mem_put.2 (Or.inl ⟨hx, h⟩), rfl⟩

/-- A selection that leaves out the row and the row it replaces. -/
theorem filter_put {t : SerialTable ρ} {r : ρ} {p q : ρ → Bool} (hr : q r = false)
    (hold : ∀ x ∈ t.rows, rowId x = rowId r → p x = false)
    (hkeep : ∀ x ∈ t.rows, rowId x ≠ rowId r → q x = p x) :
    (t.put r).rows.filter q = t.rows.filter p := by
  simp only [put, List.filter_append, List.filter_filter, List.filter_cons, hr, List.filter_nil,
    Bool.false_eq_true, if_false, List.append_nil]
  refine List.filter_congr fun x hx => ?_
  by_cases h : rowId x = rowId r
  · simp [h, hold x hx h]
  · simp [h, hkeep x hx h]

/-! ## Rows and their ids -/

/-- Two rows with one id are one row. -/
theorem eq_of_rowId_eq {t : SerialTable ρ} {r r' : ρ} (hr : r ∈ t.rows) (hr' : r' ∈ t.rows)
    (h : rowId r = rowId r') : r = r' :=
  List.inj_on_of_nodup_map t.nodup hr hr' h

/-- An update of the row with a given id replaces that row. -/
theorem mem_updateWhere_single {t : SerialTable ρ} {p : ρ → Bool} {f : ρ → ρ} {id : Int} {r x : ρ}
    (hid : ∀ y, p y = true → rowId y = id) (hr : r ∈ t.rows) (hp : p r = true)
    (hf : ∀ r, rowId (f r) = rowId r := by intro; rfl) :
    x ∈ (t.updateWhere p f hf).rows ↔ (x ∈ t.rows ∧ x ≠ r) ∨ x = f r := by
  have hsingle : ∀ y ∈ t.rows, p y = true → y = r := fun y hy hpy =>
    eq_of_rowId_eq hy hr ((hid y hpy).trans (hid r hp).symm)
  rw [mem_updateWhere hf]
  constructor
  · rintro ⟨y, hy, rfl⟩
    by_cases hyr : y = r
    · subst hyr
      simp [hp]
    · simp [mt (hsingle y hy) hyr, hy, hyr]
  · rintro (⟨hx, hne⟩ | rfl)
    · exact ⟨x, hx, by simp [mt (hsingle x hx) hne]⟩
    · exact ⟨r, hr, by simp [hp]⟩

theorem ne_next {t : SerialTable ρ} {r : ρ} (hr : r ∈ t.rows) : rowId r ≠ t.next := by
  have := t.fresh r hr
  omega

@[simp] theorem find?_eq_some {t : SerialTable ρ} {id : Int} {r : ρ} :
    t.find? id = some r ↔ r ∈ t.rows ∧ rowId r = id := by
  constructor
  · intro h
    exact ⟨List.mem_of_find?_eq_some h, by simpa using List.find?_some h⟩
  · rintro ⟨hr, rfl⟩
    cases h : t.find? (rowId r) with
    | none => simpa using List.find?_eq_none.1 h r hr
    | some r' =>
      have hid : rowId r' = rowId r := by simpa using List.find?_some h
      rw [eq_of_rowId_eq (List.mem_of_find?_eq_some h) hr hid]

theorem find?_updateWhere (t : SerialTable ρ) (p : ρ → Bool) (f : ρ → ρ) (id : Int)
    (hf : ∀ r, rowId (f r) = rowId r := by intro; rfl) :
    (t.updateWhere p f hf).find? id = (t.find? id).map fun r => if p r then f r else r := by
  unfold find?
  rw [rows_updateWhere, List.find?_map]
  congr 2
  funext r
  simp only [Function.comp_apply]
  split
  · rw [hf]
  · rfl

@[simp] theorem find?_eq_none {t : SerialTable ρ} {id : Int} :
    t.find? id = none ↔ ∀ r ∈ t.rows, rowId r ≠ id := by
  simp [find?, List.find?_eq_none]

/-- The next id is nobody's. -/
@[simp] theorem find?_next (t : SerialTable ρ) : t.find? t.next = none :=
  find?_eq_none.2 fun _ hr => ne_next hr

theorem find?_insert_next (t : SerialTable ρ) (mk : Int → ρ) (hmk : ∀ n, rowId (mk n) = n) :
    (t.insert mk hmk).find? t.next = some (mk t.next) :=
  find?_eq_some.2 ⟨(mem_insert hmk).2 (Or.inr rfl), hmk _⟩

theorem find?_insert_of_ne {t : SerialTable ρ} {mk : Int → ρ} {id : Int} (h : id ≠ t.next)
    (hmk : ∀ n, rowId (mk n) = n := by intro; rfl) : (t.insert mk hmk).find? id = t.find? id := by
  have hnew : ¬ rowId (mk t.next) = id := by
    rw [hmk]
    exact fun he => h he.symm
  unfold find?
  rw [rows_insert, List.find?_append, List.find?_singleton]
  simp [hnew]

end SerialTable

/-! ## Joins -/

section Joins

variable {α β : Type}

/-- `xs join ys on …` -/
def innerJoin (xs : List α) (ys : List β) (on : α → β → Truth) : List (α × β) :=
  xs.flatMap fun x => (ys.filter fun y => (on x y).holds).map fun y => (x, y)

/-- `xs left join ys on …`: a row of `xs` without a partner is kept and padded with NULLs. -/
def leftJoin (xs : List α) (ys : List β) (on : α → β → Truth) : List (α × Option β) :=
  xs.flatMap fun x =>
    match ys.filter fun y => (on x y).holds with
    | [] => [(x, none)]
    | y :: rest => (y :: rest).map fun y => (x, some y)

/-- `… where …` -/
def selectWhere (p : α → Truth) (xs : List α) : List α := xs.filter fun x => (p x).holds

@[simp] theorem mem_innerJoin {xs : List α} {ys : List β} {on : α → β → Truth} {x : α} {y : β} :
    (x, y) ∈ innerJoin xs ys on ↔ x ∈ xs ∧ y ∈ ys ∧ (on x y).holds = true := by
  simp only [innerJoin, List.mem_flatMap, List.mem_map, List.mem_filter, Prod.mk.injEq]
  constructor
  · rintro ⟨x', hx, y', ⟨hy, hon⟩, rfl, rfl⟩
    exact ⟨hx, hy, hon⟩
  · rintro ⟨hx, hy, hon⟩
    exact ⟨x, hx, y, ⟨hy, hon⟩, rfl, rfl⟩

@[simp] theorem mem_selectWhere {p : α → Truth} {xs : List α} {x : α} :
    x ∈ selectWhere p xs ↔ x ∈ xs ∧ (p x).holds = true := by
  rw [selectWhere, List.mem_filter]

theorem mem_of_mem_leftJoin {xs : List α} {ys : List β} {on : α → β → Truth} {q : α × Option β}
    (h : q ∈ leftJoin xs ys on) : q.1 ∈ xs := by
  obtain ⟨x, hx, hq⟩ := List.mem_flatMap.1 h
  split at hq
  · rw [List.mem_singleton.1 hq]
    exact hx
  · obtain ⟨y, -, rfl⟩ := List.mem_map.1 hq
    exact hx

/-- A left join keeps every left row. -/
theorem exists_mem_leftJoin {xs : List α} {x : α} (hx : x ∈ xs) (ys : List β)
    (on : α → β → Truth) : ∃ y, (x, y) ∈ leftJoin xs ys on := by
  unfold leftJoin
  simp only [List.mem_flatMap]
  cases h : ys.filter fun y => (on x y).holds with
  | nil => exact ⟨none, x, hx, by simp [h]⟩
  | cons y rest => exact ⟨some y, x, hx, by simp [h]⟩

theorem nodup_innerJoin {xs : List α} {ys : List β} (hx : xs.Nodup) (hy : ys.Nodup)
    (on : α → β → Truth) : (innerJoin xs ys on).Nodup := by
  rw [innerJoin, List.nodup_flatMap]
  constructor
  · intro x _
    exact (hy.filter _).map fun y y' h => (Prod.mk.inj h).2
  · refine hx.imp fun {x x'} hne => ?_
    refine List.disjoint_left.2 ?_
    intro q hq hq'
    obtain ⟨y, -, rfl⟩ := List.mem_map.1 hq
    obtain ⟨y', -, he⟩ := List.mem_map.1 hq'
    exact hne (Prod.mk.inj he).1.symm

/-- Of a left join, the rows of one left row that have a partner. -/
theorem filter_leftJoin_left [DecidableEq α] {xs : List α} {x : α} (hx : xs.Nodup) (hmem : x ∈ xs)
    (ys : List β) (on : α → β → Truth) :
    (leftJoin xs ys on).filter (fun q => q.1 = x ∧ q.2.isSome) =
      (ys.filter fun y => (on x y).holds).map fun y => (x, some y) := by
  have hother : ∀ x' ∈ xs, x' ≠ x → (leftJoin [x'] ys on).filter
      (fun q => q.1 = x ∧ q.2.isSome) = [] := by
    intro x' _ hne
    rw [List.filter_eq_nil_iff]
    intro q hq hp
    rw [decide_eq_true_eq] at hp
    exact hne ((List.mem_singleton.1 (mem_of_mem_leftJoin hq)).symm.trans hp.1)
  have hself : (leftJoin [x] ys on).filter (fun q => q.1 = x ∧ q.2.isSome) =
      (ys.filter fun y => (on x y).holds).map fun y => (x, some y) := by
    rw [leftJoin, List.flatMap_singleton]
    cases h : ys.filter fun y => (on x y).holds with
    | nil => simp
    | cons y rest =>
      rw [List.filter_eq_self]
      intro q hq
      obtain ⟨y', -, rfl⟩ := List.mem_map.1 hq
      simp
  induction xs with
  | nil => exact absurd hmem List.not_mem_nil
  | cons x' xs ih =>
    have hsplit : leftJoin (x' :: xs) ys on = leftJoin [x'] ys on ++ leftJoin xs ys on := by
      simp [leftJoin]
    rw [hsplit, List.filter_append]
    rw [List.nodup_cons] at hx
    by_cases he : x' = x
    · subst he
      have hrest : (leftJoin xs ys on).filter (fun q => q.1 = x' ∧ q.2.isSome) = [] := by
        rw [List.filter_eq_nil_iff]
        intro q hq hp
        rw [decide_eq_true_eq] at hp
        exact hx.1 (hp.1 ▸ mem_of_mem_leftJoin hq)
      rw [hself, hrest, List.append_nil]
    · have hmem' : x ∈ xs := (List.mem_cons.1 hmem).resolve_left (Ne.symm he)
      rw [hother x' (List.mem_cons_self ..) he, List.nil_append,
        ih hx.2 hmem' fun y hy => hother y (List.mem_cons_of_mem _ hy)]

/-- A row of a left join that is not padded is a row of the inner join. -/
theorem mem_leftJoin_some {xs : List α} {ys : List β} {on : α → β → Truth} {x : α} {y : β}
    (h : (x, some y) ∈ leftJoin xs ys on) : x ∈ xs ∧ y ∈ ys ∧ (on x y).holds = true := by
  obtain ⟨x', hx', hq⟩ := List.mem_flatMap.1 h
  split at hq
  · cases List.mem_singleton.1 hq
  · next y' rest hrows =>
    obtain ⟨y'', hy, he⟩ := List.mem_map.1 hq
    obtain ⟨rfl, hsome⟩ := Prod.mk.inj he
    obtain rfl := Option.some.inj hsome
    rw [← hrows, List.mem_filter] at hy
    exact ⟨hx', hy⟩

/-- A condition on the left rows of a join is a condition on the left table. -/
theorem selectWhere_innerJoin (p : α → Truth) (xs : List α) (ys : List β) (on : α → β → Truth) :
    selectWhere (fun q => p q.1) (innerJoin xs ys on) = innerJoin (selectWhere p xs) ys on := by
  induction xs with
  | nil => rfl
  | cons x xs ih =>
    simp only [selectWhere, innerJoin, List.flatMap_cons, List.filter_append] at ih ⊢
    rw [ih, List.filter_cons, List.filter_map]
    by_cases hp : (p x).holds = true
    · simp [hp, Function.comp_def]
    · simp [hp, Function.comp_def]

theorem selectWhere_leftJoin (p : α → Truth) (xs : List α) (ys : List β) (on : α → β → Truth) :
    selectWhere (fun q => p q.1) (leftJoin xs ys on) = leftJoin (selectWhere p xs) ys on := by
  induction xs with
  | nil => rfl
  | cons x xs ih =>
    simp only [selectWhere, leftJoin, List.flatMap_cons, List.filter_append] at ih ⊢
    rw [ih, List.filter_cons]
    by_cases hp : (p x).holds = true
    · cases h : ys.filter fun y => (on x y).holds <;> simp [hp, h]
    · cases h : ys.filter fun y => (on x y).holds <;> simp [hp]

/-- An inner join does not see a change of left rows that have no partner. -/
theorem innerJoin_map_left {f : α → α} {xs : List α} {ys : List β} {on : α → β → Truth}
    (h : ∀ x ∈ xs, f x = x ∨ ∀ y, (on x y).holds = false ∧ (on (f x) y).holds = false) :
    innerJoin (xs.map f) ys on = innerJoin xs ys on := by
  unfold innerJoin
  rw [List.flatMap_map]
  refine List.flatMap_congr fun x hx => ?_
  rcases h x hx with hfx | hnone
  · rw [hfx]
  · simp [hnone]

/-- Nor of right rows that are nobody's partner. -/
theorem innerJoin_map_right {f : β → β} {xs : List α} {ys : List β} {on : α → β → Truth}
    (h : ∀ y ∈ ys, f y = y ∨ ∀ x, (on x y).holds = false ∧ (on x (f y)).holds = false) :
    innerJoin xs (ys.map f) on = innerJoin xs ys on := by
  unfold innerJoin
  refine List.flatMap_congr fun x _ => ?_
  congr 1
  induction ys with
  | nil => rfl
  | cons y ys ih =>
    rw [List.forall_mem_cons] at h
    rw [List.map_cons, List.filter_cons, List.filter_cons, ih h.2]
    rcases h.1 with hfy | hnone
    · rw [hfy]
    · simp [hnone x]

/-- Right rows that are nobody's partner may be left out. -/
theorem innerJoin_filter_right {xs : List α} {ys : List β} {on : α → β → Truth} {q : β → Bool}
    (h : ∀ x ∈ xs, ∀ y ∈ ys, (on x y).holds = true → q y = true) :
    innerJoin xs (ys.filter q) on = innerJoin xs ys on := by
  unfold innerJoin
  refine List.flatMap_congr fun x hx => ?_
  rw [List.filter_filter]
  congr 1
  refine List.filter_congr fun y hy => ?_
  cases hon : (on x y).holds with
  | false => rfl
  | true => rw [h x hx y hy hon, Bool.and_true]

variable {ρ : Type} [SerialRow ρ]

theorem filter_rowId (t : SerialTable ρ) (k : Option Int) :
    (t.rows.filter fun r => (Truth.eq k (some (rowId r))).holds) = (k.bind t.find?).toList := by
  cases k with
  | none => simp [Truth.eq, Truth.holds]
  | some i =>
    simp only [Truth.holds_eq_some, Option.some.injEq, Option.bind_some]
    cases h : t.find? i with
    | none =>
      rw [SerialTable.find?_eq_none] at h
      rw [Option.toList_none, List.filter_eq_nil_iff]
      exact fun r hr => by simpa using fun he => h r hr he.symm
    | some r =>
      obtain ⟨hr, rfl⟩ := SerialTable.find?_eq_some.1 h
      -- `r` cuts the table in two parts, and neither has another row with its id
      obtain ⟨l₁, l₂, hl⟩ := List.append_of_mem hr
      have hnd := t.nodup
      simp only [hl, List.map_append, List.map_cons] at hnd
      have hnd' := List.nodup_middle.1 hnd
      rw [List.nodup_cons] at hnd'
      have hne : ∀ x ∈ l₁ ++ l₂, rowId r ≠ rowId x := fun x hx he =>
        hnd'.1 (by rw [← List.map_append]; exact List.mem_map.2 ⟨x, hx, he.symm⟩)
      have hl₁ : l₁.filter (fun x => decide (rowId r = rowId x)) = [] := by
        rw [List.filter_eq_nil_iff]
        exact fun x hx => by simpa using hne x (List.mem_append_left _ hx)
      have hl₂ : l₂.filter (fun x => decide (rowId r = rowId x)) = [] := by
        rw [List.filter_eq_nil_iff]
        exact fun x hx => by simpa using hne x (List.mem_append_right _ hx)
      simp [hl, List.filter_append, hl₁, hl₂]

/-- A selection by id has at most one row. -/
theorem filter_single {t : SerialTable ρ} {p : ρ → Bool} {id : Int} {r : ρ}
    (hid : ∀ y, p y = true → rowId y = id) (hr : r ∈ t.rows) (hp : p r = true) :
    t.rows.filter p = [r] := by
  have hfind : t.find? id = some r := SerialTable.find?_eq_some.2 ⟨hr, hid r hp⟩
  have hfilter : t.rows.filter p =
      t.rows.filter fun y => (Truth.eq (some id) (some (rowId y))).holds := by
    refine List.filter_congr fun y hy => ?_
    rw [Truth.holds_eq_some, Bool.eq_iff_iff, decide_eq_true_eq, Option.some.injEq]
    constructor
    · exact fun hpy => (hid y hpy).symm
    · intro hy'
      rwa [SerialTable.eq_of_rowId_eq hy hr (hy'.symm.trans (hid r hp).symm)]
  rw [hfilter, filter_rowId, Option.bind_some, hfind, Option.toList_some]

/-- **A join on a primary key is a lookup.** -/
theorem innerJoin_rowId (xs : List α) (t : SerialTable ρ) (k : α → Option Int) :
    innerJoin xs t.rows (fun x r => Truth.eq (k x) (some (rowId r)))
      = xs.filterMap fun x => ((k x).bind t.find?).map fun r => (x, r) := by
  induction xs with
  | nil => rfl
  | cons x xs ih =>
    simp only [innerJoin, List.flatMap_cons] at ih ⊢
    rw [ih, filter_rowId, List.filterMap_cons]
    cases (k x).bind t.find? <;> rfl

/-- **A left join on a primary key is a lookup** that keeps the rows it does not find. -/
theorem leftJoin_rowId (xs : List α) (t : SerialTable ρ) (k : α → Option Int) :
    leftJoin xs t.rows (fun x r => Truth.eq (k x) (some (rowId r)))
      = xs.map fun x => (x, (k x).bind t.find?) := by
  induction xs with
  | nil => rfl
  | cons x xs ih =>
    simp only [leftJoin, List.flatMap_cons, List.map_cons] at ih ⊢
    rw [ih, filter_rowId]
    cases (k x).bind t.find? <;> rfl

end Joins

/-! ## Rows and the rows they are made of -/

/-- Results that keep a column of what they were made from are as distinct as this column. -/
theorem map_filterMap_sublist {α β γ : Type} {f : α → Option β} {g : β → γ} {k : α → γ}
    (h : ∀ x y, f x = some y → g y = k x) (xs : List α) :
    ((xs.filterMap f).map g).Sublist (xs.map k) := by
  induction xs with
  | nil => exact List.Sublist.slnil
  | cons x xs ih =>
    rw [List.filterMap_cons]
    cases hf : f x with
    | none => exact ih.cons (k x)
    | some y =>
      rw [List.map_cons, List.map_cons, h x y hf]
      exact ih.cons_cons (k x)

/-! ## Groups -/

/-- Each key makes one group. -/
theorem nodup_eraseDups {α : Type} [BEq α] [LawfulBEq α] (xs : List α) : xs.eraseDups.Nodup := by
  induction h : xs.length using Nat.strongRecOn generalizing xs with
  | ind n ih =>
    cases xs with
    | nil => exact List.nodup_nil
    | cons x xs =>
      rw [List.eraseDups_cons, List.nodup_cons]
      constructor
      · intro hx
        have hx' := (List.mem_filter.1 (List.mem_eraseDups.1 hx)).2
        simp at hx'
      · refine ih _ ?_ _ rfl
        rw [← h, List.length_cons]
        exact Nat.lt_succ_of_le (List.length_filter_le _ _)

end Relational

import DecentDebates.Lib.Table

set_option autoImplicit false

/-! # Tables under READ COMMITTED

Transactions that insert rows and run side by side. A statement sees the rows committed before it
started and, over them, the rows its own transaction has inserted; the rows of other open
transactions it does not see. Sequences are outside of transactions: a value that one of them has
drawn is drawn for all.

`overlay` is the table a transaction sees, `added` what a statement has inserted into it, and
`draw` what is left in the committed table of a statement that is not committed: the values of the
sequence it used up. -/

namespace Relational

open SerialRow

namespace SerialTable

variable {ρ : Type} [SerialRow ρ]

/-- The table as a transaction sees it that has inserted `own`. -/
def overlay (t : SerialTable ρ) (own : List ρ) : SerialTable ρ := own.foldl put t

/-- The rows of `t'` that `t` has not. -/
def added [DecidableEq ρ] (t t' : SerialTable ρ) : List ρ := t'.rows.filter (· ∉ t.rows)

/-- The rows of `t`, and the sequence of `t'`. -/
def draw (t t' : SerialTable ρ) : SerialTable ρ := t.skip (t'.next - t.next).toNat

/-- `t'` has the rows of `t` and new ones after them. -/
structure Extends (t t' : SerialTable ρ) : Prop where
  rows : t.rows <+: t'.rows
  next : t.next ≤ t'.next

/-! ## Growing tables -/

theorem Extends.refl (t : SerialTable ρ) : Extends t t := ⟨List.prefix_rfl, Int.le_refl _⟩

theorem Extends.trans {t₁ t₂ t₃ : SerialTable ρ} (h : Extends t₁ t₂) (h' : Extends t₂ t₃) :
    Extends t₁ t₃ := ⟨h.rows.trans h'.rows, Int.le_trans h.next h'.next⟩

theorem extends_insert (t : SerialTable ρ) (mk : Int → ρ) (hmk : ∀ n, rowId (mk n) = n) :
    Extends t (t.insert mk hmk) where
  rows := ⟨[mk t.next], rfl⟩
  next := by
    rw [next_insert]
    omega

@[simp] theorem rows_draw (t t' : SerialTable ρ) : (t.draw t').rows = t.rows := rfl

theorem next_draw {t t' : SerialTable ρ} (h : t.next ≤ t'.next) : (t.draw t').next = t'.next := by
  show t.next + ((t'.next - t.next).toNat : Int) = t'.next
  omega

theorem le_next_draw (t t' : SerialTable ρ) : t.next ≤ (t.draw t').next := by
  show t.next ≤ t.next + ((t'.next - t.next).toNat : Int)
  omega

/-- A table that has only drawn from its sequence is extended by the same tables. -/
theorem Extends.draw {t t' : SerialTable ρ} (h : Extends t t') : Extends (t.draw t') t' where
  rows := h.rows
  next := Int.le_of_eq (next_draw h.next)

/-! ## What a transaction sees -/

@[simp] theorem overlay_nil (t : SerialTable ρ) : t.overlay [] = t := rfl

theorem put_of_fresh {t : SerialTable ρ} {r : ρ} (h : ∀ x ∈ t.rows, rowId x ≠ rowId r) :
    (t.put r).rows = t.rows ++ [r] := by
  show t.rows.filter (fun x => rowId x ≠ rowId r) ++ [r] = _
  rw [List.filter_eq_self.2 fun x hx => by simpa using h x hx]

/-- Rows with ids of their own come after the committed ones. -/
theorem rows_overlay {t : SerialTable ρ} {own : List ρ} (hnodup : (own.map rowId).Nodup)
    (hfresh : ∀ r ∈ own, ∀ x ∈ t.rows, rowId x ≠ rowId r) :
    (t.overlay own).rows = t.rows ++ own := by
  induction own generalizing t with
  | nil => simp
  | cons r own ih =>
    rw [List.map_cons, List.nodup_cons] at hnodup
    have hput := put_of_fresh (hfresh r (List.mem_cons_self ..))
    show ((t.put r).overlay own).rows = _
    rw [ih hnodup.2, hput, List.append_assoc, List.singleton_append]
    intro r' hr' x hx
    rw [hput, List.mem_append, List.mem_singleton] at hx
    rcases hx with hx | rfl
    · exact hfresh r' (List.mem_cons_of_mem _ hr') x hx
    · exact fun he => hnodup.1 (List.mem_map.2 ⟨r', hr', he.symm⟩)

theorem next_overlay {t : SerialTable ρ} {own : List ρ} (h : ∀ r ∈ own, rowId r < t.next) :
    (t.overlay own).next = t.next := by
  induction own generalizing t with
  | nil => rfl
  | cons r own ih =>
    have hr := h r (List.mem_cons_self ..)
    have hput : (t.put r).next = t.next := by
      show max t.next (rowId r + 1) = t.next
      omega
    show ((t.put r).overlay own).next = t.next
    rw [ih (fun r' hr' => hput ▸ h r' (List.mem_cons_of_mem _ hr')), hput]

variable [DecidableEq ρ]

theorem added_append {t t' : SerialTable ρ} {new : List ρ} (h : t'.rows = t.rows ++ new) :
    added t t' = new := by
  have hnodup : (t.rows ++ new).Nodup := h ▸ t'.nodup.of_map _
  unfold added
  rw [h, List.filter_append, List.filter_eq_nil_iff.2 (by simp), List.nil_append,
    List.filter_eq_self]
  exact fun r hr => decide_eq_true fun hr' => (List.disjoint_of_nodup_append hnodup) hr' hr

/-- **A transaction sees what it did.** What a statement has made of a table is what its
    transaction sees afterwards. -/
theorem overlay_added {t t' : SerialTable ρ} (h : Extends t t') :
    (t.draw t').overlay (added t t') = t' := by
  obtain ⟨new, hnew⟩ := h.rows
  rw [added_append hnew.symm]
  have hids : (t.rows.map rowId ++ new.map rowId).Nodup := by
    rw [← List.map_append, hnew]
    exact t'.nodup
  have hnext := next_draw h.next
  refine SerialTable.ext ?_ ?_
  · rw [rows_overlay hids.of_append_right, rows_draw, hnew]
    intro r hr x hx he
    exact List.disjoint_of_nodup_append hids (List.mem_map.2 ⟨x, hx, rfl⟩)
      (he ▸ List.mem_map.2 ⟨r, hr, rfl⟩)
  · rw [next_overlay, hnext]
    intro r hr
    rw [hnext]
    exact t'.fresh r (hnew ▸ List.mem_append_right _ hr)

end SerialTable

end Relational

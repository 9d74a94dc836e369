import Mathlib.Algebra.GroupWithZero.Nat
import Mathlib.Tactic.Common
import Mathlib.Data.List.Induction

set_option autoImplicit false

/-! # Runs of a deterministic transition system

A system is a step function on states, driven by labels; whatever is not determined (who calls
what, with which arguments, in which order) is in the labels, so a statement about every list of
labels is a statement about every interleaving. This file has the rules that lift a fact about one
step to all runs: an invariant of every state, an invariant that holds exactly while the steps
meet a condition, and a property that was established by the last step that switched it on. -/

namespace Transition

variable {σ ℓ : Type} (step : σ → ℓ → σ)

/-- The state after a list of labels. -/
def run (s : σ) (ls : List ℓ) : σ := ls.foldl step s

/-- Every state a run visits, the first and the last included. -/
def states (s : σ) : List ℓ → List σ
  | [] => [s]
  | l :: ls => s :: states (step s l) ls

/-- Every step of a run: the state it starts from and its label. -/
def steps (s : σ) : List ℓ → List (σ × ℓ)
  | [] => []
  | l :: ls => (s, l) :: steps (step s l) ls

/-- `s` is the state after some run from `init`. -/
def Reachable (init s : σ) : Prop := ∃ ls, run step init ls = s

variable {step}

@[simp] theorem run_nil (s : σ) : run step s [] = s := rfl

@[simp] theorem run_cons (s : σ) (l : ℓ) (ls : List ℓ) :
    run step s (l :: ls) = run step (step s l) ls := rfl

@[simp] theorem run_append (s : σ) (ls ls' : List ℓ) :
    run step s (ls ++ ls') = run step (run step s ls) ls' :=
  List.foldl_append

/-- Where some labels act on a part of the state as another system does, so do runs of them. -/
theorem run_map {τ κ : Type} {part : τ → κ → τ} (embed : τ → σ) {f : κ → ℓ}
    (h : ∀ t k, step (embed t) (f k) = embed (part t k)) (t : τ) (ks : List κ) :
    run step (embed t) (ks.map f) = embed (run part t ks) := by
  induction ks generalizing t with
  | nil => rfl
  | cons k ks ih => rw [List.map_cons, run_cons, h, ih, run_cons]

theorem Reachable.next {init s : σ} (h : Reachable step init s) (l : ℓ) :
    Reachable step init (step s l) := by
  obtain ⟨ls, rfl⟩ := h
  exact ⟨ls ++ [l], by simp⟩

theorem Reachable.run {init s : σ} (h : Reachable step init s) (ls : List ℓ) :
    Reachable step init (run step s ls) := by
  obtain ⟨ls₀, rfl⟩ := h
  exact ⟨ls₀ ++ ls, by simp⟩

/-! ## Invariants -/

/-- What holds initially and is kept by every step holds after every run. -/
theorem run_invariant {I : σ → Prop} (hstep : ∀ s l, I s → I (step s l)) {s : σ} (h : I s)
    (ls : List ℓ) : I (run step s ls) := by
  induction ls generalizing s with
  | nil => exact h
  | cons l ls ih => exact ih (hstep s l h)

theorem Reachable.invariant {I : σ → Prop} {init s : σ} (hinit : I init)
    (hstep : ∀ s l, I s → I (step s l)) (h : Reachable step init s) : I s := by
  obtain ⟨ls, rfl⟩ := h
  exact run_invariant hstep hinit ls

theorem mem_states_self (s : σ) (ls : List ℓ) : s ∈ states step s ls := by
  cases ls <;> simp [states]

theorem run_mem_states (s : σ) (ls : List ℓ) : run step s ls ∈ states step s ls := by
  induction ls generalizing s with
  | nil => simp [states]
  | cons l ls ih => exact List.mem_cons_of_mem _ (ih _)

/-- `I` holds in every state of a run exactly when every step of the run meets `C`, provided that
    is so for each single step. `J` is what is already known of every state. -/
theorem states_iff_steps {I J : σ → Prop} {C : σ → ℓ → Prop}
    (hJ : ∀ s l, J s → J (step s l)) (hstep : ∀ s l, J s → I s → (I (step s l) ↔ C s l))
    {s : σ} (hs : J s) (hI : I s) (ls : List ℓ) :
    (∀ x ∈ states step s ls, I x) ↔ ∀ p ∈ steps step s ls, C p.1 p.2 := by
  induction ls generalizing s with
  | nil => simpa [states, steps] using hI
  | cons l ls ih =>
    simp only [states, steps, List.forall_mem_cons, hI, true_and]
    constructor
    · intro h
      have hI' : I (step s l) := h _ (mem_states_self _ _)
      exact ⟨(hstep s l hs hI).1 hI', (ih (hJ s l hs) hI').1 h⟩
    · rintro ⟨hC, h⟩
      have hI' : I (step s l) := (hstep s l hs hI).2 hC
      exact (ih (hJ s l hs) hI').2 h

/-- `I` holds after a run exactly when it held before and every step meets `C`, provided that is so
    for each single step: what a step breaks is never mended. -/
theorem run_iff_steps {I J : σ → Prop} {C : σ → ℓ → Prop} (hJ : ∀ s l, J s → J (step s l))
    (hstep : ∀ s l, J s → (I (step s l) ↔ I s ∧ C s l)) {s : σ} (hs : J s) (ls : List ℓ) :
    I (run step s ls) ↔ I s ∧ ∀ p ∈ steps step s ls, C p.1 p.2 := by
  induction ls generalizing s with
  | nil => simp [steps]
  | cons l ls ih =>
    rw [run_cons, ih (hJ s l hs), hstep s l hs]
    simp only [steps, List.forall_mem_cons, and_assoc]

/-- Two step conditions that agree wherever `J` holds agree on every run. -/
theorem steps_congr {J : σ → Prop} {P C : σ → ℓ → Prop} (hJ : ∀ s l, J s → J (step s l))
    (hstep : ∀ s l, J s → (P s l ↔ C s l)) {s : σ} (hs : J s) (ls : List ℓ) :
    (∀ p ∈ steps step s ls, P p.1 p.2) ↔ ∀ p ∈ steps step s ls, C p.1 p.2 := by
  induction ls generalizing s with
  | nil => simp [steps]
  | cons l ls ih =>
    simp only [steps, List.forall_mem_cons]
    exact and_congr (hstep s l hs) (ih (hJ s l hs))

/-- An invariant that a step keeps whenever it meets `C` holds before every step of a run whose
    steps all do. -/
theorem steps_invariant_of_steps {I : σ → Prop} {C : σ → ℓ → Prop}
    (hstep : ∀ s l, I s → C s l → I (step s l)) {s : σ} (h : I s) {ls : List ℓ}
    (hC : ∀ p ∈ steps step s ls, C p.1 p.2) : ∀ p ∈ steps step s ls, I p.1 := by
  induction ls generalizing s with
  | nil => simp [steps]
  | cons l ls ih =>
    simp only [steps, List.forall_mem_cons] at hC ⊢
    exact ⟨h, ih (hstep s l h hC.1) hC.2⟩

/-- And in every state it visits. -/
theorem states_invariant_of_steps {I : σ → Prop} {C : σ → ℓ → Prop}
    (hstep : ∀ s l, I s → C s l → I (step s l)) {s : σ} (h : I s) {ls : List ℓ}
    (hC : ∀ p ∈ steps step s ls, C p.1 p.2) : ∀ x ∈ states step s ls, I x := by
  induction ls generalizing s with
  | nil => simpa [states] using h
  | cons l ls ih =>
    simp only [steps, states, List.forall_mem_cons] at hC ⊢
    exact ⟨h, ih (hstep s l h hC.1) hC.2⟩

theorem steps_invariant {I : σ → Prop} (hstep : ∀ s l, I s → I (step s l)) {s : σ} (h : I s)
    (ls : List ℓ) : ∀ p ∈ steps step s ls, I p.1 := by
  induction ls generalizing s with
  | nil => simp [steps]
  | cons l ls ih =>
    simp only [steps, List.forall_mem_cons]
    exact ⟨h, ih (hstep s l h)⟩

theorem states_invariant {I : σ → Prop} (hstep : ∀ s l, I s → I (step s l)) {s : σ} (h : I s)
    (ls : List ℓ) : ∀ x ∈ states step s ls, I x := by
  induction ls generalizing s with
  | nil => simpa [states] using h
  | cons l ls ih =>
    simp only [states, List.forall_mem_cons]
    exact ⟨h, ih (hstep s l h)⟩

theorem exists_mem_steps {s : σ} {ls : List ℓ} {l : ℓ} (h : l ∈ ls) :
    ∃ p ∈ steps step s ls, p.2 = l := by
  induction ls generalizing s with
  | nil => simp at h
  | cons l' ls ih =>
    rcases List.mem_cons.1 h with rfl | h
    · exact ⟨(s, l), List.mem_cons_self .., rfl⟩
    · obtain ⟨p, hp, rfl⟩ := ih h
      exact ⟨p, List.mem_cons_of_mem _ hp, rfl⟩

/-- The steps of a run are the ways to cut its labels in two at a label. -/
theorem mem_steps_iff {s : σ} {ls : List ℓ} {p : σ × ℓ} :
    p ∈ steps step s ls ↔ ∃ pre post, ls = pre ++ p.2 :: post ∧ run step s pre = p.1 := by
  constructor
  · intro h
    induction ls generalizing s with
    | nil => simp [steps] at h
    | cons l ls ih =>
      rcases List.mem_cons.1 h with rfl | h
      · exact ⟨[], ls, rfl, rfl⟩
      · obtain ⟨pre, post, rfl, hrun⟩ := ih h
        exact ⟨l :: pre, post, rfl, hrun⟩
  · rintro ⟨pre, post, rfl, hrun⟩
    induction pre generalizing s with
    | nil => exact List.mem_cons.2 (Or.inl (Prod.ext hrun.symm rfl))
    | cons l pre ih => exact List.mem_cons_of_mem _ (ih hrun)

@[simp] theorem steps_append (s : σ) (ls ls' : List ℓ) :
    steps step s (ls ++ ls') = steps step s ls ++ steps step (run step s ls) ls' := by
  induction ls generalizing s with
  | nil => rfl
  | cons l ls ih => simp [steps, ih]

/-- The last step of a run. -/
theorem last_mem_steps (s : σ) (ls : List ℓ) (l : ℓ) :
    (run step s ls, l) ∈ steps step s (ls ++ [l]) := by
  rw [steps_append]
  exact List.mem_append_right _ List.mem_cons_self

/-! ## Where something comes from -/

/-- **Provenance.** What a step leaves held was held before, or is granted by the step; so what is
    held after a run was held before it, or granted by a step of it. -/
theorem held_or_granted {α : Type} {J : σ → Prop} {Held : σ → α → Prop} {Grants : σ → ℓ → α → Prop}
    (hJ : ∀ s l, J s → J (step s l))
    (hstep : ∀ s l a, J s → Held (step s l) a → Held s a ∨ Grants s l a) {s : σ} (hs : J s)
    {ls : List ℓ} {a : α} (h : Held (run step s ls) a) :
    Held s a ∨ ∃ p ∈ steps step s ls, Grants p.1 p.2 a := by
  induction ls using List.reverseRecOn with
  | nil => exact Or.inl h
  | append_singleton ls l ih =>
    rw [run_append, run_cons, run_nil] at h
    rw [steps_append]
    rcases hstep _ l a (run_invariant hJ hs ls) h with h | h
    · refine (ih h).imp_right ?_
      rintro ⟨p, hp, hgrants⟩
      exact ⟨p, List.mem_append_left _ hp, hgrants⟩
    · exact Or.inr ⟨_, List.mem_append_right _ List.mem_cons_self, h⟩

/-! ## Bringing something to its end -/

/-- What the steps with some labels leave as it is, their runs leave as it is. -/
theorem run_iff_of_forall {P : σ → Prop} {C : ℓ → Prop}
    (h : ∀ s l, C l → (P (step s l) ↔ P s)) {ls : List ℓ} (hls : ∀ l ∈ ls, C l) (s : σ) :
    P (run step s ls) ↔ P s := by
  induction ls generalizing s with
  | nil => exact Iff.rfl
  | cons l ls ih =>
    obtain ⟨hl, hls⟩ := List.forall_mem_cons.1 hls
    rw [run_cons, ih hls, h s l hl]

/-- A queue whose first element can always be taken off can be emptied. -/
theorem exists_run_emptied {α : Type} {C : ℓ → Prop} (queue : σ → List α)
    (h : ∀ s a rest, queue s = a :: rest → ∃ l, C l ∧ queue (step s l) = rest) (s : σ) :
    ∃ ls : List ℓ, (∀ l ∈ ls, C l) ∧ queue (run step s ls) = [] := by
  induction hqueue : queue s generalizing s with
  | nil => exact ⟨[], fun _ hl => absurd hl List.not_mem_nil, hqueue⟩
  | cons a rest ih =>
    obtain ⟨l, hl, hrest⟩ := h s a rest hqueue
    obtain ⟨ls, hls, hrun⟩ := ih (step s l) hrest
    exact ⟨l :: ls, List.forall_mem_cons.2 ⟨hl, hls⟩, hrun⟩

/-- What does not depend on how the queue is emptied holds before exactly if it holds after. -/
theorem iff_run_emptied {α : Type} {P : σ → Prop} {C : ℓ → Prop} (queue : σ → List α)
    (hP : ∀ s l, C l → (P (step s l) ↔ P s))
    (hqueue : ∀ s a rest, queue s = a :: rest → ∃ l, C l ∧ queue (step s l) = rest) (s : σ) :
    P s ↔ ∀ ls : List ℓ, (∀ l ∈ ls, C l) → queue (run step s ls) = [] → P (run step s ls) := by
  constructor
  · exact fun h ls hls _ => (run_iff_of_forall hP hls s).2 h
  · intro h
    obtain ⟨ls, hls, hempty⟩ := exists_run_emptied queue hqueue s
    exact (run_iff_of_forall hP hls s).1 (h ls hls hempty)

/-! ## One system inside another -/

/-- If a step does to a part of the state what a step of another system does, or leaves the part
    alone, then what runs do to the part are runs of the other system. -/
theorem exists_run_of_steps {τ κ : Type} {part : τ → κ → τ} (view : σ → τ)
    (h : ∀ s l, view (step s l) = view s ∨ ∃ k, view (step s l) = part (view s) k) (s : σ)
    (ls : List ℓ) : ∃ ks, view (run step s ls) = run part (view s) ks := by
  induction ls generalizing s with
  | nil => exact ⟨[], rfl⟩
  | cons l ls ih =>
    obtain ⟨ks, hks⟩ := ih (step s l)
    rcases h s l with hl | ⟨k, hl⟩
    · exact ⟨ks, hks.trans (by rw [hl])⟩
    · exact ⟨k :: ks, hks.trans (by rw [hl, run_cons])⟩

/-! ## Counting -/

/-- The sum of a quantity over the steps of a run. -/
def total (step : σ → ℓ → σ) (w : σ → ℓ → Nat) (s : σ) (ls : List ℓ) : Nat :=
  ((steps step s ls).map fun p => w p.1 p.2).sum

theorem total_append (w : σ → ℓ → Nat) (s : σ) (ls ls' : List ℓ) :
    total step w s (ls ++ ls') = total step w s ls + total step w (run step s ls) ls' := by
  simp [total]

@[simp] theorem total_singleton (w : σ → ℓ → Nat) (s : σ) (l : ℓ) :
    total step w s [l] = w s l := by
  simp [total, steps]

/-- Two quantities have the same sum at every moment of a run exactly when every step adds the same
    to both. -/
theorem total_eq_iff {ι : Type} {w v : ι → σ → ℓ → Nat} {s : σ} {ls : List ℓ} :
    (∀ pre, pre <+: ls → ∀ i, total step (w i) s pre = total step (v i) s pre) ↔
      ∀ p ∈ steps step s ls, ∀ i, w i p.1 p.2 = v i p.1 p.2 := by
  constructor
  · rintro h ⟨x, l⟩ hp i
    obtain ⟨pre, post, rfl, rfl⟩ := mem_steps_iff.1 hp
    -- the sums before and after this step
    have hbefore := h pre (List.prefix_append _ _) i
    have hafter := h (pre ++ [l]) ⟨post, by simp⟩ i
    rw [total_append, total_append, hbefore, total_singleton, total_singleton] at hafter
    exact Nat.add_left_cancel hafter
  · rintro h pre ⟨post, rfl⟩ i
    rw [steps_append] at h
    have hmap : (steps step s pre).map (fun p => w i p.1 p.2)
        = (steps step s pre).map (fun p => v i p.1 p.2) :=
      List.map_congr_left fun p hp => h p (List.mem_append_left _ hp) i
    unfold total
    rw [hmap]

/-! ## What labels cost -/

/-- An invariant of the state and of what has been spent so far. -/
theorem run_invariant_spent {w : ℓ → Nat} {I : σ → Nat → Prop}
    (hstep : ∀ s l n, I s n → I (step s l) (n + w l)) {s : σ} {n : Nat} (h : I s n) (ls : List ℓ) :
    I (run step s ls) (n + (ls.map w).sum) := by
  induction ls generalizing s n with
  | nil => exact h
  | cons l ls ih =>
    rw [run_cons, List.map_cons, List.sum_cons, ← Nat.add_assoc]
    exact ih (hstep s l n h)

/-- Where a label costs at most one, every amount up to the whole is spent at some moment. -/
theorem exists_prefix_spent {w : ℓ → Nat} (hw : ∀ l, w l ≤ 1) {k : Nat} {ls : List ℓ}
    (hk : k ≤ (ls.map w).sum) : ∃ mid, mid <+: ls ∧ (mid.map w).sum = k := by
  induction ls generalizing k with
  | nil => exact ⟨[], List.prefix_rfl, (Nat.le_zero.1 hk).symm⟩
  | cons l ls ih =>
    rw [List.map_cons, List.sum_cons] at hk
    rcases Nat.eq_zero_or_pos k with rfl | hpos
    · exact ⟨[], List.nil_prefix, rfl⟩
    · have hl := hw l
      obtain ⟨mid, hmid, hsum⟩ := ih (k := k - w l) (by omega)
      refine ⟨l :: mid, List.cons_prefix_cons.2 ⟨rfl, hmid⟩, ?_⟩
      rw [List.map_cons, List.sum_cons, hsum]
      omega

/-! ## Since the last time -/

/-- **The last rise.** A property that holds now and did not hold at first was switched on by a
    last step, and has held in every state since. -/
theorem exists_last_rise {On : σ → Prop} {s : σ} (h0 : ¬ On s) {ls : List ℓ}
    (h : On (run step s ls)) :
    ∃ pre l post, ls = pre ++ l :: post ∧ ¬ On (run step s pre) ∧
      ∀ mid, mid <+: post → On (run step s (pre ++ l :: mid)) := by
  -- from the end of the run: if it was on before the last step, its last rise is the earlier one
  induction ls using List.reverseRecOn with
  | nil => exact absurd h h0
  | append_singleton ls l ih =>
    by_cases hls : On (run step s ls)
    · obtain ⟨pre, l', post, rfl, hpre, hpost⟩ := ih hls
      refine ⟨pre, l', post ++ [l], by simp, hpre, fun mid hmid => ?_⟩
      rcases List.prefix_concat_iff.1 hmid with rfl | hmid
      · simpa using h
      · exact hpost mid hmid
    · refine ⟨ls, l, [], rfl, hls, fun mid hmid => ?_⟩
      rw [List.prefix_nil.1 hmid]
      exact h

end Transition

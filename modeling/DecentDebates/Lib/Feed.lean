import DecentDebates.Lib.Transition
import Mathlib.Data.Multiset.AddSub

set_option autoImplicit false

/-! # A list that is fetched once and pushed to

Items are stored one after another, and each of them is announced after it has been stored. A
viewer asks once for what is stored and replaces its list by the answer; what is announced while it
listens is sent to it, and it appends what it receives. The answer and the announcements have no
common cursor, so an item can come twice or not at all. `Keeps` says which events cause neither, and
`onTrack_step_iff` that no other event will do. -/

namespace Feed

open Transition

variable {α : Type} [DecidableEq α]

/-- A request, its answer on the way, or neither any more. -/
inductive Fetch (β : Type) where
  | asked
  | answered (answer : β)
  | loaded
deriving DecidableEq

def Fetch.map {β γ : Type} (f : β → γ) : Fetch β → Fetch γ
  | asked => asked
  | answered answer => answered (f answer)
  | loaded => loaded

structure State (α : Type) where
  stored : Multiset α
  /-- Stored and not announced yet. -/
  unannounced : Multiset α
  /-- Sent to the viewer and not received yet. -/
  queue : Multiset α
  fetch : Fetch (Multiset α)
  shown : Multiset α

inductive Event (α : Type) where
  | store (a : α)
  | announce (a : α) (heard : Bool)
  | read
  | load
  | receive (a : α)

def step (s : State α) : Event α → State α
  | .store a =>
    if a ∈ s.stored then s
    else { s with stored := a ::ₘ s.stored, unannounced := a ::ₘ s.unannounced }
  | .announce a heard =>
    if a ∈ s.unannounced then
      { s with
        unannounced := s.unannounced.erase a
        queue := if heard then a ::ₘ s.queue else s.queue }
    else s
  | .read =>
    match s.fetch with
    | .asked => { s with fetch := .answered s.stored }
    | _ => s
  | .load =>
    match s.fetch with
    | .answered answer => { s with fetch := .loaded, shown := answer }
    | _ => s
  | .receive a =>
    if a ∈ s.queue then { s with queue := s.queue.erase a, shown := a ::ₘ s.shown } else s

/-- Nothing has been asked for, announced or shown. -/
def init (stored : Multiset α) : State α := ⟨stored, 0, 0, .asked, 0⟩

/-- The answer is there, and nothing else is on its way. -/
structure State.Quiet (s : State α) : Prop where
  fetch : s.fetch = .loaded
  unannounced : s.unannounced = 0
  queue : s.queue = 0

def State.ShownOnce (s : State α) : Prop := ∀ a ∈ s.stored, s.shown.count a = 1

/-- The item need not be sent to the viewer. -/
def Fetch.Has (shown : Multiset α) (a : α) : Fetch (Multiset α) → Prop
  | asked => True
  | answered answer => a ∈ answer
  | loaded => a ∈ shown

/-- The item may reach the viewer now: an answer on the way will replace the list, so it must have
    the item, and later the list must not have it. -/
def Fetch.Receives (shown : Multiset α) (a : α) : Fetch (Multiset α) → Prop
  | asked => True
  | answered answer => a ∈ answer
  | loaded => a ∉ shown

/-- The event loses no item and repeats none. -/
def Keeps (s : State α) : Event α → Prop
  | .announce a heard => a ∈ s.unannounced → heard = false → s.fetch.Has s.shown a
  | .receive a => a ∈ s.queue → s.fetch.Receives s.shown a
  | _ => True

/-! ## What is on its way -/

/-- How often an item is yet to be announced or received. -/
def State.due (s : State α) (a : α) : Nat := s.unannounced.count a + s.queue.count a

/-- Every item is stored once and is due once at most, and only what is stored is answered or
    shown. -/
structure State.Sound (s : State α) : Prop where
  stored : ∀ a, s.stored.count a ≤ 1
  due : ∀ a, s.due a ≤ s.stored.count a
  answer : ∀ answer, s.fetch = .answered answer → ∀ a, answer.count a ≤ s.stored.count a
  shown : ∀ a ∈ s.shown, a ∈ s.stored

/-- Every item has been shown or will be, and none twice. -/
def Fetch.OnTrack (stored shown : Multiset α) (due : α → Nat) : Fetch (Multiset α) → Prop
  | asked => True
  | answered answer => ∀ a ∈ stored, 1 ≤ answer.count a + due a
  | loaded => (∀ a ∈ stored, shown.count a ≤ 1) ∧ ∀ a ∈ stored, 1 ≤ shown.count a + due a

def State.OnTrack (s : State α) : Prop := s.fetch.OnTrack s.stored s.shown s.due

theorem sound_init {stored : Multiset α} (h : stored.Nodup) : (init stored).Sound where
  stored := Multiset.nodup_iff_count_le_one.1 h
  due := fun a => by simp [State.due, init]
  answer := nofun
  shown := fun a ha => absurd ha (Multiset.notMem_zero a)

theorem count_erase_add {m : Multiset α} {b : α} (hb : b ∈ m) (a : α) :
    (m.erase b).count a + (if a = b then 1 else 0) = m.count a := by
  conv_rhs => rw [← Multiset.cons_erase hb, Multiset.count_cons]

theorem due_store (s : State α) (b a : α) :
    State.due { s with stored := b ::ₘ s.stored, unannounced := b ::ₘ s.unannounced } a =
      s.due a + if a = b then 1 else 0 := by
  simp only [State.due, Multiset.count_cons]
  omega

theorem due_heard {s : State α} {b : α} (hb : b ∈ s.unannounced) (a : α) :
    State.due { s with unannounced := s.unannounced.erase b, queue := b ::ₘ s.queue } a =
      s.due a := by
  have := count_erase_add hb a
  simp only [State.due, Multiset.count_cons]
  omega

theorem due_unheard {s : State α} {b : α} (hb : b ∈ s.unannounced) (a : α) :
    State.due { s with unannounced := s.unannounced.erase b } a + (if a = b then 1 else 0) =
      s.due a := by
  have := count_erase_add hb a
  simp only [State.due]
  omega

theorem due_receive {s : State α} {b : α} (hb : b ∈ s.queue) (shown : Multiset α) (a : α) :
    State.due { s with queue := s.queue.erase b, shown := shown } a + (if a = b then 1 else 0) =
      s.due a := by
  have := count_erase_add hb a
  simp only [State.due]
  omega

theorem due_pos_of_unannounced {s : State α} {a : α} (ha : a ∈ s.unannounced) : 1 ≤ s.due a := by
  have := Multiset.count_pos.2 ha
  unfold State.due
  omega

theorem due_pos_of_queue {s : State α} {a : α} (ha : a ∈ s.queue) : 1 ≤ s.due a := by
  have := Multiset.count_pos.2 ha
  unfold State.due
  omega

theorem State.Sound.mem_stored {s : State α} (h : s.Sound) {a : α} (ha : 1 ≤ s.due a) :
    a ∈ s.stored :=
  Multiset.count_pos.1 (Nat.lt_of_lt_of_le ha (h.due a))

theorem State.Sound.due_eq_one {s : State α} (h : s.Sound) {a : α} (ha : 1 ≤ s.due a) :
    s.due a = 1 :=
  Nat.le_antisymm ((h.due a).trans (h.stored a)) ha

theorem sound_step {s : State α} (h : s.Sound) (e : Event α) : (step s e).Sound := by
  cases e with
  | store b =>
    simp only [step]
    split
    · exact h
    · next hb =>
      have hzero : s.stored.count b = 0 := Multiset.count_eq_zero.2 hb
      refine ⟨fun a => ?_, fun a => ?_, fun answer hanswer a => ?_, fun a ha => ?_⟩
      · have := h.stored a
        simp only [Multiset.count_cons]
        grind
      · have := h.due a
        rw [due_store, Multiset.count_cons]
        omega
      · exact (h.answer answer hanswer a).trans (Multiset.count_le_count_cons a b _)
      · exact Multiset.mem_cons_of_mem (h.shown a ha)
  | announce b heard =>
    simp only [step]
    split
    · next hb =>
      refine ⟨h.stored, fun a => ?_, h.answer, h.shown⟩
      cases heard with
      | false =>
        have := due_unheard hb a
        have := h.due a
        simp only [if_false, Bool.false_eq_true] at *
        omega
      | true =>
        simp only [if_true]
        rw [due_heard hb a]
        exact h.due a
    · exact h
  | read =>
    simp only [step]
    split
    · refine { h with answer := fun answer hanswer a => ?_ }
      cases hanswer
      exact Nat.le_refl _
    · exact h
  | load =>
    simp only [step]
    split
    · next answer hanswer =>
      refine ⟨h.stored, h.due, nofun, fun a ha => ?_⟩
      have := Multiset.count_pos.2 ha
      exact Multiset.count_pos.1 (Nat.lt_of_lt_of_le this (h.answer answer hanswer a))
    · exact h
  | receive b =>
    simp only [step]
    split
    · next hb =>
      refine ⟨h.stored, fun a => ?_, h.answer, fun a ha => ?_⟩
      · exact (Nat.le_of_add_right_le (due_receive hb (b ::ₘ s.shown) a).le).trans (h.due a)
      · rcases Multiset.mem_cons.1 ha with rfl | ha
        · exact h.mem_stored (due_pos_of_queue hb)
        · exact h.shown a ha
    · exact h

/-! ## What an event does to what is on track -/

section

variable {stored shown : Multiset α} {due due' : α → Nat} {b : α} {fetch : Fetch (Multiset α)}

theorem onTrack_store (hb : b ∉ stored) (hshown : b ∉ shown)
    (hdue : ∀ a, due' a = due a + if a = b then 1 else 0) :
    fetch.OnTrack (b ::ₘ stored) shown due' ↔ fetch.OnTrack stored shown due := by
  have hnew : ∀ a ∈ stored, due' a = due a := fun a ha => by
    rw [hdue, if_neg (ne_of_mem_of_not_mem ha hb), Nat.add_zero]
  have hpos : 1 ≤ due' b := by
    rw [hdue, if_pos rfl]
    omega
  cases fetch with
  | asked => rfl
  | answered answer =>
    simp only [Fetch.OnTrack, Multiset.forall_mem_cons]
    refine (and_iff_right (by omega)).trans (forall₂_congr fun a ha => ?_)
    rw [hnew a ha]
  | loaded =>
    have hzero : shown.count b ≤ 1 := by
      rw [Multiset.count_eq_zero.2 hshown]
      omega
    simp only [Fetch.OnTrack, Multiset.forall_mem_cons]
    refine and_congr (and_iff_right hzero) ((and_iff_right (by omega)).trans ?_)
    exact forall₂_congr fun a ha => by rw [hnew a ha]

/-- An item that is not due any more has to be there. -/
theorem forall_covered_iff (hb : b ∈ stored)
    (hdue : ∀ a, due' a + (if a = b then 1 else 0) = due a) (hone : due b = 1) (m : Multiset α) :
    (∀ a ∈ stored, 1 ≤ m.count a + due' a) ↔
      (∀ a ∈ stored, 1 ≤ m.count a + due a) ∧ b ∈ m := by
  rw [← Multiset.one_le_count_iff_mem]
  constructor
  · intro h
    refine ⟨fun a ha => ?_, ?_⟩
    · have := h a ha
      have := hdue a
      omega
    · have := h b hb
      have := hdue b
      rw [if_pos rfl] at this
      omega
  · rintro ⟨h, hthere⟩ a ha
    by_cases hab : a = b
    · subst hab
      omega
    · have := h a ha
      have := hdue a
      rw [if_neg hab] at this
      omega

theorem onTrack_unheard (hb : b ∈ stored)
    (hdue : ∀ a, due' a + (if a = b then 1 else 0) = due a) (hone : due b = 1) :
    fetch.OnTrack stored shown due' ↔ fetch.OnTrack stored shown due ∧ fetch.Has shown b := by
  have hcovered := forall_covered_iff hb hdue hone
  cases fetch with
  | asked => exact (and_iff_left trivial).symm
  | answered answer => exact hcovered answer
  | loaded => exact (and_congr_right fun _ => hcovered shown).trans and_assoc.symm

theorem onTrack_receive (hb : b ∈ stored)
    (hdue : ∀ a, due' a + (if a = b then 1 else 0) = due a) (hone : due b = 1) :
    fetch.OnTrack stored (b ::ₘ shown) due' ↔
      fetch.OnTrack stored shown due ∧ fetch.Receives shown b := by
  cases fetch with
  | asked => exact (and_iff_left trivial).symm
  | answered answer => exact forall_covered_iff hb hdue hone answer
  | loaded =>
    have hsum : ∀ a, (b ::ₘ shown).count a + due' a = shown.count a + due a := fun a => by
      have := hdue a
      rw [Multiset.count_cons]
      omega
    simp only [Fetch.OnTrack, Fetch.Receives, hsum, and_right_comm (b := ∀ a ∈ stored, _)]
    refine and_congr_left fun _ => ?_
    rw [← Multiset.count_eq_zero]
    constructor
    · intro h
      refine ⟨fun a ha => (Multiset.count_le_count_cons a b shown).trans (h a ha), ?_⟩
      have := h b hb
      rw [Multiset.count_cons_self] at this
      omega
    · rintro ⟨h, hzero⟩ a ha
      have := h a ha
      rw [Multiset.count_cons]
      grind

end

/-- **The step lemma.** Every item is on track after an event exactly when it was before and the
    event keeps it so: what is lost or repeated stays so. -/
theorem onTrack_step_iff {s : State α} (h : s.Sound) (e : Event α) :
    (step s e).OnTrack ↔ s.OnTrack ∧ Keeps s e := by
  cases e with
  | store b =>
    simp only [step, Keeps, and_true]
    split
    · rfl
    · next hb => exact onTrack_store hb (fun hs => hb (h.shown b hs)) (due_store s b)
  | announce b heard =>
    simp only [step, Keeps]
    split
    · next hb =>
      have hone := h.due_eq_one (due_pos_of_unannounced hb)
      have hstored := h.mem_stored (due_pos_of_unannounced hb)
      cases heard with
      | true =>
        have hdue := funext (due_heard hb)
        simpa [State.OnTrack] using iff_of_eq (congrArg (s.fetch.OnTrack s.stored s.shown) hdue)
      | false =>
        refine (onTrack_unheard hstored (due_unheard hb) hone).trans (and_congr_right fun _ => ?_)
        simp [hb]
    · next hb => simp [hb]
  | read =>
    simp only [step, Keeps, and_true]
    split
    · next hf =>
      simp only [State.OnTrack, hf, Fetch.OnTrack, iff_true]
      intro a ha
      have := Multiset.count_pos.2 ha
      omega
    · rfl
  | load =>
    simp only [step, Keeps, and_true]
    split
    · next answer hf =>
      simp only [State.OnTrack, hf, Fetch.OnTrack]
      exact and_iff_right fun a _ => (h.answer answer hf a).trans (h.stored a)
    · rfl
  | receive b =>
    simp only [step, Keeps]
    split
    · next hb =>
      have hone := h.due_eq_one (due_pos_of_queue hb)
      have hstored := h.mem_stored (due_pos_of_queue hb)
      refine (onTrack_receive hstored (due_receive hb _) hone).trans (and_congr_right fun _ => ?_)
      simp [hb]
    · next hb => simp [hb]

/-- When nothing is on its way, the items on track are those that are shown once. -/
theorem State.Quiet.onTrack_iff {s : State α} (h : s.Quiet) : s.OnTrack ↔ s.ShownOnce := by
  simp only [State.OnTrack, h.fetch, Fetch.OnTrack, State.due, h.unannounced, h.queue,
    Multiset.count_zero, Nat.add_zero, State.ShownOnce, ← forall₂_and]
  exact forall₂_congr fun a _ => by omega

end Feed

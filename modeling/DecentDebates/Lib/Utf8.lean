import Mathlib.Tactic.Common

set_option autoImplicit false

/-! # Decoding UTF-8

Bytes are numbers below 256. A decoder that never fails writes U+FFFD for a sequence that breaks
off, and goes on with the byte that broke it. So each sequence that is not one ASCII byte costs
the text a character of those that a byte alone could stand for: it becomes one character for
several bytes, or a U+FFFD (`countP_decode_lt`). -/

namespace Utf8

def replacement : Char := '\uFFFD'

/-- A sequence that has begun: how many bytes it lacks, the bounds of the next one, and the bits so
    far. The bounds leave out the forms that are longer than they have to be. -/
structure Pending where
  lacks : Nat
  lower : Nat
  upper : Nat
  bits : Nat
  tail : 0x80 ≤ lower
  shortest : 2 ≤ if lacks = 1 then bits else bits * 64 + (lower - 0x80)

/-- What the first byte of a longer sequence begins. -/
def lead (b : Nat) : Option Pending :=
  if h : 0xC2 ≤ b ∧ b ≤ 0xDF then some ⟨1, 0x80, 0xBF, b - 0xC0, by decide, by simp; omega⟩
  else if b = 0xE0 then some ⟨2, 0xA0, 0xBF, 0, by decide, by decide⟩
  else if b = 0xED then some ⟨2, 0x80, 0x9F, 0xD, by decide, by decide⟩
  else if h : 0xE1 ≤ b ∧ b ≤ 0xEF then some ⟨2, 0x80, 0xBF, b - 0xE0, by decide, by simp; omega⟩
  else if b = 0xF0 then some ⟨3, 0x90, 0xBF, 0, by decide, by decide⟩
  else if h : 0xF1 ≤ b ∧ b ≤ 0xF3 then some ⟨3, 0x80, 0xBF, b - 0xF0, by decide, by simp; omega⟩
  else if b = 0xF4 then some ⟨3, 0x80, 0x8F, 4, by decide, by decide⟩
  else none

/-- A byte between two sequences: what is written, and the sequence that begins. -/
def start (b : Nat) : List Char × Option Pending :=
  if b < 0x80 then ([Char.ofNat b], none)
  else match lead b with
    | some p => ([], some p)
    | none => ([replacement], none)

/-- A byte that belongs to a sequence. -/
def Pending.next (p : Pending) (b : Nat) (h : p.lower ≤ b) : List Char × Option Pending :=
  let bits := p.bits * 64 + (b - 0x80)
  if hlacks : p.lacks = 1 then ([Char.ofNat bits], none)
  else ([], some ⟨p.lacks - 1, 0x80, 0xBF, bits, Nat.le_refl _, by
    have := p.shortest
    rw [if_neg hlacks] at this
    split <;> omega⟩)

def step (st : Option Pending) (b : Nat) : List Char × Option Pending :=
  match st with
  | none => start b
  | some p =>
    if h : p.lower ≤ b ∧ b ≤ p.upper then p.next b h.1
    else (replacement :: (start b).1, (start b).2)

def decodeFrom (st : Option Pending) : List Nat → List Char
  | [] => if st.isSome then [replacement] else []
  | b :: bs => (step st b).1 ++ decodeFrom (step st b).2 bs

def decode (bs : List Nat) : List Char := decodeFrom none bs

/-! ## ASCII bytes -/

theorem start_of_lt {b : Nat} (h : b < 0x80) : start b = ([Char.ofNat b], none) := if_pos h

/-- An ASCII byte ends whatever has begun. -/
theorem step_of_lt (st : Option Pending) {b : Nat} (h : b < 0x80) :
    step st b = (decodeFrom st [] ++ [Char.ofNat b], none) := by
  cases st with
  | none => exact start_of_lt h
  | some p =>
    have hlow : ¬ (p.lower ≤ b ∧ b ≤ p.upper) := by
      have := p.tail
      omega
    rw [step, dif_neg hlow, start_of_lt h]
    rfl

theorem decodeFrom_ascii (st : Option Pending) {b : Nat} (h : b < 0x80) (bs : List Nat) :
    decodeFrom st (b :: bs) = decodeFrom st [] ++ Char.ofNat b :: decode bs := by
  rw [decodeFrom.eq_2, step_of_lt st h, List.append_assoc, List.singleton_append]
  rfl

theorem decodeFrom_append_ascii (st : Option Pending) (bs : List Nat) {b : Nat} (h : b < 0x80)
    (bs' : List Nat) :
    decodeFrom st (bs ++ b :: bs') = decodeFrom st bs ++ Char.ofNat b :: decode bs' := by
  induction bs generalizing st with
  | nil => exact decodeFrom_ascii st h bs'
  | cons c bs ih => rw [List.cons_append, decodeFrom, ih, decodeFrom, List.append_assoc]

theorem decode_map_toNat {s : List Char} (h : ∀ c ∈ s, c.toNat < 0x80) :
    decode (s.map Char.toNat) = s := by
  induction s with
  | nil => rfl
  | cons c s ih =>
    rw [List.forall_mem_cons] at h
    rw [List.map_cons, decode, decodeFrom_ascii none h.1, Char.ofNat_toNat, ih h.2]
    rfl

/-- ASCII text at the end is decoded as it is. -/
theorem decode_append_map_toNat (bs : List Nat) {s : List Char} (h : ∀ c ∈ s, c.toNat < 0x80) :
    ∃ s', decode (bs ++ s.map Char.toNat) = s' ++ s := by
  cases s with
  | nil => exact ⟨decode bs, by rw [List.map_nil, List.append_nil, List.append_nil]⟩
  | cons c s =>
    rw [List.forall_mem_cons] at h
    refine ⟨decode bs, ?_⟩
    rw [List.map_cons, decode, decodeFrom_append_ascii none bs h.1, Char.ofNat_toNat,
      decode_map_toNat h.2]
    rfl

/-! ## Other bytes -/

theorem start_of_ge {b : Nat} (h : 0x80 ≤ b) :
    (start b).1 = [] ∧ (start b).2.isSome ∨ start b = ([replacement], none) := by
  rw [start, if_neg (Nat.not_lt.2 h)]
  cases lead b with
  | some p => exact Or.inl ⟨rfl, rfl⟩
  | none => exact Or.inr rfl

/-- A number that is no code point stands for U+0000. -/
theorem toNat_of_ofNat_eq {n : Nat} {c : Char} (h : Char.ofNat n = c) (hc : 0 < c.toNat) :
    n = c.toNat := by
  subst h
  unfold Char.ofNat at hc ⊢
  by_cases hn : n.isValidChar
  · rw [dif_pos hn]
    rfl
  · rw [dif_neg hn] at hc
    exact absurd hc (by decide)

theorem Pending.next_fst {p : Pending} {b : Nat} (h : p.lower ≤ b) :
    (p.next b h).1 = [] ∧ (p.next b h).2.isSome ∨
      ∃ n, 0x80 ≤ n ∧ p.next b h = ([Char.ofNat n], none) := by
  rw [Pending.next]
  split
  · next hlacks =>
    have := p.shortest
    rw [if_pos hlacks] at this
    exact Or.inr ⟨_, by omega, rfl⟩
  · exact Or.inl ⟨rfl, rfl⟩

section Count

theorem countP_start_le (f : Char → Bool) (b : Nat) : (start b).1.countP f ≤ 1 := by
  rw [start]
  split
  · exact List.countP_le_length
  · split
    · exact Nat.zero_le 1
    · exact List.countP_le_length

variable {f : Char → Bool} (hf : f replacement = false)
include hf

theorem countP_step_le (st : Option Pending) (b : Nat) : (step st b).1.countP f ≤ 1 := by
  cases st with
  | none => exact countP_start_le f b
  | some p =>
    rw [step]
    split
    · next h =>
      rcases Pending.next_fst h.1 with ⟨hnil, -⟩ | ⟨n, -, heq⟩
      · rw [hnil]
        exact Nat.zero_le 1
      · rw [heq]
        exact List.countP_le_length
    · rw [List.countP_cons_of_neg (by simp [hf])]
      exact countP_start_le f b

/-- Each byte gives at most one character that is no U+FFFD. -/
theorem countP_decodeFrom_le (st : Option Pending) (bs : List Nat) :
    (decodeFrom st bs).countP f ≤ bs.length := by
  induction bs generalizing st with
  | nil =>
    cases st with
    | none => exact Nat.le_refl _
    | some p => simp [decodeFrom, hf]
  | cons b bs ih =>
    have hstep := countP_step_le hf st b
    have hrest := ih (step st b).2
    rw [decodeFrom, List.countP_append, List.length_cons]
    omega

/-- **Where a byte is not ASCII, characters are missing.** -/
theorem countP_decode_lt {bs : List Nat} (h : ∃ b ∈ bs, 0x80 ≤ b) :
    (decode bs).countP f < bs.length := by
  induction bs with
  | nil => simp at h
  | cons b bs ih =>
    by_cases hb : b < 0x80
    · have hbs : ∃ b ∈ bs, 0x80 ≤ b := by
        obtain ⟨c, hc, hge⟩ := h
        rcases List.mem_cons.1 hc with rfl | hc
        · omega
        · exact ⟨c, hc, hge⟩
      have hrest := ih hbs
      rw [decode, decodeFrom_ascii none hb, List.length_cons]
      have hone : [Char.ofNat b].countP f ≤ 1 := List.countP_le_length
      rw [← List.singleton_append (l := decode bs), ← List.append_assoc, List.countP_append]
      simp only [decodeFrom, Option.isSome_none, Bool.false_eq_true, if_false, List.nil_append]
      omega
    · have hfirst : (start b).1.countP f = 0 := by
        rcases start_of_ge (Nat.not_lt.1 hb) with ⟨hnil, -⟩ | heq
        · rw [hnil]
          rfl
        · rw [heq]
          simp [hf]
      have hrest := countP_decodeFrom_le hf (start b).2 bs
      rw [decode, decodeFrom, step, List.countP_append, hfirst, List.length_cons]
      omega

end Count

/-- After a byte that is not ASCII, the last character is not ASCII. -/
theorem exists_decode_concat (bs : List Nat) {b : Nat} (h : 0x80 ≤ b) :
    ∃ s n, decode (bs ++ [b]) = s ++ [Char.ofNat n] ∧ 0x80 ≤ n := by
  have hstart : ∃ s n, (start b).1 ++ decodeFrom (start b).2 [] = s ++ [Char.ofNat n] ∧ 0x80 ≤ n := by
    rcases start_of_ge h with ⟨hnil, hsome⟩ | heq
    · rw [hnil, decodeFrom, if_pos hsome]
      exact ⟨[], 0xFFFD, rfl, by decide⟩
    · rw [heq]
      exact ⟨[], 0xFFFD, rfl, by decide⟩
  have hstep (st : Option Pending) :
      ∃ s n, decodeFrom st [b] = s ++ [Char.ofNat n] ∧ 0x80 ≤ n := by
    cases st with
    | none => exact hstart
    | some p =>
      rw [decodeFrom, step]
      split
      · next hp =>
        rcases Pending.next_fst hp.1 with ⟨hnil, hsome⟩ | ⟨n, hn, heq⟩
        · rw [hnil, decodeFrom, if_pos hsome]
          exact ⟨[], 0xFFFD, rfl, by decide⟩
        · rw [heq]
          exact ⟨[], n, rfl, hn⟩
      · obtain ⟨s, n, heq, hn⟩ := hstart
        exact ⟨replacement :: s, n, by rw [List.cons_append, heq, List.cons_append], hn⟩
  have hall (st : Option Pending) :
      ∃ s n, decodeFrom st (bs ++ [b]) = s ++ [Char.ofNat n] ∧ 0x80 ≤ n := by
    induction bs generalizing st with
    | nil => exact hstep st
    | cons c bs ih =>
      obtain ⟨s, n, heq, hn⟩ := ih (step st c).2
      exact ⟨(step st c).1 ++ s, n, by rw [List.cons_append, decodeFrom, heq, List.append_assoc], hn⟩
  exact hall none

end Utf8

import Mathlib.Tactic.Common

set_option autoImplicit false

/-! # Base64

Bytes are numbers below 256, and sextets numbers below 64. Three bytes are four sextets, and a
decoder that reads a text drops what is no digit and the bits of an incomplete byte. So a text
from which digits are lost is read as other bytes: from the first lost digit on they are shifted,
and they are in place again where a multiple of four digits is lost (`exists_bytes_append`). -/

namespace Base64

/-- The last sextet of an incomplete group is filled with zeros. -/
def sextets : List Nat → List Nat
  | a :: b :: c :: bs =>
    a / 4 :: (a % 4 * 16 + b / 16) :: (b % 16 * 4 + c / 64) :: c % 64 :: sextets bs
  | [a, b] => [a / 4, a % 4 * 16 + b / 16, b % 16 * 4]
  | [a] => [a / 4, a % 4 * 16]
  | [] => []

/-- The bits that are left over are dropped. -/
def bytes : List Nat → List Nat
  | p :: q :: r :: s :: ns =>
    (p * 4 + q / 16) :: (q % 16 * 16 + r / 4) :: (r % 4 * 64 + s) :: bytes ns
  | [p, q, r] => [p * 4 + q / 16, q % 16 * 16 + r / 4]
  | [p, q] => [p * 4 + q / 16]
  | [_] => []
  | [] => []

def digit (n : Nat) : Char :=
  if n < 26 then Char.ofNat ('A'.toNat + n)
  else if n < 52 then Char.ofNat ('a'.toNat + (n - 26))
  else if n < 62 then Char.ofNat ('0'.toNat + (n - 52))
  else if n = 62 then '+'
  else '/'

/-- The digits of the alphabet for URLs are read too. -/
def sextetOf (c : Char) : Option Nat :=
  if c.isUpper then some (c.toNat - 'A'.toNat)
  else if c.isLower then some (c.toNat - 'a'.toNat + 26)
  else if c.isDigit then some (c.toNat - '0'.toNat + 52)
  else if c = '+' ∨ c = '-' then some 62
  else if c = '/' ∨ c = '_' then some 63
  else none

/-- The digits, and `=` up to a multiple of four characters. -/
def encode (bs : List Nat) : List Char :=
  let digits := (sextets bs).map digit
  digits ++ List.replicate ((4 - digits.length % 4) % 4) '='

def decode (text : List Char) : List Nat := bytes (text.filterMap sextetOf)

/-! ## Lengths and groups -/

theorem length_sextets (bs : List Nat) : (sextets bs).length = (bs.length * 4 + 2) / 3 := by
  fun_induction sextets bs with
  | case1 a b c bs ih =>
    simp only [List.length_cons, ih]
    omega
  | case2 => simp
  | case3 => simp
  | case4 => rfl

theorem length_bytes (ns : List Nat) : (bytes ns).length = ns.length * 3 / 4 := by
  fun_induction bytes ns with
  | case1 p q r s ns ih =>
    simp only [List.length_cons, ih]
    omega
  | case2 => simp
  | case3 => simp
  | case4 => simp
  | case5 => rfl

theorem sextets_append {bs : List Nat} (h : bs.length % 3 = 0) (bs' : List Nat) :
    sextets (bs ++ bs') = sextets bs ++ sextets bs' := by
  fun_induction sextets bs with
  | case1 a b c bs ih =>
    simp only [List.length_cons] at h
    simp only [List.cons_append, sextets, ih (by omega)]
  | case2 => simp at h
  | case3 => simp at h
  | case4 => rfl

theorem bytes_append {ns : List Nat} (h : ns.length % 4 = 0) (ns' : List Nat) :
    bytes (ns ++ ns') = bytes ns ++ bytes ns' := by
  fun_induction bytes ns with
  | case1 p q r s ns ih =>
    simp only [List.length_cons] at h
    simp only [List.cons_append, bytes, ih (by omega)]
  | case2 => simp at h
  | case3 => simp at h
  | case4 => simp at h
  | case5 => rfl

theorem sextets_lt {bs : List Nat} (h : ∀ b ∈ bs, b < 256) : ∀ n ∈ sextets bs, n < 64 := by
  fun_induction sextets bs with
  | case1 a b c bs ih =>
    simp only [List.forall_mem_cons] at h ⊢
    exact ⟨by omega, by omega, by omega, by omega, ih h.2.2.2⟩
  | case2 a b =>
    simp only [List.forall_mem_cons] at h ⊢
    exact ⟨by omega, by omega, by omega, by simp⟩
  | case3 a =>
    simp only [List.forall_mem_cons] at h ⊢
    exact ⟨by omega, by omega, by simp⟩
  | case4 => simp

/-- **Bytes are read back from their sextets.** -/
theorem bytes_sextets {bs : List Nat} (h : ∀ b ∈ bs, b < 256) : bytes (sextets bs) = bs := by
  fun_induction sextets bs with
  | case1 a b c bs ih =>
    simp only [List.forall_mem_cons] at h
    have ha : a / 4 * 4 + (a % 4 * 16 + b / 16) / 16 = a := by omega
    have hb : (a % 4 * 16 + b / 16) % 16 * 16 + (b % 16 * 4 + c / 64) / 4 = b := by omega
    have hc : (b % 16 * 4 + c / 64) % 4 * 64 + c % 64 = c := by omega
    rw [bytes, ha, hb, hc, ih h.2.2.2]
  | case2 a b =>
    simp only [List.forall_mem_cons] at h
    have ha : a / 4 * 4 + (a % 4 * 16 + b / 16) / 16 = a := by omega
    have hb : (a % 4 * 16 + b / 16) % 16 * 16 + b % 16 * 4 / 4 = b := by omega
    rw [bytes, ha, hb]
  | case3 a =>
    have ha : a / 4 * 4 + a % 4 * 16 / 16 = a := by omega
    rw [bytes, ha]
  | case4 => rfl

/-! ## Digits -/

theorem sextetOf_digit : ∀ n < 64, sextetOf (digit n) = some n := by decide

theorem digit_eq_plus : ∀ n < 64, digit n = '+' ↔ n = 62 := by decide

/-! ## The digit `+` -/

/-- A byte of which no digit `+` comes: neither `>` nor `~`, nor any that is not ASCII. -/
def Plain (b : Nat) : Prop := b < 128 ∧ b % 64 ≠ 62

/-- Of ASCII bytes, a digit `+` comes of the third ones of a group only. -/
theorem mem_sextets_iff {bs : List Nat} (h : ∀ b ∈ bs, b < 128) :
    62 ∈ sextets bs ↔
      ∃ before b after, bs = before ++ b :: after ∧ before.length % 3 = 2 ∧ b % 64 = 62 := by
  fun_induction sextets bs with
  | case1 a b c bs ih =>
    simp only [List.forall_mem_cons] at h
    have hfirst : 62 ≠ a / 4 := by omega
    have hsecond : 62 ≠ a % 4 * 16 + b / 16 := by omega
    have hthird : 62 ≠ b % 16 * 4 + c / 64 := by omega
    simp only [List.mem_cons, hfirst, hsecond, hthird, false_or, @eq_comm _ 62 (c % 64),
      ih h.2.2.2]
    constructor
    · rintro (hc | ⟨before, d, after, rfl, hlen, hd⟩)
      · exact ⟨[a, b], c, bs, rfl, rfl, hc⟩
      · refine ⟨a :: b :: c :: before, d, after, rfl, ?_, hd⟩
        simp only [List.length_cons]
        omega
    · rintro ⟨before, d, after, heq, hlen, hd⟩
      match before, hlen with
      | [x, y], _ =>
        simp only [List.cons_append, List.nil_append, List.cons.injEq] at heq
        obtain ⟨-, -, rfl, -⟩ := heq
        exact Or.inl hd
      | x :: y :: z :: before, hlen =>
        simp only [List.cons_append, List.cons.injEq] at heq
        simp only [List.length_cons] at hlen
        exact Or.inr ⟨before, d, after, heq.2.2.2, by omega, hd⟩
  | case2 a b =>
    simp only [List.forall_mem_cons] at h
    constructor
    · intro hmem
      simp only [List.mem_cons, List.not_mem_nil, or_false] at hmem
      omega
    · rintro ⟨before, d, after, heq, hlen, -⟩
      have := congrArg List.length heq
      simp only [List.length_append, List.length_cons, List.length_nil] at this
      omega
  | case3 a =>
    simp only [List.forall_mem_cons] at h
    constructor
    · intro hmem
      simp only [List.mem_cons, List.not_mem_nil, or_false] at hmem
      omega
    · rintro ⟨before, d, after, heq, hlen, -⟩
      have := congrArg List.length heq
      simp only [List.length_append, List.length_cons, List.length_nil] at this
      omega
  | case4 => simp

theorem not_mem_sextets {bs : List Nat} (h : ∀ b ∈ bs, Plain b) : 62 ∉ sextets bs := by
  intro hmem
  obtain ⟨before, b, after, rfl, -, hb⟩ := (mem_sextets_iff fun b hb => (h b hb).1).1 hmem
  exact (h b (by simp)).2 hb

/-- No digit `+` touches plain bytes at the end. -/
theorem exists_sextets_append (bs : List Nat) {last : List Nat} (h : ∀ b ∈ last, Plain b) :
    ∃ head rest, sextets (bs ++ last) = head ++ rest ∧ head.length = bs.length * 4 / 3 ∧
      62 ∉ rest := by
  fun_induction sextets bs with
  | case1 a b c bs ih =>
    obtain ⟨head, rest, heq, hlen, hrest⟩ := ih
    refine ⟨a / 4 :: (a % 4 * 16 + b / 16) :: (b % 16 * 4 + c / 64) :: c % 64 :: head, rest, ?_, ?_,
      hrest⟩
    · simp only [List.cons_append, sextets, heq]
    · simp only [List.length_cons, hlen]
      omega
  | case2 a b =>
    match last, h with
    | [], _ => exact ⟨[a / 4, a % 4 * 16 + b / 16], [b % 16 * 4], rfl, by simp, by simp; omega⟩
    | c :: last, h =>
      rw [List.forall_mem_cons] at h
      have hlast := not_mem_sextets h.2
      have hc := h.1
      refine ⟨[a / 4, a % 4 * 16 + b / 16], (b % 16 * 4 + c / 64) :: c % 64 :: sextets last, rfl,
        by simp, ?_⟩
      simp only [Plain] at hc
      simp only [List.mem_cons, not_or, hlast, not_false_eq_true, and_true]
      omega
  | case3 a =>
    match last, h with
    | [], _ => exact ⟨[a / 4], [a % 4 * 16], rfl, by simp, by simp; omega⟩
    | [b], h =>
      have hb := h b (by simp)
      refine ⟨[a / 4], [a % 4 * 16 + b / 16, b % 16 * 4], rfl, by simp, ?_⟩
      simp only [Plain] at hb
      simp only [List.mem_cons, not_or, List.not_mem_nil, not_false_eq_true, and_true]
      omega
    | b :: c :: last, h =>
      simp only [List.forall_mem_cons] at h
      have hlast := not_mem_sextets h.2.2
      have hb := h.1
      have hc := h.2.1
      refine ⟨[a / 4], (a % 4 * 16 + b / 16) :: (b % 16 * 4 + c / 64) :: c % 64 :: sextets last, rfl,
        by simp, ?_⟩
      simp only [Plain] at hb hc
      simp only [List.mem_cons, not_or, hlast, not_false_eq_true, and_true]
      omega
  | case4 => exact ⟨[], sextets last, rfl, rfl, not_mem_sextets h⟩

/-- The bytes that begin in `rest` depend on how many sextets are before it, not on which. -/
theorem drop_bytes_append {ns ns' : List Nat} (rest : List Nat) (hlen : ns.length = ns'.length)
    (hlt : ns.length < 4) :
    (bytes (ns ++ rest)).drop ns.length = (bytes (ns' ++ rest)).drop ns.length := by
  match ns, ns' with
  | [], [] => rfl
  | [p], [p'] =>
    match rest with
    | [] => rfl
    | [_] => rfl
    | [_, _] => rfl
    | _ :: _ :: _ :: _ => rfl
  | [p, q], [p', q'] =>
    match rest with
    | [] => rfl
    | [_] => rfl
    | _ :: _ :: _ => rfl
  | [p, q, r], [p', q', r'] =>
    match rest with
    | [] => rfl
    | _ :: _ => rfl
  | _ :: _ :: _ :: _ :: _, _ => simp at hlt; omega

/-- A list of sextets is whole groups and up to three more. -/
theorem exists_groups (ns : List Nat) :
    ∃ groups more, ns = groups ++ more ∧ groups.length % 4 = 0 ∧ more.length = ns.length % 4 := by
  refine ⟨ns.take (ns.length / 4 * 4), ns.drop (ns.length / 4 * 4), ?_, ?_, ?_⟩
  · rw [List.take_append_drop]
  · rw [List.length_take]
    omega
  · rw [List.length_drop]
    omega

/-- **What follows a change in the middle.** If the sextets `head` are replaced by others, and their
    number changes by whole groups only, the bytes behind them stay. -/
theorem exists_bytes_append {head head' rest bs last : List Nat}
    (h : bytes (head ++ rest) = bs ++ last) (hhead : head.length = bs.length * 4 / 3)
    (hmod : head'.length % 4 = head.length % 4) :
    ∃ bs', bytes (head' ++ rest) = bs' ++ last := by
  obtain ⟨groups, more, rfl, hgroups, hmore⟩ := exists_groups head
  obtain ⟨groups', more', rfl, hgroups', hmore'⟩ := exists_groups head'
  rw [List.append_assoc, bytes_append hgroups] at h
  have hlast : (bytes (more ++ rest)).drop more.length = last := by
    have hdrop := congrArg (List.drop bs.length) h
    have hbs : bs.length = (bytes groups).length + more.length := by
      rw [length_bytes]
      rw [List.length_append] at hhead hmore
      omega
    rwa [List.drop_left, hbs, ← List.drop_drop, List.drop_left] at hdrop
  have hlen : more.length = more'.length := by rw [hmore, hmore', hmod]
  refine ⟨bytes groups' ++ (bytes (more' ++ rest)).take more.length, ?_⟩
  rw [List.append_assoc groups', bytes_append hgroups', List.append_assoc, ← hlast,
    drop_bytes_append rest hlen (by omega), List.take_append_drop]

/-! ## A text that loses its digits `+` -/

/-- The bytes that are read when every `+` of their text has become a space. -/
def withoutPlus (bs : List Nat) : List Nat := bytes ((sextets bs).filter fun n => n ≠ 62)

theorem decode_encode_plus {bs : List Nat} (h : ∀ b ∈ bs, b < 256) :
    decode ((encode bs).map fun c => if c = '+' then ' ' else c) = withoutPlus bs := by
  have hpad (n : Nat) :
      ((List.replicate n '=').map fun c => if c = '+' then ' ' else c).filterMap sextetOf = [] := by
    rw [List.map_replicate, List.filterMap_replicate_of_none (by decide)]
  have hdigits {ns : List Nat} (hns : ∀ n ∈ ns, n < 64) :
      ((ns.map digit).map fun c => if c = '+' then ' ' else c).filterMap sextetOf =
        ns.filter fun n => n ≠ 62 := by
    induction ns with
    | nil => rfl
    | cons n ns ih =>
      rw [List.forall_mem_cons] at hns
      rw [List.map_cons, List.map_cons, List.filterMap_cons, ih hns.2]
      by_cases hn : n = 62
      · subst hn
        rfl
      · rw [if_neg (mt (digit_eq_plus n hns.1).1 hn), sextetOf_digit n hns.1,
          List.filter_cons_of_pos (by simpa using hn)]
  rw [decode, encode, withoutPlus, List.map_append, List.filterMap_append, hpad, List.append_nil,
    hdigits (sextets_lt h)]

theorem withoutPlus_eq_self {bs : List Nat} (h : ∀ b ∈ bs, b < 256) (hplus : 62 ∉ sextets bs) :
    withoutPlus bs = bs := by
  have hfilter : (sextets bs).filter (fun n => n ≠ 62) = sextets bs := by
    rw [List.filter_eq_self]
    intro n hn
    rw [decide_eq_true_eq]
    rintro rfl
    exact hplus hn
  rw [withoutPlus, hfilter, bytes_sextets h]

theorem length_filter_plus (ns : List Nat) :
    (ns.filter fun n => n ≠ 62).length + ns.count 62 = ns.length := by
  rw [← List.countP_eq_length_filter, List.length_eq_countP_add_countP (fun n => n ≠ 62),
    List.count_eq_countP]
  congr 2
  funext n
  by_cases hn : n = 62 <;> simp [hn]

theorem length_withoutPlus_lt {bs : List Nat} (hplus : 62 ∈ sextets bs) :
    (withoutPlus bs).length < bs.length := by
  have hcount := List.count_pos_iff.2 hplus
  have hlen := length_filter_plus (sextets bs)
  rw [length_sextets] at hlen
  rw [withoutPlus, length_bytes]
  omega

/-- If a multiple of four digits is lost, plain bytes at the end stay. -/
theorem exists_withoutPlus_append {bs last : List Nat} (hbs : ∀ b ∈ bs, b < 256)
    (hlast : ∀ b ∈ last, Plain b) (hcount : (sextets (bs ++ last)).count 62 % 4 = 0) :
    ∃ bs', withoutPlus (bs ++ last) = bs' ++ last := by
  have hall : ∀ b ∈ bs ++ last, b < 256 := by
    intro b hb
    rcases List.mem_append.1 hb with hb | hb
    · exact hbs b hb
    · have := (hlast b hb).1
      omega
  obtain ⟨head, rest, heq, hhead, hrest⟩ := exists_sextets_append bs hlast
  have hkeep : rest.filter (fun n => n ≠ 62) = rest := by
    rw [List.filter_eq_self]
    intro n hn
    rw [decide_eq_true_eq]
    rintro rfl
    exact hrest hn
  have hbytes : bytes (head ++ rest) = bs ++ last := by rw [← heq, bytes_sextets hall]
  have hlen := length_filter_plus head
  rw [heq, List.count_append, List.count_eq_zero_of_not_mem hrest, Nat.add_zero] at hcount
  rw [withoutPlus, heq, List.filter_append, hkeep]
  exact exists_bytes_append hbytes hhead (by omega)

end Base64

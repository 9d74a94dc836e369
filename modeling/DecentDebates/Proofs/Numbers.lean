import Mathlib.Data.List.TakeDrop
import DecentDebates.JsValues

set_option autoImplicit false

/-! # Integers survive JSON

`JSON.stringify` writes the decimal digits of an integer, and reading them back gives the same
integer as long as a double holds it exactly. A path parameter that is an integer of any size is
read as the same id or as no id. -/

namespace DecentDebates

theorem digitValue_of_isDigit {c : Char} (h : c.isDigit = true) :
    digitValue c = some (c.toNat - '0'.toNat) := by
  rw [digitValue, if_pos h]

theorem digit_lt {c : Char} (h : c.isDigit = true) : c.toNat - '0'.toNat < 10 := by
  simp only [Char.isDigit, Bool.and_eq_true, decide_eq_true_eq, ge_iff_le,
    UInt32.le_iff_toNat_le] at h
  have h9 : '9'.val.toNat = 57 := rfl
  have h0 : '0'.toNat = 48 := rfl
  have hc : c.toNat = c.val.toNat := rfl
  omega

/-- On digits, reading never fails. -/
theorem foldlM_digits {s : List Char} (h : s.all Char.isDigit = true) (n : Nat) :
    (s.foldlM (fun n c => do
      let v ← digitValue c
      if v < 10 then some (10 * n + v) else none) n) = some (Nat.ofDigitChars 10 s n) := by
  induction s generalizing n with
  | nil => simp
  | cons c s ih =>
    rw [List.all_cons, Bool.and_eq_true] at h
    rw [List.foldlM_cons, digitValue_of_isDigit h.1, Nat.ofDigitChars_cons, ← ih h.2]
    simp only [Option.bind_eq_bind, Option.bind_some, if_pos (digit_lt h.1)]

theorem digitsValue_toDigits (n : Nat) : digitsValue 10 (Nat.toDigits 10 n) = some n := by
  rw [digitsValue, if_neg Nat.toDigits_ne_nil, foldlM_digits (Json.all_isDigit_toDigits n),
    Nat.ofDigitChars_ten_toDigits]

theorem unsignedDecimal_of_isDigit {s : List Char} {n : Nat} (h : s.all Char.isDigit = true)
    (hn : digitsValue 10 s = some n) : unsignedDecimal s = some (n, 1) := by
  have hall := List.all_eq_true.1 h
  have htake : s.takeWhile Char.isDigit = s := List.takeWhile_eq_self_iff.2 hall
  have hdrop : s.dropWhile Char.isDigit = [] := List.dropWhile_eq_nil_iff.2 hall
  simp [unsignedDecimal, List.span_eq_takeWhile_dropWhile, htake, hdrop, hn, exponentPart]

theorem unsignedDecimal_toDigits (n : Nat) :
    unsignedDecimal (Nat.toDigits 10 n) = some (n, 1) :=
  unsignedDecimal_of_isDigit (Json.all_isDigit_toDigits n) (digitsValue_toDigits n)

theorem splitSign_of_isDigit {s : List Char} (h : s.all Char.isDigit = true) :
    splitSign s = (false, s) := by
  have hall := List.all_eq_true.1 h
  unfold splitSign
  split
  · exact absurd (hall '-' (List.mem_cons_self ..)) (by decide)
  · exact absurd (hall '+' (List.mem_cons_self ..)) (by decide)
  · rfl

theorem roundHalfEven_one (n : Nat) : roundHalfEven n 1 = n := by
  simp [roundHalfEven, Nat.mod_one]

/-- An integer of at most 52 bits is the double nearest to it. -/
theorem ofRational_one {n : Nat} (hn : n < 2 ^ 52) (negative : Bool) :
    JsNumber.ofRational negative n 1 = .int (if negative then -n else n) := by
  have hlog : Nat.log2 n < 52 := by
    by_cases h0 : n = 0
    · subst h0
      decide
    · exact (Nat.log2_lt h0).2 hn
  obtain ⟨k, hk, hdouble⟩ : ∃ k : Nat, 0 < k ∧ nearestDouble n 1 = (n * 2 ^ k, -(k : Int)) := by
    have hlog1 : Nat.log2 1 = 0 := by decide
    unfold nearestDouble
    extract_lets l below e
    have he : e < 0 := by
      have hl : l = Nat.log2 n := by
        simp only [l, hlog1]
        exact Int.sub_zero _
      simp only [e, hl]
      split <;> omega
    refine ⟨(-e).toNat, by omega, ?_⟩
    rw [if_neg (Int.not_le.2 he), roundHalfEven_one, Prod.mk.injEq]
    exact ⟨rfl, by omega⟩
  have hbig : n < 10 ^ 21 := lt_trans hn (by decide)
  have hneg : ¬ (0 : Int) ≤ -(k : Int) := by omega
  have hto : (-(-(k : Int))).toNat = k := by omega
  have hdiv : n * 2 ^ k / 2 ^ k = n := Nat.mul_div_cancel _ (Nat.two_pow_pos k)
  simp only [JsNumber.ofRational, hdouble, if_neg hneg, hto, hdiv, Nat.mul_mod_left, ne_eq,
    not_true_eq_false, and_false, false_or, if_neg (Nat.not_le.2 hbig)]

theorem ofLexeme_ofInt {n : Int} (hn : n.natAbs < 2 ^ 52) :
    JsNumber.ofLexeme (.ofInt n) = .int n := by
  cases n with
  | ofNat n =>
    have hsplit := splitSign_of_isDigit (Json.all_isDigit_toDigits n)
    simp only [JsNumber.ofLexeme, Json.Lexeme.ofInt, hsplit, unsignedDecimal_toDigits]
    exact ofRational_one hn false
  | negSucc n =>
    simp only [JsNumber.ofLexeme, Json.Lexeme.ofInt, splitSign, unsignedDecimal_toDigits]
    exact ofRational_one hn true

/-! ## What `ParseIntPipe` accepts is a number -/

theorem not_isStrWhiteSpace_of_isDigit {c : Char} (h : c.isDigit = true) :
    isStrWhiteSpace c = false := by
  have hlt := digit_lt h
  have h0 : '0'.toNat = 48 := rfl
  have hle : 48 ≤ c.toNat := by
    simp only [Char.isDigit, Bool.and_eq_true, decide_eq_true_eq, ge_iff_le,
      UInt32.le_iff_toNat_le] at h
    exact h.1
  simp only [isStrWhiteSpace, decide_eq_false_iff_not, List.mem_cons, List.not_mem_nil, or_false]
  omega

theorem trim_eq_self {s : List Char} (h : ∀ c ∈ s, isStrWhiteSpace c = false) :
    ((s.dropWhile isStrWhiteSpace).reverse.dropWhile isStrWhiteSpace).reverse = s := by
  have hdrop {s : List Char} (h : ∀ c ∈ s, isStrWhiteSpace c = false) :
      s.dropWhile isStrWhiteSpace = s := by
    cases s with
    | nil => rfl
    | cons c s => rw [List.dropWhile_cons_of_neg (by simp [h c])]
  rw [hdrop h, hdrop fun c hc => h c (List.mem_reverse.1 hc), List.reverse_reverse]

theorem numericLiteral_of_isDigit {s : List Char} {n : Nat} (h : s.all Char.isDigit = true)
    (hn : digitsValue 10 s = some n) : numericLiteral s = .ofRational false n 1 := by
  have hall := List.all_eq_true.1 h
  unfold numericLiteral
  split
  · cases hn
  · exact absurd (hall 'x' (by simp)) (by decide)
  · exact absurd (hall 'X' (by simp)) (by decide)
  · exact absurd (hall 'o' (by simp)) (by decide)
  · exact absurd (hall 'O' (by simp)) (by decide)
  · exact absurd (hall 'b' (by simp)) (by decide)
  · exact absurd (hall 'B' (by simp)) (by decide)
  · simp only [splitSign_of_isDigit h, unsignedDecimal_of_isDigit h hn]

theorem numericLiteral_minus {s : List Char} {n : Nat} (h : s.all Char.isDigit = true)
    (hn : digitsValue 10 s = some n) : numericLiteral ('-' :: s) = .ofRational true n 1 := by
  unfold numericLiteral
  split
  all_goals try next heq => exact absurd (List.cons.inj heq).1 (by decide)
  · next heq => cases heq
  · simp only [splitSign, unsignedDecimal_of_isDigit h hn]

theorem numericString_eq_some {s : String} {negative : Bool} {digits : List Char}
    (h : numericString s = some (negative, digits)) :
    s.toList = (if negative then '-' :: digits else digits) ∧ digits.all Char.isDigit = true := by
  unfold numericString at h
  split at h
  next negative' digits' hsign =>
    split at h
    · next hdigits =>
      obtain ⟨rfl, rfl⟩ := Prod.mk.inj (Option.some.inj h)
      refine ⟨?_, hdigits.2⟩
      split at hsign
      · next heq =>
        cases hsign
        exact heq
      · cases hsign
        rfl
    · cases h

theorem toNumber_of_parseIntPipe {s : String} {n : JsNumber} (h : parseIntPipe s = some n) :
    toNumber s = n := by
  simp only [parseIntPipe, Option.bind_eq_bind, Option.bind_eq_some_iff] at h
  obtain ⟨⟨negative, digits⟩, hstring, m, hm, h⟩ := h
  obtain ⟨hs, hdigits⟩ := numericString_eq_some hstring
  split at h
  · cases h
  · obtain rfl := Option.some.inj h
    have hspace : ∀ c ∈ digits, isStrWhiteSpace c = false := fun c hc =>
      not_isStrWhiteSpace_of_isDigit (List.all_eq_true.1 hdigits c hc)
    cases negative with
    | false =>
      rw [if_neg Bool.false_ne_true] at hs
      rw [toNumber, hs, trim_eq_self hspace]
      exact numericLiteral_of_isDigit hdigits hm
    | true =>
      rw [if_pos rfl] at hs
      rw [toNumber, hs, trim_eq_self (List.forall_mem_cons.2 ⟨by decide, hspace⟩)]
      exact numericLiteral_minus hdigits hm

/-! ## Integers that are not exact -/

theorem div_le_roundHalfEven (num den : Nat) : num / den ≤ roundHalfEven num den := by
  unfold roundHalfEven
  extract_lets q r
  split
  · exact Nat.le_refl _
  · exact Nat.le_succ _

/-- From `2 ^ 52` on the unit of the mantissa is a whole number. -/
theorem nearestDouble_of_le {num : Nat} (hnum : 2 ^ 52 ≤ num) :
    nearestDouble num 1 =
      (roundHalfEven num (2 ^ (Nat.log2 num - 52)), ((Nat.log2 num - 52 : Nat) : Int)) := by
  have hpos : num ≠ 0 := by omega
  have hlog : 52 ≤ Nat.log2 num := (Nat.le_log2 hpos).2 hnum
  have hlog1 : Nat.log2 1 = 0 := by decide
  unfold nearestDouble
  extract_lets l below e
  have hl : l = (Nat.log2 num : Int) := by
    simp only [l, hlog1]
    exact Int.sub_zero _
  have hbelow : ¬ below := by
    have hle : 2 ^ Nat.log2 num ≤ num := Nat.log2_self_le hpos
    simp only [below, hl]
    rw [if_pos (Int.natCast_nonneg _), Int.toNat_natCast, Nat.one_mul]
    exact Nat.not_lt.2 hle
  have he : e = ((Nat.log2 num - 52 : Nat) : Int) := by
    simp only [e, if_neg hbelow, hl]
    omega
  rw [he, if_pos (Int.natCast_nonneg _), Int.toNat_natCast, Nat.one_mul]

/-- A large integer is rounded to a large integer. -/
theorem ofRational_of_le {num : Nat} (hnum : 2 ^ 52 ≤ num) (negative : Bool) :
    JsNumber.ofRational negative num 1 = .other ∨
      ∃ n : Nat, 2 ^ 52 ≤ n ∧
        JsNumber.ofRational negative num 1 = .int (if negative then -n else n) := by
  have hpos : num ≠ 0 := by omega
  have hlog : 52 ≤ Nat.log2 num := (Nat.le_log2 hpos).2 hnum
  have hpow : 2 ^ 52 * 2 ^ (Nat.log2 num - 52) ≤ num := by
    rw [← Nat.pow_add, Nat.add_sub_cancel' hlog]
    exact Nat.log2_self_le hpos
  have hle : 2 ^ 52 ≤ roundHalfEven num (2 ^ (Nat.log2 num - 52)) *
      2 ^ (Nat.log2 num - 52) := by
    have hquot : 2 ^ 52 ≤ num / 2 ^ (Nat.log2 num - 52) :=
      (Nat.le_div_iff_mul_le (Nat.two_pow_pos _)).2 hpow
    exact (hquot.trans (div_le_roundHalfEven _ _)).trans
      (Nat.le_mul_of_pos_right _ (Nat.two_pow_pos _))
  unfold JsNumber.ofRational
  simp only [nearestDouble_of_le hnum, if_pos (Int.natCast_nonneg _), Int.toNat_natCast]
  split
  · exact Or.inl rfl
  · exact Or.inr ⟨_, hle, rfl⟩

theorem not_isInt4_of_le {n : Nat} (h : 2 ^ 52 ≤ n) (negative : Bool) :
    ¬ IsInt4 (if negative then -(n : Int) else n) := by
  unfold IsInt4 int4Min int4Max
  split <;> omega

/-- Reading an integer from its digits gives it as it is when it is an id, and else nothing that is
    an id. -/
theorem int4_ofRational (n : Nat) (negative : Bool) (k : Int) :
    int4 (.ofRational negative n 1) = .ok k ↔
      k = (if negative then -(n : Int) else n) ∧ IsInt4 k := by
  by_cases hn : n < 2 ^ 52
  · rw [ofRational_one hn, int4_int]
    constructor
    · rintro ⟨h, rfl⟩
      exact ⟨rfl, h⟩
    · rintro ⟨rfl, h⟩
      exact ⟨h, rfl⟩
  · have hle := Nat.le_of_not_lt hn
    constructor
    · intro h
      rcases ofRational_of_le hle negative with hother | ⟨m, hm, hint⟩
      · rw [hother] at h
        exact absurd h int4_other
      · rw [hint, int4_int] at h
        exact absurd h.1 (not_isInt4_of_le hm negative)
    · rintro ⟨rfl, h⟩
      exact absurd h (not_isInt4_of_le hle negative)

end DecentDebates

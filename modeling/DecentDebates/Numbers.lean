import Mathlib.Algebra.GroupWithZero.Nat
import DecentDebates.Sql

set_option autoImplicit false

/-! # Numeric strings

The two ways in which the API reads a number from a string: unary plus (`Number`) and
`ParseIntPipe`. Both yield a double, and what matters of a double later is the text that is sent to
the database (`JsNumber`). -/

namespace DecentDebates

/-! ## Doubles -/

/-- Division to the nearest number, ties to the even one. -/
def roundHalfEven (num den : Nat) : Nat :=
  let q := num / den
  let r := num % den
  if 2 * r < den ∨ (2 * r = den ∧ q % 2 = 0) then q else q + 1

/-- The double `m * 2 ^ e` nearest to `num / den`, its exponent not bounded from above. -/
def nearestDouble (num den : Nat) : Nat × Int :=
  let l : Int := (Nat.log2 num : Int) - Nat.log2 den
  -- The binary logarithm of `num / den` is `l` or `l - 1`.
  let below := if 0 ≤ l then num < den * 2 ^ l.toNat else num * 2 ^ (-l).toNat < den
  let e := max ((if below then l - 1 else l) - 52) (-1074)
  (if 0 ≤ e then roundHalfEven num (den * 2 ^ e.toNat)
    else roundHalfEven (num * 2 ^ (-e).toNat) den, e)

/-- The double nearest to a number, as it is sent to the database: `toString` writes digits only for
    an integer below `10 ^ 21`. -/
def JsNumber.ofRational (negative : Bool) (num den : Nat) : JsNumber :=
  let (m, e) := nearestDouble num den
  let n := if 0 ≤ e then m * 2 ^ e.toNat else m / 2 ^ (-e).toNat
  if (e < 0 ∧ m % 2 ^ (-e).toNat ≠ 0) ∨ 10 ^ 21 ≤ n then .other
  else .int (if negative then -n else n)

/-- From here on a number is rounded to infinity. -/
def doubleOverflow : Nat := 2 ^ 1024 - 2 ^ 970

/-! ## Digits -/

/-- The value of a digit up to `f` or `F`. -/
def digitValue (c : Char) : Option Nat :=
  if c.isDigit then some (c.toNat - '0'.toNat)
  else if 'a' ≤ c ∧ c ≤ 'f' then some (c.toNat - 'a'.toNat + 10)
  else if 'A' ≤ c ∧ c ≤ 'F' then some (c.toNat - 'A'.toNat + 10)
  else none

/-- The number that a non-empty list of digits denotes in a base. -/
def digitsValue (base : Nat) (digits : List Char) : Option Nat :=
  if digits = [] then none
  else digits.foldlM (fun n c => do
    let v ← digitValue c
    if v < base then some (base * n + v) else none) 0

/-! ## `Number(…)` -/

/-- `StrWhiteSpaceChar` -/
def isStrWhiteSpace (c : Char) : Bool :=
  c.toNat ∈ [0x09, 0x0A, 0x0B, 0x0C, 0x0D, 0x20, 0xA0, 0x1680, 0x2028, 0x2029, 0x202F, 0x205F,
    0x3000, 0xFEFF] ∨ (0x2000 ≤ c.toNat ∧ c.toNat ≤ 0x200A)

/-- A sign, and what follows it. -/
def splitSign : List Char → Bool × List Char
  | '-' :: rest => (true, rest)
  | '+' :: rest => (false, rest)
  | rest => (false, rest)

/-- The exponent of a decimal literal: nothing, or `e` and an integer. -/
def exponentPart : List Char → Option Int
  | [] => some 0
  | c :: rest =>
    if c = 'e' ∨ c = 'E' then
      let (negative, digits) := splitSign rest
      (digitsValue 10 digits).map fun n => if negative then -(n : Int) else n
    else none

/-- `StrUnsignedDecimalLiteral` without `Infinity`, as a fraction. -/
def unsignedDecimal (s : List Char) : Option (Nat × Nat) := do
  let (whole, rest) := s.span Char.isDigit
  let (fraction, rest) := match rest with
    | '.' :: rest => rest.span Char.isDigit
    | rest => ([], rest)
  let mantissa ← digitsValue 10 (whole ++ fraction)
  let exponent ← exponentPart rest
  let exponent := exponent - fraction.length
  return if 0 ≤ exponent then (mantissa * 10 ^ exponent.toNat, 1)
    else (mantissa, 10 ^ (-exponent).toNat)

/-- `StringToNumber`, for a string without surrounding white space. -/
def numericLiteral (s : List Char) : JsNumber :=
  let ofDigits (base : Nat) (digits : List Char) : JsNumber :=
    match digitsValue base digits with
    | some n => .ofRational false n 1
    | none => .other
  match s with
  | [] => .int 0
  | '0' :: 'x' :: digits => ofDigits 16 digits
  | '0' :: 'X' :: digits => ofDigits 16 digits
  | '0' :: 'o' :: digits => ofDigits 8 digits
  | '0' :: 'O' :: digits => ofDigits 8 digits
  | '0' :: 'b' :: digits => ofDigits 2 digits
  | '0' :: 'B' :: digits => ofDigits 2 digits
  | s =>
    let (negative, s) := splitSign s
    match unsignedDecimal s with
    | some (num, den) => .ofRational negative num den
    | none => .other

/-- `+s` -/
def toNumber (s : String) : JsNumber :=
  numericLiteral
    (((s.toList.dropWhile isStrWhiteSpace).reverse.dropWhile isStrWhiteSpace).reverse)

example :
    ["1", " 01\n", "1e1", "0x10", "2.50e1", "1.5", "1,2", "99999999999999999999999"].map toNumber =
      [.int 1, .int 1, .int 10, .int 16, .int 25, .other, .other, .other] := by decide +kernel

/-! ## `ParseIntPipe` -/

/-- The sign and the digits of a string that `/^-?\d+$/` matches. -/
def numericString (s : String) : Option (Bool × List Char) :=
  let (negative, digits) := match s.toList with
    | '-' :: digits => (true, digits)
    | digits => (false, digits)
  if digits ≠ [] ∧ digits.all Char.isDigit then some (negative, digits) else none

/-- `ParseIntPipe`: an optional minus sign and digits that denote a finite number. -/
def parseIntPipe (s : String) : Option JsNumber := do
  let (negative, digits) ← numericString s
  let n ← digitsValue 10 digits
  if doubleOverflow ≤ n then none else return .ofRational negative n 1

end DecentDebates

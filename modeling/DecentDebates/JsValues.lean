import DecentDebates.Lib.Json
import DecentDebates.Numbers

set_option autoImplicit false

/-! # Values of a message

What `JSON.parse` makes of a text, as the code then handles it: a property is read, a value is
tested, or converted to a number. Objects have only the members of the text, and these are no
functions. -/

namespace DecentDebates

open Json

/-- The value of a number in a JSON text: the nearest double. -/
def JsNumber.ofLexeme (l : Lexeme) : JsNumber :=
  let (negative, s) := splitSign l.text
  match unsignedDecimal s with
  | some (num, den) => .ofRational negative num den
  | none => .other

/-- A value, or `undefined`. -/
abbrev JsValue := Option Value

namespace JsValue

/-- The message of a `TypeError` for reading a property of this value, if that throws. -/
def noProperties (name : String) : JsValue → Option String
  | none => some ("Cannot read properties of undefined (reading '" ++ name ++ "')")
  | some .null => some ("Cannot read properties of null (reading '" ++ name ++ "')")
  | _ => none

/-- `v.name`, where no built-in property has the name. -/
def get (v : JsValue) (name : String) : Except String JsValue :=
  match v.noProperties name with
  | some message => .error message
  | none => .ok (v.bind fun v => v.member? name)

/-- `!!v` -/
def truthy : JsValue → Bool
  | none => false
  | some .null => false
  | some (.bool b) => b
  | some (.number l) => JsNumber.ofLexeme l ≠ .int 0
  | some (.string s) => s ≠ ""
  | some (.array _) => true
  | some (.object _) => true

end JsValue

/-! ## Conversions -/

mutual

/-- An object whose own `toString` is no function has no text, and an array has one if its elements
    have. No value is nested deeper than the engine's stack allows: the conversion does not overflow
    it. -/
def hasText : Value → Bool
  | .object members => members.all fun m => m.1 ≠ "toString"
  | .array elements => allHaveText elements
  | _ => true

def allHaveText : List Value → Bool
  | [] => true
  | v :: vs => hasText v && allHaveText vs

end

/-- The number that `Number` makes of a value that has a text. An array with one element has the
    text of the element, and `null` has no text there. -/
def numberOf : Value → JsNumber
  | .null => .int 0
  | .bool b => .int (if b then 1 else 0)
  | .number l => .ofLexeme l
  | .string s => toNumber s
  | .array [] => .int 0
  | .array [.bool _] => .other
  | .array [v] => numberOf v
  | .array _ => .other
  | .object _ => .other

/-- `+v` -/
def unaryPlus : JsValue → Except String JsNumber
  | none => .ok .other
  | some v =>
    if hasText v then .ok (numberOf v) else .error "Cannot convert object to primitive value"

end DecentDebates

import Mathlib.Tactic.Common
import Mathlib.Data.List.TakeWhile

set_option autoImplicit false

/-! # JSON texts

Values, the text that `print` gives a value, and the parser. The grammar is the relation `Reads`,
which relates a text to what is left of it after a value; the parser follows it with a bound on its
depth, and a bound above the length of the text is no bound (`parse_eq_some`), and a printed value is
read back (`parse_print`).

The text of a number is kept as it is written. A string is a list of code points: an escaped
surrogate without its partner, which no code point is, becomes U+FFFD. -/

namespace Json

/-! ## Tokens -/

def isSpace (c : Char) : Bool := c = ' ' || c = '\t' || c = '\n' || c = '\r'

def skipSpace (s : List Char) : List Char := s.dropWhile isSpace

/-- The characters of literals and numbers. -/
def isWordChar (c : Char) : Bool := c.isAlphanum || c = '+' || c = '-' || c = '.'

def isDigits (s : List Char) : Bool := s ≠ [] && s.all Char.isDigit

/-- `e`, an optional sign and digits; or nothing. -/
def isExponent : List Char → Bool
  | [] => true
  | e :: '+' :: s => (e = 'e' || e = 'E') && isDigits s
  | e :: '-' :: s => (e = 'e' || e = 'E') && isDigits s
  | e :: s => (e = 'e' || e = 'E') && isDigits s

/-- A fraction and an exponent, both optional. -/
def isFraction : List Char → Bool
  | '.' :: s => s.takeWhile Char.isDigit ≠ [] && isExponent (s.dropWhile Char.isDigit)
  | s => isExponent s

def isUnsigned (s : List Char) : Bool :=
  let digits := s.takeWhile Char.isDigit
  digits ≠ [] && (digits = ['0'] || digits.head? ≠ some '0') &&
    isFraction (s.dropWhile Char.isDigit)

def isNumber : List Char → Bool
  | '-' :: s => isUnsigned s
  | s => isUnsigned s

/-- The text of a number. -/
structure Lexeme where
  text : List Char
  valid : isNumber text = true

inductive Value where
  | null
  | bool (b : Bool)
  | number (lexeme : Lexeme)
  | string (s : String)
  | array (elements : List Value)
  | object (members : List (String × Value))

/-- A literal or a number. -/
def scalar (word : List Char) : Option Value :=
  if word = "null".toList then some .null
  else if word = "true".toList then some (.bool true)
  else if word = "false".toList then some (.bool false)
  else if h : isNumber word then some (.number ⟨word, h⟩)
  else none

/-! ## Strings -/

/-- What a backslash and a character other than `u` stand for. -/
def unescape : Char → Option Char
  | '"' => some '"'
  | '\\' => some '\\'
  | '/' => some '/'
  | 'b' => some '\x08'
  | 'f' => some '\x0c'
  | 'n' => some '\n'
  | 'r' => some '\r'
  | 't' => some '\t'
  | _ => none

def hexDigit (c : Char) : Option Nat :=
  if c.isDigit then some (c.toNat - '0'.toNat)
  else if 'a' ≤ c ∧ c ≤ 'f' then some (c.toNat - 'a'.toNat + 10)
  else if 'A' ≤ c ∧ c ≤ 'F' then some (c.toNat - 'A'.toNat + 10)
  else none

def hex4 (a b c d : Char) : Option Nat := do
  return (((← hexDigit a) * 16 + (← hexDigit b)) * 16 + (← hexDigit c)) * 16 + (← hexDigit d)

/-- The rest of a string, from behind its opening quote: code points and surrogates, and what
    follows the closing quote. -/
def readChars : List Char → Option (List Nat × List Char)
  | [] => none
  | '"' :: rest => some ([], rest)
  | '\\' :: 'u' :: a :: b :: c :: d :: s =>
    match hex4 a b c d, readChars s with
    | some n, some (us, rest) => some (n :: us, rest)
    | _, _ => none
  | '\\' :: e :: s =>
    match unescape e, readChars s with
    | some c, some (us, rest) => some (c.toNat :: us, rest)
    | _, _ => none
  | c :: s =>
    if c = '\\' ∨ c.toNat < 0x20 then none
    else (readChars s).map fun (us, rest) => (c.toNat :: us, rest)

/-- U+FFFD stands for a surrogate without its partner. -/
def codePoint (n : Nat) : Char := if n.isValidChar then Char.ofNat n else '\uFFFD'

def isHigh (n : Nat) : Bool := 0xD800 ≤ n && n < 0xDC00
def isLow (n : Nat) : Bool := 0xDC00 ≤ n && n < 0xE000

/-- A high surrogate before a low one is one code point with it. -/
def codePoints : List Nat → List Char
  | [] => []
  | [n] => [codePoint n]
  | n :: m :: ns =>
    if isHigh n ∧ isLow m then
      codePoint (0x10000 + (n - 0xD800) * 0x400 + (m - 0xDC00)) :: codePoints ns
    else codePoint n :: codePoints (m :: ns)

def stringOf (us : List Nat) : String := String.ofList (codePoints us)

/-! ## The parser -/

/-- A member's key and the colon behind it. -/
def readKey (s : List Char) : Option (String × List Char) :=
  match skipSpace s with
  | '"' :: s =>
    match readChars s with
    | some (us, s) =>
      match skipSpace s with
      | ':' :: rest => some (stringOf us, rest)
      | _ => none
    | none => none
  | _ => none

mutual

/-- Read a value, with at most `n` nested calls. -/
def readValue : Nat → List Char → Option (Value × List Char)
  | 0, _ => none
  | n + 1, s =>
    match s with
    | '"' :: s => (readChars s).map fun (us, rest) => (.string (stringOf us), rest)
    | '[' :: s =>
      match skipSpace s with
      | ']' :: rest => some (.array [], rest)
      | _ => (readElements n s).map fun (vs, rest) => (.array vs, rest)
    | '\x7b' :: s =>
      match skipSpace s with
      | '\x7d' :: rest => some (.object [], rest)
      | _ => (readMembers n s).map fun (ms, rest) => (.object ms, rest)
    | s => (scalar (s.takeWhile isWordChar)).map fun v => (v, s.dropWhile isWordChar)

/-- The elements of an array and its closing bracket. -/
def readElements : Nat → List Char → Option (List Value × List Char)
  | 0, _ => none
  | n + 1, s =>
    match readValue n (skipSpace s) with
    | some (v, s) =>
      match skipSpace s with
      | ']' :: rest => some ([v], rest)
      | ',' :: s => (readElements n s).map fun (vs, rest) => (v :: vs, rest)
      | _ => none
    | none => none

/-- The members of an object and its closing brace. -/
def readMembers : Nat → List Char → Option (List (String × Value) × List Char)
  | 0, _ => none
  | n + 1, s =>
    match readKey s with
    | some (key, s) =>
      match readValue n (skipSpace s) with
      | some (v, s) =>
        match skipSpace s with
        | '\x7d' :: rest => some ([(key, v)], rest)
        | ',' :: s => (readMembers n s).map fun (ms, rest) => ((key, v) :: ms, rest)
        | _ => none
      | none => none
    | none => none

end

/-- `JSON.parse` -/
def parse (text : List Char) : Option Value :=
  match readValue (2 * text.length + 1) (skipSpace text) with
  | some (v, rest) => if skipSpace rest = [] then some v else none
  | none => none

/-! ## The grammar -/

/-- `Chars s us rest`: from behind its opening quote, a string in `s` has the code points and
    surrogates `us`, and `rest` follows it. -/
inductive Chars : List Char → List Nat → List Char → Prop
  | close (rest : List Char) : Chars ('"' :: rest) [] rest
  | plain {c : Char} {s rest : List Char} {us : List Nat} :
      c ≠ '"' → c ≠ '\\' → 0x20 ≤ c.toNat → Chars s us rest → Chars (c :: s) (c.toNat :: us) rest
  | escape {e c : Char} {s rest : List Char} {us : List Nat} :
      unescape e = some c → Chars s us rest → Chars ('\\' :: e :: s) (c.toNat :: us) rest
  | unicode {a b c d : Char} {n : Nat} {s rest : List Char} {us : List Nat} :
      hex4 a b c d = some n → Chars s us rest →
        Chars ('\\' :: 'u' :: a :: b :: c :: d :: s) (n :: us) rest

/-- What the nonterminals of the grammar stand for. -/
inductive Tree where
  | value (v : Value)
  | elements (vs : List Value)
  | members (ms : List (String × Value))

/-- `Reads t s rest`: `t` stands at the head of `s`, and `rest` follows it. -/
inductive Reads : Tree → List Char → List Char → Prop
  | scalar {s : List Char} {v : Value} :
      scalar (s.takeWhile isWordChar) = some v → Reads (.value v) s (s.dropWhile isWordChar)
  | string {s rest : List Char} {us : List Nat} :
      Chars s us rest → Reads (.value (.string (stringOf us))) ('"' :: s) rest
  | emptyArray {s rest : List Char} :
      skipSpace s = ']' :: rest → Reads (.value (.array [])) ('[' :: s) rest
  | array {s rest : List Char} {vs : List Value} :
      Reads (.elements vs) s rest → Reads (.value (.array vs)) ('[' :: s) rest
  | lastElement {s s' rest : List Char} {v : Value} :
      Reads (.value v) (skipSpace s) s' → skipSpace s' = ']' :: rest →
        Reads (.elements [v]) s rest
  | element {s s' s'' rest : List Char} {v : Value} {vs : List Value} :
      Reads (.value v) (skipSpace s) s' → skipSpace s' = ',' :: s'' →
        Reads (.elements vs) s'' rest → Reads (.elements (v :: vs)) s rest
  | emptyObject {s rest : List Char} :
      skipSpace s = '\x7d' :: rest → Reads (.value (.object [])) ('\x7b' :: s) rest
  | object {s rest : List Char} {ms : List (String × Value)} :
      Reads (.members ms) s rest → Reads (.value (.object ms)) ('\x7b' :: s) rest
  | lastMember {s s' s'' rest : List Char} {key : String} {v : Value} :
      readKey s = some (key, s') → Reads (.value v) (skipSpace s') s'' →
        skipSpace s'' = '\x7d' :: rest → Reads (.members [(key, v)]) s rest
  | member {s s' s'' s₃ rest : List Char} {key : String} {v : Value}
      {ms : List (String × Value)} :
      readKey s = some (key, s') → Reads (.value v) (skipSpace s') s'' →
        skipSpace s'' = ',' :: s₃ → Reads (.members ms) s₃ rest →
          Reads (.members ((key, v) :: ms)) s rest

theorem chars_of_readChars {s rest : List Char} {us : List Nat}
    (h : readChars s = some (us, rest)) : Chars s us rest := by
  fun_induction readChars s generalizing us rest with
  | case1 => cases h
  | case2 =>
    cases h
    exact .close _
  | case3 a b c d s n us' rest' hs hn ih =>
    cases h
    exact .unicode hn (ih hs)
  | case4 => cases h
  | case5 e s _ c us' rest' hs hc ih =>
    cases h
    exact .escape hc (ih hs)
  | case6 => cases h
  | case7 => cases h
  | case8 c s hquote _ _ hc ih =>
    obtain ⟨⟨us', rest'⟩, hs, h⟩ := Option.map_eq_some_iff.1 h
    cases h
    rw [not_or, Nat.not_lt] at hc
    exact .plain (fun he => hquote he) hc.1 hc.2 (ih hs)

theorem Chars.readChars_eq {s rest : List Char} {us : List Nat} (h : Chars s us rest) :
    readChars s = some (us, rest) := by
  induction h with
  | close => rfl
  | @plain c s rest us hquote hbackslash hc _ ih =>
    have hc' : ¬ (c = '\\' ∨ c.toNat < 0x20) := not_or.2 ⟨hbackslash, Nat.not_lt.2 hc⟩
    rw [readChars, if_neg hc', ih, Option.map_some]
    · exact fun he => hquote he
    · intro _ _ _ _ _ he
      exact absurd he hbackslash
    · intro _ _ he
      exact absurd he hbackslash
  | @escape e c s rest us he _ ih =>
    have hu : e ≠ 'u' := by
      rintro rfl
      simp [unescape] at he
    rw [readChars, he, ih]
    intro _ _ _ _ _ hu'
    exact absurd hu' hu
  | unicode hn _ ih =>
    rw [readChars, hn, ih]

/-! ## The parser reads what the grammar derives -/

theorem length_skipSpace_le (s : List Char) : (skipSpace s).length ≤ s.length :=
  (List.dropWhile_sublist _).length_le

theorem Chars.length_lt {s rest : List Char} {us : List Nat} (h : Chars s us rest) :
    rest.length < s.length := by
  induction h with
  | close => simp
  | plain _ _ _ _ ih => simp only [List.length_cons]; omega
  | escape _ _ ih => simp only [List.length_cons]; omega
  | unicode _ _ ih => simp only [List.length_cons]; omega

theorem readKey_eq_some {s rest : List Char} {key : String} (h : readKey s = some (key, rest)) :
    ∃ s₁ s₂ us, skipSpace s = '"' :: s₁ ∧ Chars s₁ us s₂ ∧ skipSpace s₂ = ':' :: rest ∧
      key = stringOf us := by
  unfold readKey at h
  split at h
  · next s₁ hs =>
    split at h
    · next us s₂ hus =>
      split at h
      · next rest' hcolon =>
        cases h
        exact ⟨s₁, s₂, us, hs, chars_of_readChars hus, hcolon, rfl⟩
      · cases h
    · cases h
  · cases h

theorem readKey_length_lt {s rest : List Char} {key : String}
    (h : readKey s = some (key, rest)) : rest.length < s.length := by
  obtain ⟨s₁, s₂, us, hs, hus, hcolon, -⟩ := readKey_eq_some h
  have h₁ := length_skipSpace_le s
  have h₂ := hus.length_lt
  have h₃ := length_skipSpace_le s₂
  rw [hs, List.length_cons] at h₁
  rw [hcolon, List.length_cons] at h₃
  omega

theorem scalar_nil : scalar [] = none := by decide

/-- A value has at least one character, and so do the rests of an array and of an object. -/
theorem Reads.length_lt {t : Tree} {s rest : List Char} (h : Reads t s rest) :
    rest.length < s.length := by
  induction h with
  | @scalar s v h =>
    have hne : s.takeWhile isWordChar ≠ [] := by
      intro he
      rw [he, scalar_nil] at h
      cases h
    have hlen := congrArg List.length (List.takeWhile_append_dropWhile (p := isWordChar) (l := s))
    rw [List.length_append] at hlen
    have := List.length_pos_iff.2 hne
    omega
  | string hus =>
    have := hus.length_lt
    simp only [List.length_cons]
    omega
  | @emptyArray s rest hs =>
    have := length_skipSpace_le s
    rw [hs] at this
    simp only [List.length_cons] at this ⊢
    omega
  | array _ ih => simp only [List.length_cons]; omega
  | @lastElement s s' rest v _ hs' ih =>
    have h₁ := length_skipSpace_le s
    have h₂ := length_skipSpace_le s'
    rw [hs', List.length_cons] at h₂
    omega
  | @element s s' s'' rest v vs _ hs' _ ih ih' =>
    have h₁ := length_skipSpace_le s
    have h₂ := length_skipSpace_le s'
    rw [hs', List.length_cons] at h₂
    omega
  | @emptyObject s rest hs =>
    have := length_skipSpace_le s
    rw [hs] at this
    simp only [List.length_cons] at this ⊢
    omega
  | object _ ih => simp only [List.length_cons]; omega
  | @lastMember s s' s'' rest key v hkey _ hs'' ih =>
    have h₁ := readKey_length_lt hkey
    have h₂ := length_skipSpace_le s'
    have h₃ := length_skipSpace_le s''
    rw [hs'', List.length_cons] at h₃
    omega
  | @member s s' s'' s₃ rest key v ms hkey _ hs'' _ ih ih' =>
    have h₁ := readKey_length_lt hkey
    have h₂ := length_skipSpace_le s'
    have h₃ := length_skipSpace_le s''
    rw [hs'', List.length_cons] at h₃
    omega

/-- What the parser reads with at most `n` nested calls, the grammar derives. -/
def ReadsWithin (n : Nat) : Prop :=
  (∀ s v rest, readValue n s = some (v, rest) → Reads (.value v) s rest) ∧
    (∀ s vs rest, readElements n s = some (vs, rest) → Reads (.elements vs) s rest) ∧
      ∀ s ms rest, readMembers n s = some (ms, rest) → Reads (.members ms) s rest

theorem reads_of_readValue {n : Nat} (ih : ReadsWithin n) {s rest : List Char} {v : Value}
    (h : readValue (n + 1) s = some (v, rest)) : Reads (.value v) s rest := by
  obtain ⟨-, helements, hmembers⟩ := ih
  unfold readValue at h
  split at h
  · obtain ⟨⟨us, rest'⟩, hus, h⟩ := Option.map_eq_some_iff.1 h
    cases h
    exact .string (chars_of_readChars hus)
  · split at h
    · next hs =>
      cases h
      exact .emptyArray hs
    · obtain ⟨⟨vs, rest'⟩, hvs, h⟩ := Option.map_eq_some_iff.1 h
      cases h
      exact .array (helements _ _ _ hvs)
  · split at h
    · next hs =>
      cases h
      exact .emptyObject hs
    · obtain ⟨⟨ms, rest'⟩, hms, h⟩ := Option.map_eq_some_iff.1 h
      cases h
      exact .object (hmembers _ _ _ hms)
  · obtain ⟨v', hv', h⟩ := Option.map_eq_some_iff.1 h
    cases h
    exact .scalar hv'

theorem reads_of_readElements {n : Nat} (ih : ReadsWithin n) {s rest : List Char}
    {vs : List Value} (h : readElements (n + 1) s = some (vs, rest)) :
    Reads (.elements vs) s rest := by
  obtain ⟨hvalue, helements, -⟩ := ih
  unfold readElements at h
  split at h
  · next v s' hv =>
    split at h
    · next hs' =>
      cases h
      exact .lastElement (hvalue _ _ _ hv) hs'
    · next s'' hs' =>
      obtain ⟨⟨vs', rest'⟩, hvs, h⟩ := Option.map_eq_some_iff.1 h
      cases h
      exact .element (hvalue _ _ _ hv) hs' (helements _ _ _ hvs)
    · cases h
  · cases h

theorem reads_of_readMembers {n : Nat} (ih : ReadsWithin n) {s rest : List Char}
    {ms : List (String × Value)} (h : readMembers (n + 1) s = some (ms, rest)) :
    Reads (.members ms) s rest := by
  obtain ⟨hvalue, -, hmembers⟩ := ih
  unfold readMembers at h
  split at h
  · next key s' hkey =>
    split at h
    · next v s'' hv =>
      split at h
      · next hs'' =>
        cases h
        exact .lastMember hkey (hvalue _ _ _ hv) hs''
      · next s₃ hs'' =>
        obtain ⟨⟨ms', rest'⟩, hms, h⟩ := Option.map_eq_some_iff.1 h
        cases h
        exact .member hkey (hvalue _ _ _ hv) hs'' (hmembers _ _ _ hms)
      · cases h
    · cases h
  · cases h

theorem readsWithin (n : Nat) : ReadsWithin n := by
  induction n with
  | zero =>
    refine ⟨?_, ?_, ?_⟩
    all_goals
      intro _ _ _ h
      simp [readValue, readElements, readMembers] at h
  | succ n ih =>
    exact ⟨fun _ _ _ => reads_of_readValue ih, fun _ _ _ => reads_of_readElements ih,
      fun _ _ _ => reads_of_readMembers ih⟩

/-- The parser's result for what a nonterminal stands for, and the calls it needs. -/
def Tree.ReadBy : Tree → List Char → List Char → Prop
  | .value v, s, rest => ∀ n, 2 * s.length < n → readValue n s = some (v, rest)
  | .elements vs, s, rest => ∀ n, 2 * s.length + 1 < n → readElements n s = some (vs, rest)
  | .members ms, s, rest => ∀ n, 2 * s.length + 1 < n → readMembers n s = some (ms, rest)

theorem isWordChar_of_scalar {c : Char} {s : List Char} {v : Value}
    (h : scalar ((c :: s).takeWhile isWordChar) = some v) : isWordChar c = true := by
  by_contra hc
  rw [List.takeWhile_cons_of_neg hc, scalar_nil] at h
  cases h

/-- No value starts with a closing bracket. -/
theorem Reads.not_bracket {s rest : List Char} {v : Value} {s' : List Char}
    (h : Reads (.value v) s rest) : s ≠ ']' :: s' := by
  rintro rfl
  cases h with
  | scalar h => exact absurd (isWordChar_of_scalar h) (by decide)

theorem readValue_scalar {n : Nat} {s : List Char} {v : Value}
    (h : scalar (s.takeWhile isWordChar) = some v) :
    readValue (n + 1) s = some (v, s.dropWhile isWordChar) := by
  cases s with
  | nil => cases h
  | cons c s =>
    have hc := isWordChar_of_scalar h
    unfold readValue
    split
    · next he =>
      cases he
      exact absurd hc (by decide)
    · next he =>
      cases he
      exact absurd hc (by decide)
    · next he =>
      cases he
      exact absurd hc (by decide)
    · rw [h, Option.map_some]

theorem readValue_array {n : Nat} {s rest : List Char} {vs : List Value}
    (hs : ∀ s', skipSpace s ≠ ']' :: s') (h : readElements n s = some (vs, rest)) :
    readValue (n + 1) ('[' :: s) = some (.array vs, rest) := by
  rw [readValue]
  split
  · next he => exact absurd he (hs _)
  · rw [h, Option.map_some]

theorem readValue_object {n : Nat} {s rest : List Char} {ms : List (String × Value)}
    (hs : ∀ s', skipSpace s ≠ '\x7d' :: s') (h : readMembers n s = some (ms, rest)) :
    readValue (n + 1) ('\x7b' :: s) = some (.object ms, rest) := by
  rw [readValue]
  split
  · next he => exact absurd he (hs _)
  · rw [h, Option.map_some]

theorem Reads.elements_not_bracket {s rest s' : List Char} {vs : List Value}
    (h : Reads (.elements vs) s rest) : skipSpace s ≠ ']' :: s' := by
  cases h with
  | lastElement hv => exact hv.not_bracket
  | element hv => exact hv.not_bracket

theorem Reads.members_not_brace {s rest s' : List Char} {ms : List (String × Value)}
    (h : Reads (.members ms) s rest) : skipSpace s ≠ '\x7d' :: s' := by
  have hkey : ∃ key r, readKey s = some (key, r) := by
    cases h with
    | lastMember hkey => exact ⟨_, _, hkey⟩
    | member hkey => exact ⟨_, _, hkey⟩
  obtain ⟨key, r, hkey⟩ := hkey
  obtain ⟨s₁, -, -, hs, -⟩ := readKey_eq_some hkey
  intro he
  cases he.symm.trans hs

theorem Reads.readBy {t : Tree} {s rest : List Char} (h : Reads t s rest) :
    t.ReadBy s rest := by
  induction h with
  | scalar h =>
    intro n hn
    obtain ⟨n, rfl⟩ := Nat.exists_eq_add_one_of_ne_zero (Nat.ne_zero_of_lt hn)
    exact readValue_scalar h
  | string hus =>
    intro n hn
    obtain ⟨n, rfl⟩ := Nat.exists_eq_add_one_of_ne_zero (Nat.ne_zero_of_lt hn)
    rw [readValue, hus.readChars_eq, Option.map_some]
  | emptyArray hs =>
    intro n hn
    obtain ⟨n, rfl⟩ := Nat.exists_eq_add_one_of_ne_zero (Nat.ne_zero_of_lt hn)
    simp only [readValue, hs]
  | array hvs ih =>
    intro n hn
    obtain ⟨n, rfl⟩ := Nat.exists_eq_add_one_of_ne_zero (Nat.ne_zero_of_lt hn)
    rw [List.length_cons] at hn
    exact readValue_array (fun _ => hvs.elements_not_bracket) (ih n (by omega))
  | @lastElement s s' rest v hv hs' ih =>
    intro n hn
    obtain ⟨n, rfl⟩ := Nat.exists_eq_add_one_of_ne_zero (Nat.ne_zero_of_lt hn)
    have := length_skipSpace_le s
    rw [readElements, ih n (by omega)]
    simp only [hs']
  | @element s s' s'' rest v vs hv hs' _ ih ih' =>
    intro n hn
    obtain ⟨n, rfl⟩ := Nat.exists_eq_add_one_of_ne_zero (Nat.ne_zero_of_lt hn)
    have h₁ := length_skipSpace_le s
    have h₂ := hv.length_lt
    have h₃ := length_skipSpace_le s'
    rw [hs', List.length_cons] at h₃
    rw [readElements, ih n (by omega)]
    simp only [hs', ih' n (by omega), Option.map_some]
  | emptyObject hs =>
    intro n hn
    obtain ⟨n, rfl⟩ := Nat.exists_eq_add_one_of_ne_zero (Nat.ne_zero_of_lt hn)
    simp only [readValue, hs]
  | object hms ih =>
    intro n hn
    obtain ⟨n, rfl⟩ := Nat.exists_eq_add_one_of_ne_zero (Nat.ne_zero_of_lt hn)
    rw [List.length_cons] at hn
    exact readValue_object (fun _ => hms.members_not_brace) (ih n (by omega))
  | @lastMember s s' s'' rest key v hkey hv hs'' ih =>
    intro n hn
    obtain ⟨n, rfl⟩ := Nat.exists_eq_add_one_of_ne_zero (Nat.ne_zero_of_lt hn)
    have h₁ := readKey_length_lt hkey
    have h₂ := length_skipSpace_le s'
    rw [readMembers, hkey]
    simp only [ih n (by omega), hs'']
  | @member s s' s'' s₃ rest key v ms hkey hv hs'' _ ih ih' =>
    intro n hn
    obtain ⟨n, rfl⟩ := Nat.exists_eq_add_one_of_ne_zero (Nat.ne_zero_of_lt hn)
    have h₁ := readKey_length_lt hkey
    have h₂ := length_skipSpace_le s'
    have h₃ := hv.length_lt
    have h₄ := length_skipSpace_le s''
    rw [hs'', List.length_cons] at h₄
    rw [readMembers, hkey]
    simp only [ih n (by omega), hs'', ih' n (by omega), Option.map_some]

/-- **The parser is the grammar**: it accepts a text exactly when the grammar derives it from a
    value with nothing but white space around it, and returns that value. -/
theorem parse_eq_some {text : List Char} {v : Value} :
    parse text = some v ↔
      ∃ rest, Reads (.value v) (skipSpace text) rest ∧ skipSpace rest = [] := by
  constructor
  · intro h
    unfold parse at h
    split at h
    · next v' rest hv =>
      by_cases hrest : skipSpace rest = []
      · rw [if_pos hrest] at h
        cases h
        exact ⟨rest, (readsWithin _).1 _ _ _ hv, hrest⟩
      · rw [if_neg hrest] at h
        cases h
    · cases h
  · rintro ⟨rest, hv, hrest⟩
    have hread : readValue (2 * text.length + 1) (skipSpace text) = some (v, rest) :=
      hv.readBy _ (by have := length_skipSpace_le text; omega)
    simp only [parse, hread, if_pos hrest]

/-! ## Printing -/

def hexChar (n : Nat) : Char :=
  if n < 10 then Char.ofNat ('0'.toNat + n) else Char.ofNat ('a'.toNat + (n - 10))

/-- A character of a string, as `JSON.stringify` writes it. -/
def escape (c : Char) : List Char :=
  if c = '"' then ['\\', '"']
  else if c = '\\' then ['\\', '\\']
  else if c = '\x08' then ['\\', 'b']
  else if c = '\x0c' then ['\\', 'f']
  else if c = '\n' then ['\\', 'n']
  else if c = '\r' then ['\\', 'r']
  else if c = '\t' then ['\\', 't']
  else if c.toNat < 0x20 then ['\\', 'u', '0', '0', hexChar (c.toNat / 16), hexChar (c.toNat % 16)]
  else [c]

def printString (s : String) : List Char := '"' :: (s.toList.flatMap escape ++ ['"'])

mutual

/-- `JSON.stringify` -/
def Value.print : Value → List Char
  | .null => "null".toList
  | .bool true => "true".toList
  | .bool false => "false".toList
  | .number lexeme => lexeme.text
  | .string s => printString s
  | .array vs => '[' :: (printElements vs ++ [']'])
  | .object ms => '\x7b' :: (printMembers ms ++ ['\x7d'])

def printElements : List Value → List Char
  | [] => []
  | [v] => v.print
  | v :: vs => v.print ++ ',' :: printElements vs

def printMembers : List (String × Value) → List Char
  | [] => []
  | [(key, v)] => printString key ++ ':' :: v.print
  | (key, v) :: ms => printString key ++ ':' :: (v.print ++ ',' :: printMembers ms)

end

theorem printElements_cons_cons (v v' : Value) (vs : List Value) :
    printElements (v :: v' :: vs) = v.print ++ ',' :: printElements (v' :: vs) := by
  rw [printElements]
  exact List.cons_ne_nil v' vs

theorem printMembers_cons_cons (key : String) (v : Value) (m : String × Value)
    (ms : List (String × Value)) :
    printMembers ((key, v) :: m :: ms) =
      printString key ++ ':' :: (v.print ++ ',' :: printMembers (m :: ms)) := by
  rw [printMembers]
  exact List.cons_ne_nil m ms

/-! ## A printed value is read back -/

theorem all_isWordChar_of_isDigit {s : List Char} (h : s.all Char.isDigit = true) :
    s.all isWordChar = true := by
  rw [List.all_eq_true] at h ⊢
  intro c hc
  simp [isWordChar, Char.isAlphanum, h c hc]

theorem all_isWordChar_of_isDigits {s : List Char} (h : isDigits s = true) :
    s.all isWordChar = true := by
  rw [isDigits, Bool.and_eq_true] at h
  exact all_isWordChar_of_isDigit h.2

theorem isWordChar_of_e {e : Char} (h : (decide (e = 'e') || decide (e = 'E')) = true) :
    isWordChar e = true := by
  rw [Bool.or_eq_true, decide_eq_true_eq, decide_eq_true_eq] at h
  rcases h with rfl | rfl <;> decide

theorem all_isWordChar_of_isExponent {s : List Char} (h : isExponent s = true) :
    s.all isWordChar = true := by
  unfold isExponent at h
  split at h
  · rfl
  all_goals
    rw [Bool.and_eq_true] at h
    have he := isWordChar_of_e h.1
    have hs := all_isWordChar_of_isDigits h.2
    simp only [List.all_cons, he, Bool.true_and]
  · exact hs
  · exact hs
  · exact hs

theorem all_isWordChar_digits (s : List Char) :
    (s.takeWhile Char.isDigit).all isWordChar = true :=
  all_isWordChar_of_isDigit (List.all_takeWhile ..)

theorem all_isWordChar_of_digits {s : List Char}
    (h : (s.dropWhile Char.isDigit).all isWordChar = true) : s.all isWordChar = true := by
  rw [← List.takeWhile_append_dropWhile (p := Char.isDigit) (l := s), List.all_append,
    all_isWordChar_digits, h, Bool.and_self]

theorem all_isWordChar_of_isFraction {s : List Char} (h : isFraction s = true) :
    s.all isWordChar = true := by
  unfold isFraction at h
  split at h
  · rw [Bool.and_eq_true] at h
    rw [List.all_cons, all_isWordChar_of_digits (all_isWordChar_of_isExponent h.2)]
    decide
  · exact all_isWordChar_of_isExponent h

theorem all_isWordChar_of_isUnsigned {s : List Char} (h : isUnsigned s = true) :
    s.all isWordChar = true := by
  simp only [isUnsigned, Bool.and_eq_true] at h
  exact all_isWordChar_of_digits (all_isWordChar_of_isFraction h.2)

theorem Lexeme.all_isWordChar (l : Lexeme) : l.text.all isWordChar = true := by
  have h := l.valid
  unfold isNumber at h
  split at h
  · next s hs =>
    rw [hs, List.all_cons, all_isWordChar_of_isUnsigned h]
    decide
  · exact all_isWordChar_of_isUnsigned h

theorem scalar_lexeme (l : Lexeme) : scalar l.text = some (.number l) := by
  have hne : ∀ word, isNumber word = false → l.text ≠ word := by
    rintro word hword rfl
    rw [l.valid] at hword
    cases hword
  rw [scalar, if_neg (hne _ (by decide)), if_neg (hne _ (by decide)), if_neg (hne _ (by decide)),
    dif_pos l.valid]

theorem hex4_hexChar : ∀ n < 0x20, hex4 '0' '0' (hexChar (n / 16)) (hexChar (n % 16)) = some n := by
  decide

theorem Chars.escape_append {c : Char} {s rest : List Char} {us : List Nat}
    (h : Chars s us rest) : Chars (Json.escape c ++ s) (c.toNat :: us) rest := by
  unfold Json.escape
  split
  · next hc =>
    subst hc
    exact .escape rfl h
  split
  · next hc =>
    subst hc
    exact .escape rfl h
  split
  · next hc =>
    subst hc
    exact .escape rfl h
  split
  · next hc =>
    subst hc
    exact .escape rfl h
  split
  · next hc =>
    subst hc
    exact .escape rfl h
  split
  · next hc =>
    subst hc
    exact .escape rfl h
  split
  · next hc =>
    subst hc
    exact .escape rfl h
  split
  · next hc => exact .unicode (hex4_hexChar _ hc) h
  · next hquote hbackslash _ _ _ _ _ hc => exact .plain hquote hbackslash (Nat.not_lt.1 hc) h

theorem chars_flatMap_escape (s rest : List Char) :
    Chars (s.flatMap escape ++ '"' :: rest) (s.map Char.toNat) rest := by
  induction s with
  | nil => exact .close rest
  | cons c s ih =>
    rw [List.flatMap_cons, List.append_assoc, List.map_cons]
    exact ih.escape_append

/-- A character is no surrogate. -/
theorem isHigh_toNat (c : Char) : isHigh c.toNat = false := by
  have h := c.valid
  simp only [UInt32.isValidChar, Nat.isValidChar] at h
  have : c.toNat = c.val.toNat := rfl
  simp only [isHigh, Bool.and_eq_false_imp, decide_eq_true_eq, decide_eq_false_iff_not]
  omega

theorem codePoint_toNat (c : Char) : codePoint c.toNat = c := by
  have h : c.toNat.isValidChar := c.valid
  rw [codePoint, if_pos h, Char.ofNat_toNat]

theorem codePoints_map_toNat (s : List Char) : codePoints (s.map Char.toNat) = s := by
  induction s with
  | nil => rfl
  | cons c s ih =>
    cases s with
    | nil => simp [codePoints, codePoint_toNat]
    | cons c' s =>
      rw [List.map_cons, List.map_cons, codePoints, isHigh_toNat, if_neg (by simp),
        codePoint_toNat, ← List.map_cons, ih]

theorem stringOf_map_toNat (s : String) : stringOf (s.toList.map Char.toNat) = s := by
  rw [stringOf, codePoints_map_toNat, String.ofList_toList]

theorem chars_printString (s : String) (rest : List Char) :
    ∃ s', printString s ++ rest = '"' :: s' ∧ Chars s' (s.toList.map Char.toNat) rest := by
  refine ⟨s.toList.flatMap escape ++ '"' :: rest, ?_, chars_flatMap_escape _ _⟩
  simp [printString]

theorem skipSpace_cons {c : Char} (s : List Char) (h : isSpace c = false) :
    skipSpace (c :: s) = c :: s := by
  rw [skipSpace, List.dropWhile_cons_of_neg (by simp [h])]

theorem readKey_printString (s : String) (rest : List Char) :
    readKey (printString s ++ ':' :: rest) = some (s, rest) := by
  obtain ⟨s', hs', hchars⟩ := chars_printString s (':' :: rest)
  rw [readKey, hs', skipSpace_cons _ (by decide)]
  simp only [hchars.readChars_eq, skipSpace_cons rest (show isSpace ':' = false by decide),
    stringOf_map_toNat]

theorem reads_printString (s : String) (rest : List Char) :
    Reads (.value (.string s)) (printString s ++ rest) rest := by
  obtain ⟨s', hs', hchars⟩ := chars_printString s rest
  have h := Reads.string hchars
  rwa [stringOf_map_toNat, ← hs'] at h

/-- No literal goes on in `rest`. -/
def NoWord (rest : List Char) : Prop := rest.takeWhile isWordChar = []

theorem NoWord.dropWhile_eq {rest : List Char} (h : NoWord rest) :
    rest.dropWhile isWordChar = rest := by
  have := List.takeWhile_append_dropWhile (p := isWordChar) (l := rest)
  rwa [h, List.nil_append] at this

theorem noWord_cons {c : Char} (s : List Char) (h : isWordChar c = false) : NoWord (c :: s) :=
  List.takeWhile_cons_of_neg (by simp [h])

theorem noWord_nil : NoWord [] := rfl

theorem reads_word {word rest : List Char} {v : Value} (hword : word.all isWordChar = true)
    (h : Json.scalar word = some v) (hrest : NoWord rest) :
    Reads (.value v) (word ++ rest) rest := by
  rw [List.all_eq_true] at hword
  have htake : (word ++ rest).takeWhile isWordChar = word := by
    rw [List.takeWhile_append_of_pos hword, hrest, List.append_nil]
  have hdrop : (word ++ rest).dropWhile isWordChar = rest := by
    rw [List.dropWhile_append_of_pos hword, hrest.dropWhile_eq]
  have hread : Reads (.value v) (word ++ rest) ((word ++ rest).dropWhile isWordChar) :=
    .scalar (by rw [htake, h])
  rwa [hdrop] at hread

/-- A value starts with no space. -/
theorem Reads.skipSpace_eq {v : Value} {s rest : List Char} (h : Reads (.value v) s rest) :
    skipSpace s = s := by
  cases h with
  | scalar h =>
    cases s with
    | nil => rfl
    | cons c s =>
      have hc := isWordChar_of_scalar h
      refine skipSpace_cons s ?_
      rw [Bool.eq_false_iff]
      intro hspace
      simp only [isSpace, Bool.or_eq_true, decide_eq_true_eq] at hspace
      rcases hspace with ((rfl | rfl) | rfl) | rfl <;> exact absurd hc (by decide)
  | string => exact skipSpace_cons _ (by decide)
  | emptyArray => exact skipSpace_cons _ (by decide)
  | array => exact skipSpace_cons _ (by decide)
  | emptyObject => exact skipSpace_cons _ (by decide)
  | object => exact skipSpace_cons _ (by decide)

theorem Lexeme.reads (l : Lexeme) {rest : List Char} (hrest : NoWord rest) :
    Reads (.value (.number l)) (l.text ++ rest) rest :=
  reads_word l.all_isWordChar (scalar_lexeme l) hrest

mutual

theorem Value.reads_print : (v : Value) → {rest : List Char} → NoWord rest →
    Reads (.value v) (v.print ++ rest) rest
  | .null, _, hrest => reads_word (by decide) rfl hrest
  | .bool true, _, hrest => reads_word (by decide) rfl hrest
  | .bool false, _, hrest => reads_word (by decide) rfl hrest
  | .number l, _, hrest => l.reads hrest
  | .string s, rest, _ => reads_printString s rest
  | .array vs, rest, _ => by
    rw [Value.print, List.cons_append, List.append_assoc, List.singleton_append]
    by_cases hvs : vs = []
    · subst hvs
      exact .emptyArray (skipSpace_cons _ (by decide))
    · exact .array (reads_printElements vs hvs rest)
  | .object ms, rest, _ => by
    rw [Value.print, List.cons_append, List.append_assoc, List.singleton_append]
    by_cases hms : ms = []
    · subst hms
      exact .emptyObject (skipSpace_cons _ (by decide))
    · exact .object (reads_printMembers ms hms rest)

theorem reads_printElements : (vs : List Value) → vs ≠ [] → (rest : List Char) →
    Reads (.elements vs) (printElements vs ++ ']' :: rest) rest
  | [], hvs, _ => absurd rfl hvs
  | [v], _, rest => by
    have hv := v.reads_print (noWord_cons rest (show isWordChar ']' = false by decide))
    rw [printElements]
    refine .lastElement ?_ (skipSpace_cons rest (by decide))
    rwa [hv.skipSpace_eq]
  | v :: v' :: vs, _, rest => by
    have hv := v.reads_print
      (noWord_cons (printElements (v' :: vs) ++ ']' :: rest)
        (show isWordChar ',' = false by decide))
    rw [printElements_cons_cons, List.append_assoc, List.cons_append]
    refine .element ?_ (skipSpace_cons _ (by decide))
      (reads_printElements (v' :: vs) (List.cons_ne_nil v' vs) rest)
    rwa [hv.skipSpace_eq]

theorem reads_printMembers : (ms : List (String × Value)) → ms ≠ [] → (rest : List Char) →
    Reads (.members ms) (printMembers ms ++ '\x7d' :: rest) rest
  | [], hms, _ => absurd rfl hms
  | [(key, v)], _, rest => by
    have hv := v.reads_print (noWord_cons rest (show isWordChar '\x7d' = false by decide))
    rw [printMembers, List.append_assoc, List.cons_append]
    refine .lastMember (readKey_printString _ _) ?_ (skipSpace_cons rest (by decide))
    rwa [hv.skipSpace_eq]
  | (key, v) :: m :: ms, _, rest => by
    have hv := v.reads_print
      (noWord_cons (printMembers (m :: ms) ++ '\x7d' :: rest)
        (show isWordChar ',' = false by decide))
    rw [printMembers_cons_cons, List.append_assoc, List.cons_append, List.append_assoc,
      List.cons_append]
    refine .member (readKey_printString _ _) ?_ (skipSpace_cons _ (by decide))
      (reads_printMembers (m :: ms) (List.cons_ne_nil m ms) rest)
    rwa [hv.skipSpace_eq]

end

/-- **What `JSON.stringify` writes, `JSON.parse` reads back.** -/
@[simp] theorem parse_print (v : Value) : parse v.print = some v := by
  have hv := v.reads_print noWord_nil
  rw [List.append_nil] at hv
  exact parse_eq_some.2 ⟨[], by rwa [hv.skipSpace_eq], rfl⟩

/-! ## Integers -/

theorem head?_toDigits {n : Nat} (h : (Nat.toDigits 10 n).head? = some '0') : n = 0 := by
  induction n using Nat.strongRecOn with
  | ind n ih =>
    rw [Nat.toDigits_eq_if (by decide)] at h
    by_cases hn : n < 10
    · rw [if_pos hn, List.head?_cons, Option.some.injEq, Nat.digitChar_eq_zero] at h
      exact h
    · rw [if_neg hn, List.head?_append] at h
      have hlead : (Nat.toDigits 10 (n / 10)).head? = some '0' := by
        cases hd : Nat.toDigits 10 (n / 10) with
        | nil => exact absurd hd Nat.toDigits_ne_nil
        | cons c cs => simpa [hd] using h
      have := ih (n / 10) (by omega) hlead
      omega

theorem all_isDigit_toDigits (n : Nat) : (Nat.toDigits 10 n).all Char.isDigit = true :=
  List.all_eq_true.2 fun _ hc => Nat.isDigit_of_mem_toDigits (by decide) (by decide) hc

theorem isUnsigned_toDigits (n : Nat) : isUnsigned (Nat.toDigits 10 n) = true := by
  have hall := List.all_eq_true.1 (all_isDigit_toDigits n)
  have htake : (Nat.toDigits 10 n).takeWhile Char.isDigit = Nat.toDigits 10 n :=
    List.takeWhile_eq_self_iff.2 hall
  have hdrop : (Nat.toDigits 10 n).dropWhile Char.isDigit = [] :=
    List.dropWhile_eq_nil_iff.2 hall
  have hlead : Nat.toDigits 10 n = ['0'] ∨ (Nat.toDigits 10 n).head? ≠ some '0' := by
    by_cases h : (Nat.toDigits 10 n).head? = some '0'
    · rw [head?_toDigits h]
      exact Or.inl (by decide)
    · exact Or.inr h
  simp only [isUnsigned, htake, hdrop, Nat.toDigits_ne_nil, ne_eq, not_false_eq_true,
    decide_true, Bool.true_and, Bool.and_eq_true, Bool.or_eq_true, decide_eq_true_eq]
  exact ⟨hlead, rfl⟩

theorem isNumber_of_isUnsigned {s : List Char} (h : isUnsigned s = true) : isNumber s = true := by
  unfold isNumber
  split
  · simp [isUnsigned] at h
  · exact h

/-- The text of an integer. -/
def Lexeme.ofInt : Int → Lexeme
  | .ofNat n => ⟨Nat.toDigits 10 n, isNumber_of_isUnsigned (isUnsigned_toDigits n)⟩
  | .negSucc n => ⟨'-' :: Nat.toDigits 10 (n + 1), isUnsigned_toDigits (n + 1)⟩

/-! ## Members -/

/-- A member of an object: of members with one key, the last counts. -/
def Value.member? (v : Value) (key : String) : Option Value :=
  match v with
  | .object ms => (ms.reverse.find? fun m => m.1 = key).map Prod.snd
  | _ => none

end Json

import DecentDebates.Lib.Json
import Mathlib.Data.List.Flatten
import Mathlib.Data.List.Perm.Subperm

set_option autoImplicit false

/-! # Texts of a value

A value has many texts. None is shorter than the one that is printed, whether one counts all
characters or the ASCII ones and some others (`countP_print_le`), and a member that is printed at
the end of a text belongs to the object that is read (`mem_of_parse_append`). -/

namespace Json

/-! ## Strings -/

theorem codePoints_toNat_cons (c : Char) (us : List Nat) :
    codePoints (c.toNat :: us) = c :: codePoints us := by
  cases us with
  | nil => simp [codePoints, codePoint_toNat]
  | cons n us => rw [codePoints, isHigh_toNat, if_neg (by simp), codePoint_toNat]

theorem length_escape_le (c : Char) : (escape c).length ≤ 6 := by
  unfold escape
  repeat' split
  all_goals simp

theorem escape_of_plain {c : Char} (hquote : c ≠ '"') (hbackslash : c ≠ '\\')
    (hc : 0x20 ≤ c.toNat) : escape c = [c] := by
  have hne (d : Char) (hd : d.toNat < 0x20) : c ≠ d := by
    rintro rfl
    omega
  rw [escape, if_neg hquote, if_neg hbackslash, if_neg (hne _ (by decide)),
    if_neg (hne _ (by decide)), if_neg (hne _ (by decide)), if_neg (hne _ (by decide)),
    if_neg (hne _ (by decide)), if_neg (Nat.not_lt.2 hc)]

theorem unescape_eq_some {e c : Char} (h : unescape e = some c) :
    e.toNat < 0x80 ∧ (escape c).length ≤ 2 := by
  unfold unescape at h
  split at h
  all_goals first | (cases h; decide) | cases h

theorem toNat_lt_of_hexDigit {c : Char} {n : Nat} (h : hexDigit c = some n) : c.toNat < 0x80 := by
  unfold hexDigit at h
  split at h
  · next hc =>
    exact Nat.lt_of_le_of_lt (Char.isDigit_iff_toNat.1 hc).2 (by decide)
  split at h
  · next hc =>
    have : c.toNat ≤ 'f'.toNat := hc.2
    exact Nat.lt_of_le_of_lt this (by decide)
  split at h
  · next hc =>
    have : c.toNat ≤ 'F'.toNat := hc.2
    exact Nat.lt_of_le_of_lt this (by decide)
  · cases h

theorem toNat_lt_of_hex4 {a b c d : Char} {n : Nat} (h : hex4 a b c d = some n) :
    a.toNat < 0x80 ∧ b.toNat < 0x80 ∧ c.toNat < 0x80 ∧ d.toNat < 0x80 := by
  simp only [hex4, Option.bind_eq_bind, Option.bind_eq_some_iff] at h
  obtain ⟨_, ha, _, hb, _, hc, _, hd, -⟩ := h
  exact ⟨toNat_lt_of_hexDigit ha, toNat_lt_of_hexDigit hb, toNat_lt_of_hexDigit hc,
    toNat_lt_of_hexDigit hd⟩

theorem countP_codePoints_cons_le (f : Char → Bool) (n : Nat) (us : List Nat) :
    ((codePoints (n :: us)).flatMap escape).countP f ≤
      6 + ((codePoints us).flatMap escape).countP f := by
  have hone (c : Char) (s : List Char) :
      ((c :: s).flatMap escape).countP f ≤ 6 + (s.flatMap escape).countP f := by
    rw [List.flatMap_cons, List.countP_append]
    have := List.countP_le_length (p := f) (l := escape c)
    have := length_escape_le c
    omega
  cases us with
  | nil => exact hone _ _
  | cons m ns =>
    rw [codePoints]
    split
    · next h =>
      -- The low surrogate alone would be a character too.
      have hlow : isHigh m = false := by
        have := h.2
        simp only [isLow, isHigh, Bool.and_eq_true, Bool.and_eq_false_imp, decide_eq_true_eq,
          decide_eq_false_iff_not] at this ⊢
        omega
      have hm : codePoints (m :: ns) = codePoint m :: codePoints ns := by
        cases ns with
        | nil => rfl
        | cons k ns => rw [codePoints, if_neg (by simp [hlow])]
      have := hone (codePoint (0x10000 + (n - 0xD800) * 0x400 + (m - 0xDC00))) (codePoints ns)
      rw [hm, List.flatMap_cons (x := codePoint m), List.countP_append]
      omega
    · exact hone _ _

/-! ## The printed text is the shortest -/

theorem print_of_scalar {word : List Char} {v : Value} (h : Json.scalar word = some v) :
    v.print = word := by
  unfold Json.scalar at h
  split at h
  · next hword =>
    cases h
    exact hword.symm
  split at h
  · next hword =>
    cases h
    exact hword.symm
  split at h
  · next hword =>
    cases h
    exact hword.symm
  split at h
  · cases h
    rfl
  · cases h

/-- The characters of the printed text, with the bracket that closes it. -/
def Tree.printed : Tree → List Char
  | .value v => v.print
  | .elements vs => printElements vs ++ [']']
  | .members ms => printMembers ms ++ ['\x7d']

section Count

variable {f : Char → Bool} (hf : ∀ c : Char, c.toNat < 0x80 → f c = true)
include hf

theorem countP_cons_ascii {c : Char} (hc : c.toNat < 0x80) (s : List Char) :
    (c :: s).countP f = s.countP f + 1 :=
  List.countP_cons_of_pos (hf c hc)

theorem Chars.countP_le {s rest : List Char} {us : List Nat} (h : Chars s us rest) :
    rest.countP f + 1 + ((codePoints us).flatMap Json.escape).countP f ≤ s.countP f := by
  induction h with
  | close rest =>
    rw [countP_cons_ascii hf (by decide)]
    exact Nat.le_refl _
  | @plain c s rest us hquote hbackslash hc _ ih =>
    rw [codePoints_toNat_cons, List.flatMap_cons, escape_of_plain hquote hbackslash hc,
      List.singleton_append, List.countP_cons, List.countP_cons (l := s)]
    omega
  | @escape e c s rest us he _ ih =>
    have hc := unescape_eq_some he
    have hle := List.countP_le_length (p := f) (l := Json.escape c)
    rw [codePoints_toNat_cons, List.flatMap_cons, List.countP_append,
      countP_cons_ascii hf (by decide), countP_cons_ascii hf hc.1]
    omega
  | @unicode a b c d n s rest us hn _ ih =>
    obtain ⟨ha, hb, hc, hd⟩ := toNat_lt_of_hex4 hn
    have hle := countP_codePoints_cons_le f n us
    rw [countP_cons_ascii hf (by decide), countP_cons_ascii hf (by decide),
      countP_cons_ascii hf ha, countP_cons_ascii hf hb, countP_cons_ascii hf hc,
      countP_cons_ascii hf hd]
    omega

theorem Chars.countP_printString_le {s rest : List Char} {us : List Nat} (h : Chars s us rest) :
    rest.countP f + (printString (stringOf us)).countP f ≤ ('"' :: s).countP f := by
  have hle := h.countP_le hf
  rw [printString, stringOf, String.toList_ofList, countP_cons_ascii hf (by decide),
    countP_cons_ascii hf (by decide), List.countP_append, countP_cons_ascii hf (by decide),
    List.countP_nil]
  omega

omit hf in
theorem countP_skipSpace_le (s : List Char) : (skipSpace s).countP f ≤ s.countP f :=
  (List.dropWhile_sublist _).countP_le

theorem countP_of_skipSpace {s rest : List Char} {c : Char} (h : skipSpace s = c :: rest)
    (hc : c.toNat < 0x80) : rest.countP f + 1 ≤ s.countP f := by
  have hle := countP_skipSpace_le (f := f) s
  rwa [h, countP_cons_ascii hf hc] at hle

theorem countP_readKey_le {s rest : List Char} {key : String} (h : readKey s = some (key, rest)) :
    rest.countP f + 1 + (printString key).countP f ≤ s.countP f := by
  obtain ⟨s₁, s₂, us, hs, hus, hcolon, rfl⟩ := readKey_eq_some h
  have hstring := hus.countP_printString_le hf
  have hspace := countP_skipSpace_le (f := f) s
  have hrest := countP_of_skipSpace hf hcolon (by decide)
  rw [hs] at hspace
  omega

theorem Reads.countP_le {t : Tree} {s rest : List Char} (h : Reads t s rest) :
    rest.countP f + t.printed.countP f ≤ s.countP f := by
  induction h with
  | @scalar s v h =>
    have hs := congrArg (List.countP f) (List.takeWhile_append_dropWhile (p := isWordChar) (l := s))
    rw [List.countP_append] at hs
    rw [Tree.printed, print_of_scalar h]
    omega
  | string hus => exact hus.countP_printString_le hf
  | emptyArray hs =>
    have := countP_of_skipSpace hf hs (by decide)
    have hopen := countP_cons_ascii hf (show '['.toNat < 0x80 by decide)
    have hclose := countP_cons_ascii hf (show ']'.toNat < 0x80 by decide)
    simp only [Tree.printed, Value.print, printElements, List.nil_append, hopen, hclose,
      List.countP_nil]
    omega
  | array _ ih =>
    have hopen := countP_cons_ascii hf (show '['.toNat < 0x80 by decide)
    simp only [Tree.printed, Value.print, hopen] at ih ⊢
    omega
  | @lastElement s s' rest v _ hs' ih =>
    have h₁ := countP_skipSpace_le (f := f) s
    have h₂ := countP_of_skipSpace hf hs' (by decide)
    have hclose := countP_cons_ascii hf (show ']'.toNat < 0x80 by decide)
    simp only [Tree.printed, printElements, List.countP_append, hclose, List.countP_nil] at ih ⊢
    omega
  | @element s s' s'' rest v vs _ hs' hvs ih ih' =>
    have h₁ := countP_skipSpace_le (f := f) s
    have h₂ := countP_of_skipSpace hf hs' (by decide)
    obtain ⟨v', vs', rfl⟩ : ∃ v' vs', vs = v' :: vs' := by
      cases hvs with
      | lastElement => exact ⟨_, _, rfl⟩
      | element => exact ⟨_, _, rfl⟩
    have hcomma := countP_cons_ascii hf (show ','.toNat < 0x80 by decide)
    simp only [Tree.printed, printElements_cons_cons, List.countP_append, hcomma] at ih ih' ⊢
    omega
  | emptyObject hs =>
    have := countP_of_skipSpace hf hs (by decide)
    have hopen := countP_cons_ascii hf (show '\x7b'.toNat < 0x80 by decide)
    have hclose := countP_cons_ascii hf (show '\x7d'.toNat < 0x80 by decide)
    simp only [Tree.printed, Value.print, printMembers, List.nil_append, hopen, hclose,
      List.countP_nil]
    omega
  | object _ ih =>
    have hopen := countP_cons_ascii hf (show '\x7b'.toNat < 0x80 by decide)
    simp only [Tree.printed, Value.print, hopen] at ih ⊢
    omega
  | @lastMember s s' s'' rest key v hkey _ hs'' ih =>
    have h₁ := countP_readKey_le hf hkey
    have h₂ := countP_skipSpace_le (f := f) s'
    have h₃ := countP_of_skipSpace hf hs'' (by decide)
    have hcolon := countP_cons_ascii hf (show ':'.toNat < 0x80 by decide)
    have hclose := countP_cons_ascii hf (show '\x7d'.toNat < 0x80 by decide)
    simp only [Tree.printed, printMembers, List.countP_append, hcolon, hclose,
      List.countP_nil] at ih ⊢
    omega
  | @member s s' s'' s₃ rest key v ms hkey _ hs'' hms ih ih' =>
    have h₁ := countP_readKey_le hf hkey
    have h₂ := countP_skipSpace_le (f := f) s'
    have h₃ := countP_of_skipSpace hf hs'' (by decide)
    obtain ⟨m, ms', rfl⟩ : ∃ m ms', ms = m :: ms' := by
      cases hms with
      | lastMember => exact ⟨_, _, rfl⟩
      | member => exact ⟨_, _, rfl⟩
    have hcolon := countP_cons_ascii hf (show ':'.toNat < 0x80 by decide)
    have hcomma := countP_cons_ascii hf (show ','.toNat < 0x80 by decide)
    simp only [Tree.printed, printMembers_cons_cons, List.countP_append, hcolon,
      hcomma] at ih ih' ⊢
    omega

/-- **The printed text is the shortest**: the text that a value was read from has at least as many
    characters of each kind that ASCII belongs to. -/
theorem countP_print_le {text : List Char} {v : Value} (h : parse text = some v) :
    v.print.countP f ≤ text.countP f := by
  obtain ⟨rest, hv, -⟩ := parse_eq_some.1 h
  have hle := hv.countP_le hf
  have hspace := countP_skipSpace_le (f := f) text
  simp only [Tree.printed] at hle
  omega

omit hf in
theorem printMembers_append_comma {ms : List (String × Value)} (hms : ms ≠ []) :
    printMembers ms ++ [','] =
      ms.flatMap fun m => printString m.1 ++ ':' :: (m.2.print ++ [',']) := by
  induction ms with
  | nil => exact absurd rfl hms
  | cons m ms ih =>
    cases ms with
    | nil => simp [printMembers]
    | cons m' ms =>
      rw [printMembers_cons_cons, List.flatMap_cons, ← ih (List.cons_ne_nil m' ms)]
      simp

/-- Members that an object has make its text longer. -/
theorem countP_print_object_le {ms ms' : List (String × Value)} (hnodup : ms.Nodup)
    (hsub : ms ⊆ ms') :
    (Value.object ms).print.countP f ≤ (Value.object ms').print.countP f := by
  have hcomma := countP_cons_ascii hf (show ','.toNat < 0x80 by decide) []
  have hmembers : (printMembers ms).countP f ≤ (printMembers ms').countP f := by
    by_cases hms : ms = []
    · subst hms
      exact Nat.zero_le _
    · have hms' : ms' ≠ [] := List.ne_nil_of_mem (hsub (List.head_mem hms))
      obtain ⟨l, hperm, hl⟩ := hnodup.subperm hsub
      have hle := (hl.flatMap fun m => printString m.1 ++ ':' :: (m.2.print ++ [','])).countP_le
        (p := f)
      rw [(hperm.flatMap_right _).countP_eq, ← printMembers_append_comma hms,
        ← printMembers_append_comma hms', List.countP_append, List.countP_append] at hle
      omega
  simp only [Value.print, List.countP_cons, List.countP_append]
  omega

end Count

/-! ## The end of an object -/

theorem Reads.unique {v v' : Value} {s rest rest' : List Char} (h : Reads (.value v) s rest)
    (h' : Reads (.value v') s rest') : v = v' ∧ rest = rest' := by
  have heq := (h.readBy _ (Nat.lt_succ_self _)).symm.trans (h'.readBy _ (Nat.lt_succ_self _))
  rwa [Option.some.injEq, Prod.mk.injEq] at heq

theorem skipSpace_suffix (s : List Char) : skipSpace s <:+ s := List.dropWhile_suffix _

theorem suffix_of_skipSpace {s rest : List Char} {c : Char} (h : skipSpace s = c :: rest) :
    rest <:+ s :=
  (List.suffix_cons c rest).trans (h ▸ skipSpace_suffix s)

theorem Chars.suffix {s rest : List Char} {us : List Nat} (h : Chars s us rest) : rest <:+ s := by
  induction h with
  | close rest => exact List.suffix_cons _ _
  | plain _ _ _ _ ih => exact ih.trans (List.suffix_cons _ _)
  | @escape e c s rest us _ _ ih => exact ih.trans (List.suffix_append ['\\', e] s)
  | @unicode a b c d n s rest us _ _ ih =>
    exact ih.trans (List.suffix_append ['\\', 'u', a, b, c, d] s)

theorem readKey_suffix {s rest : List Char} {key : String} (h : readKey s = some (key, rest)) :
    rest <:+ s := by
  obtain ⟨s₁, s₂, us, hs, hus, hcolon, -⟩ := readKey_eq_some h
  exact ((suffix_of_skipSpace hcolon).trans hus.suffix).trans (suffix_of_skipSpace hs)

/-- What an object ends with. -/
def Tree.closing : Tree → List Char
  | .value (.object _) => ['\x7d']
  | .members _ => ['\x7d']
  | _ => []

theorem Reads.suffix {t : Tree} {s rest : List Char} (h : Reads t s rest) :
    t.closing ++ rest <:+ s := by
  have hrest {t : Tree} {s rest : List Char} (h : t.closing ++ rest <:+ s) : rest <:+ s :=
    (List.suffix_append _ _).trans h
  induction h with
  | scalar h =>
    unfold Tree.closing
    split
    · next h' =>
      cases h'
      unfold Json.scalar at h
      split at h <;> try cases h
      split at h <;> try cases h
      split at h <;> try cases h
      split at h <;> cases h
    · next h' => cases h'
    · exact List.dropWhile_suffix _
  | string hus => exact hus.suffix.trans (List.suffix_cons _ _)
  | emptyArray hs => exact (suffix_of_skipSpace hs).trans (List.suffix_cons _ _)
  | array _ ih => exact ih.trans (List.suffix_cons _ _)
  | lastElement _ hs' ih =>
    exact ((suffix_of_skipSpace hs').trans (hrest ih)).trans (skipSpace_suffix _)
  | element _ hs' _ ih ih' =>
    exact ((ih'.trans (suffix_of_skipSpace hs')).trans (hrest ih)).trans (skipSpace_suffix _)
  | @emptyObject s rest hs => exact (hs ▸ skipSpace_suffix s).trans (List.suffix_cons _ _)
  | object _ ih => exact ih.trans (List.suffix_cons _ _)
  | @lastMember s s' s'' rest key v hkey _ hs'' ih =>
    have hbrace : '\x7d' :: rest <:+ s'' := hs'' ▸ skipSpace_suffix s''
    exact ((hbrace.trans (hrest ih)).trans (skipSpace_suffix _)).trans (readKey_suffix hkey)
  | @member s s' s'' s₃ rest key v ms hkey _ hs'' _ ih ih' =>
    exact (((ih'.trans (suffix_of_skipSpace hs'')).trans (hrest ih)).trans
      (skipSpace_suffix _)).trans (readKey_suffix hkey)

/-- **An object's text ends with its brace.** -/
theorem last_of_parse_object {s : List Char} {c : Char} {ms : List (String × Value)}
    (h : parse (s ++ [c]) = some (.object ms)) : c = '\x7d' ∨ isSpace c := by
  obtain ⟨rest, hv, hrest⟩ := parse_eq_some.1 h
  obtain ⟨s', heq⟩ := hv.suffix.trans (skipSpace_suffix _)
  cases hlast : rest.reverse with
  | nil =>
    rw [List.reverse_eq_nil_iff.1 hlast, Tree.closing, List.append_nil] at heq
    exact Or.inl (List.append_inj_right' heq rfl |> List.singleton_inj.1).symm
  | cons d rest' =>
    have hd : rest = rest'.reverse ++ [d] := by
      rw [← List.reverse_reverse rest, hlast, List.reverse_cons]
    rw [hd, ← List.append_assoc, ← List.append_assoc] at heq
    have hcd := List.singleton_inj.1 (List.append_inj_right' heq rfl)
    have hspace := List.dropWhile_eq_nil_iff.1 hrest d (by simp [hd])
    exact Or.inr (hcd ▸ hspace)

/-! ## A member at the end of a text -/

theorem skipSpace_append_comma (s k : List Char) :
    skipSpace (s ++ ',' :: k) = skipSpace s ++ ',' :: k := by
  rw [skipSpace, List.dropWhile_append, List.dropWhile_cons_of_neg (by decide)]
  split
  · next h => rw [skipSpace, List.isEmpty_iff.1 h, List.nil_append]
  · rfl

theorem of_skipSpace_append_comma {s k rest : List Char} {c : Char}
    (h : skipSpace (s ++ ',' :: k) = c :: rest) :
    c = ',' ∧ rest = k ∨ ∃ s', rest = s' ++ ',' :: k := by
  rw [skipSpace_append_comma] at h
  cases hs : skipSpace s with
  | nil =>
    rw [hs, List.nil_append, List.cons.injEq] at h
    exact Or.inl ⟨h.1.symm, h.2.symm⟩
  | cons d s' =>
    rw [hs, List.cons_append, List.cons.injEq] at h
    exact Or.inr ⟨s', h.2.symm⟩

/-- A string that starts before a comma and a quote ends before them, or at the quote. -/
theorem Chars.of_append {s rest k : List Char} {us : List Nat} (h : Chars s us rest) :
    ∀ {s₀ : List Char}, s = s₀ ++ ',' :: '"' :: k →
      (∃ s', rest = s' ++ ',' :: '"' :: k) ∨ rest = k := by
  induction h with
  | close rest =>
    intro s₀ heq
    cases s₀ with
    | nil => cases heq
    | cons c s₀ => exact Or.inl ⟨s₀, (List.cons.inj heq).2⟩
  | @plain c s rest us _ _ _ hs ih =>
    intro s₀ heq
    cases s₀ with
    | nil =>
      -- The comma belongs to the string, and the quote ends it.
      cases heq
      cases hs with
      | close => exact Or.inr rfl
      | plain hquote => exact absurd rfl hquote
    | cons c' s₀ => exact ih (List.cons.inj heq).2
  | @escape e c s rest us he _ ih =>
    intro s₀ heq
    match s₀ with
    | [] => cases heq
    | [_] =>
      cases heq
      cases he
    | _ :: _ :: s₀ => exact ih (List.cons.inj (List.cons.inj heq).2).2
  | @unicode a b c d n s rest us hn _ ih =>
    intro s₀ heq
    simp only [hex4, Option.bind_eq_bind, Option.bind_eq_some_iff] at hn
    obtain ⟨_, ha, _, hb, _, hc, _, hd, -⟩ := hn
    match s₀ with
    | [] => cases heq
    | [_] => cases heq
    | [_, _] =>
      cases heq
      cases ha
    | [_, _, _] =>
      cases heq
      cases hb
    | [_, _, _, _] =>
      cases heq
      cases hc
    | [_, _, _, _, _] =>
      cases heq
      cases hd
    | _ :: _ :: _ :: _ :: _ :: _ :: s₀ =>
      simp only [List.cons_append, List.cons.injEq] at heq
      exact ih heq.2.2.2.2.2.2

def Tree.Has (m : String × Value) : Tree → Prop
  | .value (.object ms) => m ∈ ms
  | .members ms => m ∈ ms
  | _ => False

section LastMember

variable {k : List Char} {m : String × Value}

/-- Where something ends that starts before a comma, a quote and `k`: before them, at the quote, or
    with the text, where it is the object that `m` is the last member of. -/
def Ends (k : List Char) (m : String × Value) (t : Tree) (rest : List Char) : Prop :=
  (∃ s', rest = s' ++ ',' :: '"' :: k) ∨ rest = k ∨ rest = [] ∧ t.Has m

variable (hk : ∃ c k', k = c :: k' ∧ isWordChar c)
include hk

theorem skipSpace_word {c : Char} {rest : List Char} (h : skipSpace k = c :: rest) :
    isWordChar c := by
  obtain ⟨d, k', rfl, hd⟩ := hk
  have hspace : isSpace d = false := by
    rw [Bool.eq_false_iff]
    intro hspace
    simp only [isSpace, Bool.or_eq_true, decide_eq_true_eq] at hspace
    rcases hspace with ((rfl | rfl) | rfl) | rfl <;> exact absurd hd (by decide)
  rw [skipSpace_cons k' hspace, List.cons.injEq] at h
  exact h.1 ▸ hd

/-- What follows a delimiter behind a string. -/
theorem next_of_string {s rest : List Char} {c : Char}
    (h : (∃ s', s = s' ++ ',' :: '"' :: k) ∨ s = k) (hs : skipSpace s = c :: rest)
    (hc : isWordChar c = false) :
    c = ',' ∧ rest = '"' :: k ∨ ∃ s', rest = s' ++ ',' :: '"' :: k := by
  rcases h with ⟨s', rfl⟩ | rfl
  · exact of_skipSpace_append_comma hs
  · rw [skipSpace_word hk hs] at hc
    cases hc

theorem Ends.next {t : Tree} {s rest : List Char} {c : Char} (h : Ends k m t s)
    (hs : skipSpace s = c :: rest) (hc : isWordChar c = false) :
    c = ',' ∧ rest = '"' :: k ∨ ∃ s', rest = s' ++ ',' :: '"' :: k := by
  rcases h with h | h | ⟨rfl, -⟩
  · exact next_of_string hk (Or.inl h) hs hc
  · exact next_of_string hk (Or.inr h) hs hc
  · cases hs

theorem Ends.next_of_ne {t : Tree} {s rest : List Char} {c : Char} (h : Ends k m t s)
    (hs : skipSpace s = c :: rest) (hc : isWordChar c = false) (hcomma : c ≠ ',') :
    ∃ s', rest = s' ++ ',' :: '"' :: k :=
  (h.next hk hs hc).resolve_left fun h => hcomma h.1

theorem readKey_append {s rest : List Char} {key : String}
    (h : readKey (s ++ ',' :: '"' :: k) = some (key, rest)) :
    ∃ s', rest = s' ++ ',' :: '"' :: k := by
  obtain ⟨s₁, s₂, us, hs, hus, hcolon, -⟩ := readKey_eq_some h
  rcases of_skipSpace_append_comma hs with ⟨hc, -⟩ | ⟨s', rfl⟩
  · cases hc
  · exact (next_of_string hk (hus.of_append rfl) hcolon (by decide)).resolve_left
      fun h => nomatch h.1

variable (helements : ∀ vs rest, ¬ Reads (.elements vs) ('"' :: k) rest)
  (hmembers : ∀ ms rest, Reads (.members ms) ('"' :: k) rest → rest = [] ∧ m ∈ ms)
include helements hmembers

theorem Reads.of_append {t : Tree} {s rest : List Char} (h : Reads t s rest) :
    ∀ {s₀ : List Char}, s = s₀ ++ ',' :: '"' :: k → Ends k m t rest := by
  induction h with
  | scalar =>
    rintro s₀ rfl
    rw [List.dropWhile_append, List.dropWhile_cons_of_neg (by decide)]
    split
    · exact Or.inl ⟨[], rfl⟩
    · exact Or.inl ⟨_, rfl⟩
  | string hus =>
    intro s₀ heq
    cases s₀ with
    | nil => cases heq
    | cons c s₀ => exact (hus.of_append (List.cons.inj heq).2).imp_right Or.inl
  | emptyArray hs =>
    intro s₀ heq
    cases s₀ with
    | nil => cases heq
    | cons c s₀ =>
      rw [(List.cons.inj heq).2] at hs
      exact (of_skipSpace_append_comma hs).elim (fun h => nomatch h.1) Or.inl
  | array _ ih =>
    intro s₀ heq
    cases s₀ with
    | nil => cases heq
    | cons c s₀ =>
      exact (ih (List.cons.inj heq).2).imp_right (Or.imp_right fun h => ⟨h.1, h.2.elim⟩)
  | lastElement _ hs' ih =>
    rintro s₀ rfl
    exact Or.inl ((ih (skipSpace_append_comma _ _)).next_of_ne hk hs' (by decide) (by decide))
  | element _ hs' hvs ih ih' =>
    rintro s₀ rfl
    rcases (ih (skipSpace_append_comma _ _)).next hk hs' (by decide) with ⟨-, rfl⟩ | ⟨s', rfl⟩
    · exact absurd hvs (helements _ _)
    · exact (ih' rfl).imp_right (Or.imp_right fun h => ⟨h.1, h.2.elim⟩)
  | emptyObject hs =>
    intro s₀ heq
    cases s₀ with
    | nil => cases heq
    | cons c s₀ =>
      rw [(List.cons.inj heq).2] at hs
      exact (of_skipSpace_append_comma hs).elim (fun h => nomatch h.1) Or.inl
  | object _ ih =>
    intro s₀ heq
    cases s₀ with
    | nil => cases heq
    | cons c s₀ => exact ih (List.cons.inj heq).2
  | lastMember hkey _ hs'' ih =>
    rintro s₀ rfl
    obtain ⟨s', rfl⟩ := readKey_append hk hkey
    exact Or.inl ((ih (skipSpace_append_comma _ _)).next_of_ne hk hs'' (by decide) (by decide))
  | member hkey _ hs'' hms ih ih' =>
    rintro s₀ rfl
    obtain ⟨s', rfl⟩ := readKey_append hk hkey
    rcases (ih (skipSpace_append_comma _ _)).next hk hs'' (by decide) with ⟨-, rfl⟩ | ⟨s', rfl⟩
    · obtain ⟨hrest, hm⟩ := hmembers _ _ hms
      exact Or.inr (Or.inr ⟨hrest, List.mem_cons_of_mem _ hm⟩)
    · exact (ih' rfl).imp_right (Or.imp_right fun h => ⟨h.1, List.mem_cons_of_mem _ h.2⟩)

theorem mem_of_parse {s : List Char} {ms : List (String × Value)}
    (h : parse (s ++ ',' :: '"' :: k) = some (.object ms)) : m ∈ ms := by
  obtain ⟨rest, hv, hrest⟩ := parse_eq_some.1 h
  rcases hv.of_append hk helements hmembers (skipSpace_append_comma _ _) with
    ⟨s', rfl⟩ | rfl | ⟨-, hm⟩
  · rw [skipSpace_append_comma] at hrest
    simp at hrest
  · obtain ⟨c, k', rfl, hc⟩ := hk
    cases hsk : skipSpace (c :: k') with
    | nil =>
      have hspace := List.dropWhile_eq_nil_iff.1 hsk c (List.mem_cons_self ..)
      simp only [isSpace, Bool.or_eq_true, decide_eq_true_eq] at hspace
      rcases hspace with ((rfl | rfl) | rfl) | rfl <;> exact absurd hc (by decide)
    | cons d r => cases hsk.symm.trans hrest
  · exact hm

end LastMember

/-- **A member at the end of a text.** If a text ends like an object whose last member is a string,
    with a key that starts like a word, and is read as an object, then the member is one of the
    object's own. -/
theorem mem_of_parse_append {s : List Char} {key value : String} {ms : List (String × Value)}
    (hkey : ∃ c k, printString key = '"' :: c :: k ∧ isWordChar c)
    (h : parse (s ++ ',' :: (printString key ++ ':' :: (printString value ++ ['\x7d']))) =
      some (.object ms)) :
    (key, .string value) ∈ ms := by
  obtain ⟨c, k, hkey, hc⟩ := hkey
  have hread := readKey_printString key (printString value ++ ['\x7d'])
  have hvalue := reads_printString value ['\x7d']
  have hstring := reads_printString key (':' :: (printString value ++ ['\x7d']))
  rw [hkey, List.cons_append] at h hread hstring
  refine mem_of_parse (k := c :: k ++ ':' :: (printString value ++ ['\x7d'])) ⟨c, _, rfl, hc⟩
    ?_ ?_ h
  · intro vs rest hvs
    cases hvs with
    | lastElement hv hs' =>
      rw [hstring.skipSpace_eq] at hv
      rw [← (hstring.unique hv).2] at hs'
      cases hs'
    | element hv hs' =>
      rw [hstring.skipSpace_eq] at hv
      rw [← (hstring.unique hv).2] at hs'
      cases hs'
  · intro ms' rest hms
    cases hms with
    | lastMember hkey' hv hs'' =>
      cases hread.symm.trans hkey'
      rw [hvalue.skipSpace_eq] at hv
      obtain ⟨rfl, rfl⟩ := hvalue.unique hv
      cases hs''
      exact ⟨rfl, List.mem_cons_self ..⟩
    | member hkey' hv hs'' =>
      cases hread.symm.trans hkey'
      rw [hvalue.skipSpace_eq] at hv
      obtain ⟨rfl, rfl⟩ := hvalue.unique hv
      cases hs''

/-! ## Members -/

theorem member?_append (ms ms' : List (String × Value)) (key : String) :
    (Value.object (ms ++ ms')).member? key =
      ((Value.object ms').member? key).or ((Value.object ms).member? key) := by
  simp only [Value.member?, List.reverse_append, List.find?_append, Option.map_or]

theorem mem_of_member? {ms : List (String × Value)} {key : String} {v : Value}
    (h : (Value.object ms).member? key = some v) : (key, v) ∈ ms := by
  obtain ⟨⟨key', v'⟩, hfind, rfl⟩ := Option.map_eq_some_iff.1 h
  have hkey := List.find?_some hfind
  rw [decide_eq_true_eq] at hkey
  subst hkey
  exact List.mem_reverse.1 (List.mem_of_find?_eq_some hfind)

end Json

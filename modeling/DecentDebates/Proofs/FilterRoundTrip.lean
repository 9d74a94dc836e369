import DecentDebates.FilterRoundTrip
import DecentDebates.Lib.JsonTexts

set_option autoImplicit false

namespace DecentDebates

open Json Base64

/-! ## Texts of which no digit `+` comes -/

instance (b : Nat) : Decidable (Plain b) := inferInstanceAs (Decidable (_ ∧ _))

def PlainText (s : List Char) : Prop := ∀ c ∈ s, Plain c.toNat

instance (s : List Char) : Decidable (PlainText s) :=
  List.decidableBAll (fun c : Char => Plain c.toNat) s

theorem PlainText.append {s s' : List Char} (h : PlainText s) (h' : PlainText s') :
    PlainText (s ++ s') := fun c hc => (List.mem_append.1 hc).elim (h c) (h' c)

theorem PlainText.cons {c : Char} {s : List Char} (hc : Plain c.toNat) (h : PlainText s) :
    PlainText (c :: s) := List.forall_mem_cons.2 ⟨hc, h⟩

theorem plain_escape : ∀ n < 128, n % 64 ≠ 62 → PlainText (escape (Char.ofNat n)) := by
  decide

theorem PlainText.flatMap_escape {s : List Char} (h : PlainText s) :
    PlainText (s.flatMap escape) := by
  intro d hd
  obtain ⟨c, hc, hd⟩ := List.mem_flatMap.1 hd
  have hplain := plain_escape c.toNat (h c hc).1 (h c hc).2
  rw [Char.ofNat_toNat] at hplain
  exact hplain d hd

theorem PlainText.printString {s : String} (h : PlainText s.toList) :
    PlainText (Json.printString s) :=
  .cons (by decide) (h.flatMap_escape.append (.cons (by decide) fun _ hc => nomatch hc))

theorem PlainText.printMembers {ms : List (String × Value)}
    (h : ∀ m ∈ ms, PlainText m.1.toList ∧ ∃ s : String, m.2 = .string s ∧ PlainText s.toList) :
    PlainText (Json.printMembers ms) := by
  induction ms with
  | nil => exact fun _ hc => nomatch hc
  | cons m ms ih =>
    rw [List.forall_mem_cons] at h
    obtain ⟨⟨hkey, s, hs, hplain⟩, hrest⟩ := h
    obtain ⟨key, v⟩ := m
    subst hs
    cases ms with
    | nil =>
      rw [Json.printMembers]
      exact hkey.printString.append (.cons (by decide) hplain.printString)
    | cons m' ms =>
      rw [printMembers_cons_cons]
      exact hkey.printString.append (.cons (by decide)
        (PlainText.append hplain.printString (.cons (by decide) (ih hrest))))

theorem plainText_digits (n : Nat) : PlainText (Nat.toDigits 10 n) := by
  intro c hc
  have hdigit : c.isDigit := Nat.isDigit_of_mem_toDigits (by decide) (by decide) hc
  have hlow : '0'.toNat ≤ c.toNat := (Char.isDigit_iff_toNat.1 hdigit).1
  have hhigh : c.toNat ≤ '9'.toNat := (Char.isDigit_iff_toNat.1 hdigit).2
  have h0 : '0'.toNat = 48 := rfl
  have h9 : '9'.toNat = 57 := rfl
  exact ⟨by omega, by omega⟩

theorem plainText_toString (id : Int) : PlainText (toString id).toList := by
  rw [Int.toString_eq_repr, Int.repr_eq_if]
  split
  · rw [Nat.repr_eq_ofList_toDigits, String.toList_ofList]
    exact plainText_digits _
  · simp only [Nat.repr_eq_ofList_toDigits, String.toList_append, String.toList_ofList]
    exact PlainText.append (by decide) (plainText_digits _)

theorem plainText_intercalate {tags : List String} (h : ∀ tag ∈ tags, PlainText tag.toList) :
    PlainText (",".intercalate tags).toList := by
  induction tags with
  | nil =>
    rw [String.intercalate_nil]
    decide
  | cons tag tags ih =>
    rw [List.forall_mem_cons] at h
    cases tags with
    | nil =>
      rw [String.intercalate_singleton]
      exact h.1
    | cons tag' tags =>
      rw [String.intercalate_cons_cons, String.toList_append, String.toList_append]
      exact (h.1.append (by decide)).append (ih h.2)

/-! ## A closing brace that is shifted -/

/-- The last byte that is read of sextets that end with three given ones. -/
def lastByte (k p q r : Nat) : Nat :=
  if k = 0 then q % 16 * 16 + r / 4
  else if k = 1 then q % 4 * 64 + r
  else if k = 2 then p % 4 * 64 + q
  else q * 4 + r / 16

theorem exists_bytes_concat (ns : List Nat) (p q r : Nat) :
    ∃ bs, bytes (ns ++ [p, q, r]) = bs ++ [lastByte (ns.length % 4) p q r] := by
  obtain ⟨groups, more, rfl, hgroups, hmore⟩ := exists_groups ns
  rw [List.append_assoc, bytes_append hgroups, ← hmore]
  match more, hmore with
  | [], _ => exact ⟨bytes groups ++ [p * 4 + q / 16], by rw [List.append_assoc]; rfl⟩
  | [a], _ =>
    exact ⟨bytes groups ++ [a * 4 + p / 16, p % 16 * 16 + q / 4], by rw [List.append_assoc]; rfl⟩
  | [a, b], _ =>
    exact ⟨bytes groups ++ [a * 4 + b / 16, b % 16 * 16 + p / 4], by rw [List.append_assoc]; rfl⟩
  | [a, b, c], _ =>
    exact ⟨bytes groups ++ [a * 4 + b / 16, b % 16 * 16 + c / 4, c % 4 * 64 + p],
      by rw [List.append_assoc]; rfl⟩
  | _ :: _ :: _ :: _ :: _, hmore =>
    simp only [List.length_cons] at hmore
    omega

theorem exists_withoutPlus_concat {head : List Nat} {p q r : Nat} {bs : List Nat}
    (h : sextets bs = head ++ [p, q, r]) (hp : p ≠ 62) (hq : q ≠ 62) (hr : r ≠ 62) :
    (sextets bs).count 62 ≤ head.length ∧
      ∃ bs', withoutPlus bs =
        bs' ++ [lastByte ((head.length - (sextets bs).count 62) % 4) p q r] := by
  have hcount : (sextets bs).count 62 = head.count 62 := by
    rw [h, List.count_append]
    simp [hp, hq, hr]
  have hlen := length_filter_plus head
  have hkeep : [p, q, r].filter (fun n => n ≠ 62) = [p, q, r] := by simp [hp, hq, hr]
  have hhead : head.length - head.count 62 = (head.filter fun n => n ≠ 62).length := by omega
  refine ⟨by omega, ?_⟩
  rw [withoutPlus, hcount, h, List.filter_append, hkeep, hhead]
  exact exists_bytes_concat _ p q r

/-- If the digits that are lost are no whole groups, a text that ends with a quote and a brace ends
    with other bytes. -/
theorem exists_withoutPlus_of_shift (bs : List Nat)
    (hcount : (sextets (bs ++ [0x22, 0x7D])).count 62 % 4 ≠ 0) :
    ∃ bs' b, withoutPlus (bs ++ [0x22, 0x7D]) = bs' ++ [b] ∧ (b = 0x27 ∨ 0x80 ≤ b) := by
  have hgroups : (bs.take (bs.length / 3 * 3)).length % 3 = 0 := by
    rw [List.length_take]
    omega
  have hsplit := List.take_append_drop (bs.length / 3 * 3) bs
  have hmore : (bs.drop (bs.length / 3 * 3)).length < 3 := by
    rw [List.length_drop]
    omega
  generalize bs.take (bs.length / 3 * 3) = groups at hgroups hsplit
  generalize bs.drop (bs.length / 3 * 3) = more at hmore hsplit
  subst hsplit
  have hlen := length_sextets groups
  have hsextets := sextets_append hgroups (more ++ [0x22, 0x7D])
  rw [← List.append_assoc] at hsextets
  match more, hmore with
  | [], _ =>
    obtain ⟨hle, bs', heq⟩ := exists_withoutPlus_concat (p := 8) (q := 39) (r := 52) hsextets
      (by decide) (by decide) (by decide)
    refine ⟨bs', _, heq, ?_⟩
    unfold lastByte
    split
    · omega
    · split
      · omega
      · split <;> omega
  | [a], _ =>
    have hlast : sextets (groups ++ [a] ++ [0x22, 0x7D]) =
        (sextets groups ++ [a / 4]) ++ [a % 4 * 16 + 2, 9, 61] := by
      rw [hsextets, List.append_assoc]
      rfl
    obtain ⟨hle, bs', heq⟩ := exists_withoutPlus_concat hlast (by omega) (by decide) (by decide)
    rw [List.length_append, List.length_singleton] at hle heq
    refine ⟨bs', _, heq, ?_⟩
    unfold lastByte
    split
    · omega
    · split
      · omega
      · split <;> omega
  | [a, b], _ =>
    have hlast : sextets (groups ++ [a, b] ++ [0x22, 0x7D]) =
        (sextets groups ++ [a / 4, a % 4 * 16 + b / 16, b % 16 * 4]) ++ [34, 31, 16] := by
      rw [hsextets, List.append_assoc]
      rfl
    obtain ⟨hle, bs', heq⟩ :=
      exists_withoutPlus_concat hlast (by decide) (by decide) (by decide)
    simp only [List.length_append, List.length_cons, List.length_nil] at hle heq
    refine ⟨bs', _, heq, ?_⟩
    unfold lastByte
    split
    · omega
    · split
      · omega
      · split <;> omega
  | _ :: _ :: _ :: _, hmore =>
    simp only [List.length_cons] at hmore
    omega

namespace AppliedDebateFilters

variable {filters : AppliedDebateFilters}

/-! ## The JSON text -/

/-- The members behind the query. -/
def tagParams (filters : AppliedDebateFilters) : List (String × Value) :=
  tagsParam filters.tags ++ textParam "tags_match" filters.tagsMatch

def json (filters : AppliedDebateFilters) : List Char := (Value.object (queryParams filters)).print

def jsonBytes (filters : AppliedDebateFilters) : List Nat := filters.json.map Char.toNat

theorem queryParams_of_empty (h : filters.text = "") : queryParams filters = filters.tagParams := by
  unfold queryParams tagParams text at *
  cases hquery : filters.query with
  | none => rfl
  | some query =>
    rw [hquery, Option.getD_some] at h
    simp [textParam, h]

theorem queryParams_of_ne (h : filters.text ≠ "") :
    queryParams filters = ("queryStr", .string filters.text) :: filters.tagParams := by
  unfold queryParams tagParams text at *
  cases hquery : filters.query with
  | none =>
    rw [hquery] at h
    exact absurd rfl h
  | some query =>
    rw [hquery, Option.getD_some] at h
    simp [textParam, h]

theorem plain_tagParams (h : filters.WellFormed) :
    ∀ m ∈ filters.tagParams,
      PlainText m.1.toList ∧ ∃ s : String, m.2 = .string s ∧ PlainText s.toList := by
  intro m hm
  rcases List.mem_append.1 hm with hm | hm
  · cases htags : filters.tags with
    | none =>
      rw [htags] at hm
      exact nomatch hm
    | some tags =>
      rw [htags] at hm
      obtain rfl := List.mem_singleton.1 hm
      have hkey : PlainText "tags".toList := by decide
      refine ⟨hkey, _, rfl, plainText_intercalate fun tag htag => ?_⟩
      obtain ⟨id, rfl⟩ := (h.tags tags htags).2 tag htag
      exact plainText_toString id
  · cases hmatch : filters.tagsMatch with
    | none =>
      rw [hmatch] at hm
      exact nomatch hm
    | some strategy =>
      rw [hmatch] at hm
      rcases h.tagsMatch strategy hmatch with rfl | rfl
      · obtain rfl := List.mem_singleton.1 hm
        exact ⟨by decide, _, rfl, by decide⟩
      · obtain rfl := List.mem_singleton.1 hm
        exact ⟨by decide, _, rfl, by decide⟩

theorem plain_json (h : filters.WellFormed) (htext : filters.text = "") :
    PlainText filters.json := by
  rw [json, queryParams_of_empty htext, Value.print]
  exact .cons (by decide)
    ((PlainText.printMembers (plain_tagParams h)).append (.cons (by decide) fun _ hc => nomatch hc))

/-- The text of the query stands behind thirteen characters, and what is around it is plain. -/
theorem json_eq_append (h : filters.WellFormed) (htext : filters.text ≠ "") :
    ∃ first last, filters.json = first ++ filters.text.toList.flatMap escape ++ last ∧
      first.length = 13 ∧ PlainText first ∧ PlainText last := by
  have hclose : PlainText ['\x7d'] := by decide
  refine ⟨"\x7b\"queryStr\":\"".toList, ?_⟩
  cases hparams : filters.tagParams with
  | nil =>
    refine ⟨['"', '\x7d'], ?_, rfl, by decide, by decide⟩
    rw [json, queryParams_of_ne htext, hparams]
    simp [Value.print, Json.printMembers, Json.printString, escape]
  | cons m ms =>
    refine ⟨'"' :: ',' :: (Json.printMembers (m :: ms) ++ ['\x7d']), ?_, rfl, by decide, ?_⟩
    · rw [json, queryParams_of_ne htext, hparams]
      simp [Value.print, printMembers_cons_cons, Json.printString, escape]
    · rw [← hparams]
      exact .cons (by decide) (.cons (by decide)
        ((PlainText.printMembers (plain_tagParams h)).append hclose))

/-- A strategy is the last member. -/
theorem json_eq_append_tagsMatch {strategy : String} (hmatch : filters.tagsMatch = some strategy)
    (hne : strategy ≠ "") (htext : filters.text ≠ "") :
    ∃ first, filters.json =
      first ++ ',' :: (Json.printString "tags_match" ++ ':' ::
        (Json.printString strategy ++ ['\x7d'])) := by
  have hlast : filters.tagParams = tagsParam filters.tags ++ [("tags_match", .string strategy)] := by
    rw [tagParams, hmatch, textParam, if_neg hne]
  rw [json, queryParams_of_ne htext, hlast]
  cases filters.tags with
  | none =>
    refine ⟨'\x7b' :: (Json.printString "queryStr" ++ ':' :: Json.printString filters.text), ?_⟩
    simp [Value.print, Json.printMembers, tagsParam]
  | some tags =>
    refine ⟨'\x7b' :: (Json.printString "queryStr" ++ ':' :: (Json.printString filters.text ++ ',' ::
      (Json.printString "tags" ++ ':' :: Json.printString (",".intercalate tags)))), ?_⟩
    simp [Value.print, Json.printMembers, tagsParam]

/-! ## Its bytes -/

theorem escape_of_ge {c : Char} (hc : 0x80 ≤ c.toNat) : escape c = [c] := by
  have hne (e : Char) (he : e.toNat < 0x80) : c ≠ e := by
    rintro rfl
    omega
  exact escape_of_plain (hne _ (by decide)) (hne _ (by decide)) (by omega)

theorem mem_escape {c d : Char} (h : d ∈ escape c) : d.toNat < 0x80 ∨ d = c := by
  by_cases hc : c.toNat < 0x80
  · have hall : ∀ n < 0x80, (escape (Char.ofNat n)).all fun d => d.toNat < 0x80 := by decide
    have hlow := hall c.toNat hc
    rw [Char.ofNat_toNat] at hlow
    exact Or.inl (of_decide_eq_true (List.all_eq_true.1 hlow d h))
  · rw [escape_of_ge (Nat.not_lt.1 hc)] at h
    exact Or.inr (List.mem_singleton.1 h)

theorem mem_flatMap_escape {s : List Char} {c : Char} (hc : c ∈ s) (hge : 0x80 ≤ c.toNat) :
    c ∈ s.flatMap escape := by
  refine List.mem_flatMap.2 ⟨c, hc, ?_⟩
  rw [escape_of_ge hge]
  exact List.mem_singleton_self c

/-- What holds of ASCII holds of all characters of the text if it does of those of the query. -/
theorem forall_json (h : filters.WellFormed) {P : Nat → Prop} (hP : ∀ n < 0x80, P n) :
    (∀ c ∈ filters.json, P c.toNat) ↔ ∀ c ∈ filters.text.toList, P c.toNat := by
  have hplain {s : List Char} (hs : PlainText s) : ∀ c ∈ s, P c.toNat :=
    fun c hc => hP _ (hs c hc).1
  by_cases htext : filters.text = ""
  · rw [htext]
    exact ⟨fun _ c hc => absurd hc (by simp), fun _ => hplain (plain_json h htext)⟩
  · obtain ⟨first, last, heq, -, hfirst, hlast⟩ := json_eq_append h htext
    rw [heq]
    constructor
    · intro hall c hc
      by_cases hge : 0x80 ≤ c.toNat
      · exact hall c (List.mem_append_left _ (List.mem_append_right _ (mem_flatMap_escape hc hge)))
      · exact hP _ (Nat.not_le.1 hge)
    · intro hall c hc
      rcases List.mem_append.1 hc with hc | hc
      · rcases List.mem_append.1 hc with hc | hc
        · exact hplain hfirst c hc
        · obtain ⟨d, hd, hc⟩ := List.mem_flatMap.1 hc
          rcases mem_escape hc with hlow | rfl
          · exact hP _ hlow
          · exact hall c hd
      · exact hplain hlast c hc

theorem jsonBytes_lt {n : Nat} (h : ∀ c ∈ filters.json, c.toNat < n) :
    ∀ b ∈ filters.jsonBytes, b < n := by
  intro b hb
  obtain ⟨c, hc, rfl⟩ := List.mem_map.1 hb
  exact h c hc

/-- `>` and `~` -/
theorem eq_of_mod {c : Char} (hlt : c.toNat < 0x80) (hmod : c.toNat % 64 = 62) :
    c = '>' ∨ c = '~' := by
  have hcode : c.toNat = 62 ∨ c.toNat = 126 := by omega
  rw [← Char.ofNat_toNat c]
  rcases hcode with hcode | hcode
  · exact Or.inl (by rw [hcode])
  · exact Or.inr (by rw [hcode])

theorem mem_escape_of_mod {c d : Char} (hd : d = '>' ∨ d = '~') (h : d ∈ escape c) :
    c = d ∧ escape c = [d] := by
  by_cases hc : c.toNat < 0x80
  · have hall : ∀ n < 0x80,
        ('>' ∈ escape (Char.ofNat n) → Char.ofNat n = '>' ∧ escape (Char.ofNat n) = ['>']) ∧
        ('~' ∈ escape (Char.ofNat n) → Char.ofNat n = '~' ∧ escape (Char.ofNat n) = ['~']) := by
      decide
    have hc' := hall c.toNat hc
    rw [Char.ofNat_toNat] at hc'
    rcases hd with rfl | rfl
    · exact hc'.1 h
    · exact hc'.2 h
  · rw [escape_of_ge (Nat.not_lt.1 hc)] at h ⊢
    obtain rfl := List.mem_singleton.1 h
    exact ⟨rfl, rfl⟩

/-- `>` and `~` stand for themselves in the text of a string, and nothing else gives one. -/
theorem flatMap_escape_eq_append {s x y : List Char} {c : Char} (hc : c = '>' ∨ c = '~')
    (h : s.flatMap escape = x ++ c :: y) :
    ∃ before after, s = before ++ c :: after ∧ x = before.flatMap escape := by
  induction s generalizing x with
  | nil => simp at h
  | cons d s ih =>
    rw [List.flatMap_cons] at h
    rcases List.append_eq_append_iff.1 h with ⟨x', rfl, hs⟩ | ⟨z, hz, hs⟩
    · obtain ⟨before, after, rfl, rfl⟩ := ih hs
      exact ⟨d :: before, after, rfl, by rw [List.flatMap_cons]⟩
    · cases z with
      | nil =>
        rw [List.append_nil] at hz
        obtain ⟨before, after, rfl, hbefore⟩ := ih (x := []) hs.symm
        exact ⟨d :: before, after, rfl, by rw [List.flatMap_cons, ← hbefore, hz, List.append_nil]⟩
      | cons e z =>
        obtain ⟨rfl, -⟩ := List.cons.inj hs
        obtain ⟨rfl, hone⟩ := mem_escape_of_mod hc (hz ▸ List.mem_append_right _ (List.mem_cons_self ..))
        rw [hone] at hz
        cases x with
        | nil => exact ⟨[], s, rfl, rfl⟩
        | cons a x => simp at hz

theorem append_eq_append_cons {first mid last x y : List Char} {c : Char} (hfirst : c ∉ first)
    (hlast : c ∉ last) (h : first ++ (mid ++ last) = x ++ c :: y) :
    ∃ z w, x = first ++ z ∧ mid = z ++ c :: w := by
  induction first generalizing x with
  | nil =>
    rw [List.nil_append] at h
    rcases List.append_eq_append_iff.1 h with ⟨z, rfl, hz⟩ | ⟨z, hz, hz'⟩
    · exact absurd (hz ▸ List.mem_append_right _ (List.mem_cons_self ..)) hlast
    · cases z with
      | nil =>
        rw [List.nil_append] at hz'
        exact absurd (hz' ▸ List.mem_cons_self ..) hlast
      | cons d z =>
        obtain ⟨rfl, -⟩ := List.cons.inj hz'
        exact ⟨x, z, rfl, hz⟩
  | cons d first ih =>
    cases x with
    | nil => exact absurd ((List.cons.inj h).1 ▸ List.mem_cons_self ..) hfirst
    | cons e x =>
      obtain ⟨rfl, htail⟩ := List.cons.inj h
      obtain ⟨z, w, rfl, hmid⟩ := ih (fun hmem => hfirst (List.mem_cons_of_mem _ hmem)) htail
      exact ⟨z, w, rfl, hmid⟩

/-- Where the digits `+` come from. -/
theorem mem_sextets_jsonBytes (h : filters.WellFormed)
    (hascii : ∀ c ∈ filters.text.toList, c.toNat < 0x80) :
    62 ∈ sextets filters.jsonBytes ↔
      ∃ before c after, filters.text.toList = before ++ c :: after ∧ (c = '>' ∨ c = '~') ∧
        (before.flatMap escape).length % 3 = 1 := by
  have hjson := (forall_json h fun _ => id).2 hascii
  rw [mem_sextets_iff (jsonBytes_lt hjson)]
  constructor
  · rintro ⟨before, b, after, heq, hlen, hb⟩
    obtain ⟨before, rest, hjsonEq, rfl, hrest⟩ := List.map_eq_append_iff.1 heq
    obtain ⟨c, after, rfl, rfl, -⟩ := List.map_eq_cons_iff.1 hrest
    have hc := eq_of_mod (hjson c (by simp [hjsonEq])) hb
    have hnotPlain {s : List Char} (hs : PlainText s) : c ∉ s := fun hmem => (hs c hmem).2 hb
    by_cases htext : filters.text = ""
    · exact absurd (by simp [hjsonEq]) (hnotPlain (plain_json h htext))
    · obtain ⟨first, last, hsplit, hfirstLen, hfirst, hlast⟩ := json_eq_append h htext
      rw [hsplit, List.append_assoc] at hjsonEq
      obtain ⟨z, w, rfl, hmid⟩ :=
        append_eq_append_cons (hnotPlain hfirst) (hnotPlain hlast) hjsonEq
      obtain ⟨before, after', htoList, rfl⟩ := flatMap_escape_eq_append hc hmid
      refine ⟨before, c, after', htoList, hc, ?_⟩
      rw [List.length_map, List.length_append, hfirstLen] at hlen
      omega
  · rintro ⟨before, c, after, heq, hc, hlen⟩
    have htext : filters.text ≠ "" := by
      intro hnil
      rw [hnil] at heq
      simp at heq
    obtain ⟨first, last, hsplit, hfirstLen, -, -⟩ := json_eq_append h htext
    have hone : escape c = [c] := by
      rcases hc with rfl | rfl <;> rfl
    refine ⟨(first ++ before.flatMap escape).map Char.toNat, c.toNat,
      (after.flatMap escape ++ last).map Char.toNat, ?_, ?_, ?_⟩
    · rw [jsonBytes, hsplit, heq]
      simp [hone]
    · rw [List.length_map, List.length_append, hfirstLen]
      omega
    · rcases hc with rfl | rfl <;> rfl

/-! ## What the server receives -/

theorem queryParam_fetch (s : List Char) :
    queryParam ("/debates?q=".toList ++ s) = s.map fun c => if c = '+' then ' ' else c := rfl

/-- What the server reads: the bytes without those that the lost digits `+` stood for. -/
theorem received_eq (hbytes : ∀ c ∈ filters.json, c.toNat < 0x100) :
    filters.received =
      match parse (Utf8.decode (withoutPlus filters.jsonBytes)) with
      | none => .error .syntaxError
      | some rawFilters => DebatesQueryPipe.filtersOf rawFilters := by
  have hbtoa : btoa filters.json = .ok (encode filters.jsonBytes) := by
    rw [btoa, if_pos (by simpa using hbytes)]
    rfl
  have hne : ((encode filters.jsonBytes).map fun c => if c = '+' then ' ' else c).isEmpty = false := by
    have hlen : filters.jsonBytes ≠ [] := by simp [jsonBytes, json, Value.print]
    have hpos := List.length_pos_iff.2 hlen
    have hsextets := length_sextets filters.jsonBytes
    rw [List.isEmpty_eq_false_iff, ← List.length_pos_iff, List.length_map, encode,
      List.length_append, List.length_map]
    omega
  rw [received, fetchDebatesWithFilters, ← json, hbtoa]
  simp only [Except.bind, bind, pure, Except.pure, queryParam_fetch, DebatesQueryPipe.transform, hne,
    decode_encode_plus (jsonBytes_lt hbytes)]
  rfl

theorem received_of_wide (hwide : ∃ c ∈ filters.json, 0x100 ≤ c.toNat) :
    filters.received = .error .invalidCharacterError := by
  have hbtoa : btoa filters.json = .error .invalidCharacterError := by
    obtain ⟨c, hc, hge⟩ := hwide
    rw [btoa, if_neg]
    intro hall
    have := List.all_eq_true.1 hall c hc
    rw [decide_eq_true_eq] at this
    omega
  rw [received, fetchDebatesWithFilters, ← json, hbtoa]
  rfl

/-! ## Texts that arrive -/

theorem member_textParam (key key' : String) (t : Option String) :
    (Value.object (textParam key t)).member? key' =
      if key = key' then (t.filter fun s => s ≠ "").map .string else none := by
  cases t with
  | none => exact (ite_self none).symm
  | some s =>
    by_cases hs : s = ""
    · simp [textParam, hs, Value.member?, Option.filter]
    · by_cases hkey : key = key' <;> simp [textParam, hs, Value.member?, hkey, Option.filter]

theorem member_tagsParam (key : String) (tags : Option (List String)) :
    (Value.object (tagsParam tags)).member? key =
      if "tags" = key then tags.map fun tags => .string (",".intercalate tags) else none := by
  cases tags with
  | none => exact (ite_self none).symm
  | some tags => by_cases hkey : "tags" = key <;> simp [tagsParam, Value.member?, hkey]

theorem member_queryStr :
    (Value.object (queryParams filters)).member? "queryStr" =
      if filters.text = "" then none else some (.string filters.text) := by
  rw [queryParams, member?_append, member?_append, member_textParam, member_textParam,
    member_tagsParam, if_neg (by decide), if_neg (by decide), if_pos rfl, text]
  cases filters.query with
  | none => rfl
  | some query => by_cases hquery : query = "" <;> simp [hquery]

theorem member_tags :
    (Value.object (queryParams filters)).member? "tags" =
      filters.tags.map fun tags => .string (",".intercalate tags) := by
  rw [queryParams, member?_append, member?_append, member_textParam, member_textParam,
    member_tagsParam, if_neg (by decide), if_pos rfl, if_neg (by decide)]
  simp

theorem member_tagsMatch (h : filters.WellFormed) :
    (Value.object (queryParams filters)).member? "tags_match" = filters.tagsMatch.map .string := by
  rw [queryParams, member?_append, member?_append, member_textParam, member_textParam,
    member_tagsParam, if_pos rfl, if_neg (by decide), if_neg (by decide)]
  cases hmatch : filters.tagsMatch with
  | none => rfl
  | some strategy =>
    rcases h.tagsMatch strategy hmatch with rfl | rfl
    · rfl
    · rfl

theorem joined_ne (h : filters.WellFormed) {tags : List String} (htags : filters.tags = some tags) :
    ",".intercalate tags ≠ "" := by
  obtain ⟨hne, hids⟩ := h.tags tags htags
  cases tags with
  | nil => exact absurd rfl hne
  | cons tag tags =>
    obtain ⟨id, rfl⟩ := hids tag (List.mem_cons_self ..)
    have htoString : toString id ≠ "" := by
      rw [Int.toString_eq_repr, Int.repr_eq_if]
      split
      · rw [Nat.repr_eq_ofList_toDigits]
        simp
      · intro hnil
        simpa using congrArg String.toList hnil
    cases tags with
    | nil => rwa [String.intercalate_singleton]
    | cons tag' tags =>
      intro hnil
      rw [String.intercalate_cons_cons] at hnil
      simpa using congrArg String.toList hnil

theorem filterTags_queryParams (h : filters.WellFormed) :
    DebatesQueryPipe.filterTags (.object (queryParams filters)) =
      .ok (filters.tags.map fun tags =>
        { values := .string (",".intercalate tags)
          matchingStrategy := if filters.tagsMatch = some "all" then .all else .any }) := by
  rw [DebatesQueryPipe.filterTags, member_tags, member_tagsMatch h]
  cases htags : filters.tags with
  | none => rfl
  | some tags =>
    have htruthy : JsValue.truthy (some (.string (",".intercalate tags))) = true := by
      simpa [JsValue.truthy] using joined_ne h htags
    simp only [Option.map_some, htruthy, if_true]
    cases hmatch : filters.tagsMatch with
    | none => rfl
    | some strategy =>
      rcases h.tagsMatch strategy hmatch with rfl | rfl
      · rfl
      · rfl

/-- The members are turned into filters, and no members into none. -/
theorem filtersOf_queryParams (h : filters.WellFormed) :
    DebatesQueryPipe.filtersOf (.object (queryParams filters)) =
      .ok (if queryParams filters = [] then none else some {
        queryStr := if filters.text = "" then none else some (.string filters.text)
        tags := filters.tags.map fun tags =>
          { values := .string (",".intercalate tags)
            matchingStrategy := if filters.tagsMatch = some "all" then .all else .any } }) := by
  have hquery : DebatesQueryPipe.rawQueryStr (.object (queryParams filters)) =
      (if filters.text = "" then none else some (.string filters.text), false) := by
    rw [DebatesQueryPipe.rawQueryStr, member_queryStr]
    by_cases htext : filters.text = ""
    · simp only [if_pos htext]
    · simp [htext, JsValue.truthy]
  rw [DebatesQueryPipe.filtersOf, hquery, filterTags_queryParams h]
  by_cases hnil : queryParams filters = []
  · simp [hnil]
  · simp [hnil, bind, Except.bind, pure, Except.pure]

theorem queryParams_eq_nil (h : filters.WellFormed) :
    queryParams filters = [] ↔ filters.text = "" ∧ filters.tags = none ∧ filters.tagsMatch = none := by
  by_cases htext : filters.text = ""
  · rw [queryParams_of_empty htext, tagParams, List.append_eq_nil_iff]
    have htags : tagsParam filters.tags = [] ↔ filters.tags = none := by
      cases filters.tags <;> simp [tagsParam]
    have hmatch : textParam "tags_match" filters.tagsMatch = [] ↔ filters.tagsMatch = none := by
      cases hmatch : filters.tagsMatch with
      | none => simp [textParam]
      | some strategy =>
        rcases h.tagsMatch strategy hmatch with rfl | rfl
        · simp [textParam]
        · simp [textParam]
    rw [htags, hmatch]
    exact ⟨fun hnone => ⟨htext, hnone⟩, fun hnone => hnone.2⟩
  · rw [queryParams_of_ne htext]
    exact ⟨fun hnil => absurd hnil (List.cons_ne_nil _ _), fun hnone => absurd hnone.1 htext⟩

/-- Filters of which neither a character nor a digit is lost are received as they were sent, unless
    only a strategy is sent. -/
theorem roundTrips_of_intact (h : filters.WellFormed)
    (hascii : ∀ c ∈ filters.text.toList, c.toNat < 0x80) (hplus : 62 ∉ sextets filters.jsonBytes) :
    filters.RoundTrips ↔ filters.text ≠ "" ∨ filters.tags.isSome ∨ filters.tagsMatch = none := by
  have hjson := (forall_json h fun _ => id).2 hascii
  have hbytes : ∀ c ∈ filters.json, c.toNat < 0x100 := fun c hc => Nat.lt_trans (hjson c hc) (by decide)
  have hparse : parse (Utf8.decode (withoutPlus filters.jsonBytes)) =
      some (.object (queryParams filters)) := by
    rw [withoutPlus_eq_self (jsonBytes_lt hbytes) hplus, jsonBytes, Utf8.decode_map_toNat hjson, json,
      parse_print]
  rw [RoundTrips, received_eq hbytes, hparse]
  simp only [filtersOf_queryParams h, Except.ok.injEq, carried, queryParams_eq_nil h]
  by_cases htext : filters.text = ""
  · cases htags : filters.tags with
    | none => cases hmatch : filters.tagsMatch <;> simp [htext]
    | some tags => simp
  · simp [htext]

/-! ## Texts that are harmed -/

theorem of_filtersOf_object {ms : List (String × Value)} {f : ParsedFilters}
    (h : DebatesQueryPipe.filtersOf (.object ms) = .ok (some f)) :
    (DebatesQueryPipe.rawQueryStr (.object ms)).1 = f.queryStr ∧
      DebatesQueryPipe.filterTags (.object ms) = .ok f.tags := by
  rw [DebatesQueryPipe.filtersOf] at h
  cases hquery : DebatesQueryPipe.rawQueryStr (.object ms) with
  | mk queryStr deleted =>
    simp only [hquery] at h
    generalize (if deleted = true then ms.filter fun m => m.1 ≠ "queryStr" else ms) = members at h
    split at h
    · cases h
    · cases htags : DebatesQueryPipe.filterTags (.object ms) with
      | error e =>
        rw [htags] at h
        cases h
      | ok tags =>
        rw [htags] at h
        cases h
        exact ⟨rfl, rfl⟩

theorem of_rawQueryStr {raw v : Value} (h : (DebatesQueryPipe.rawQueryStr raw).1 = some v) :
    raw.member? "queryStr" = some v := by
  unfold DebatesQueryPipe.rawQueryStr at h
  split at h
  · cases h
  · next v' hv =>
    split at h
    · cases h
      exact hv
    · cases h

theorem of_filterTags {raw : Value} {tags : ParsedTags}
    (h : DebatesQueryPipe.filterTags raw = .ok (some tags)) :
    raw.member? "tags" = some tags.values := by
  unfold DebatesQueryPipe.filterTags at h
  split at h
  · cases h
  · next v hv =>
    split at h
    · cases hs : matchingStrategy (raw.member? "tags_match") with
      | error e =>
        rw [hs] at h
        cases h
      | ok strategy =>
        rw [hs] at h
        cases h
        exact hv
    · cases h

/-- Filters with a query come of an object. -/
theorem of_filtersOf {raw queryStr : Value} {tags : Option ParsedTags}
    (h : DebatesQueryPipe.filtersOf raw = .ok (some ⟨some queryStr, tags⟩)) :
    ∃ ms, raw = .object ms ∧ raw.member? "queryStr" = some queryStr ∧
      ∀ t ∈ tags, raw.member? "tags" = some t.values := by
  cases raw with
  | object ms =>
    obtain ⟨hquery, htags⟩ := of_filtersOf_object h
    refine ⟨ms, rfl, of_rawQueryStr hquery, ?_⟩
    rintro t rfl
    exact of_filterTags htags
  | array vs =>
    simp only [DebatesQueryPipe.filtersOf] at h
    split at h <;> cases h
  | null => cases h
  | bool b => cases h
  | number l => cases h
  | string s => cases h

/-- Where a character or a digit is lost, the server reads fewer characters that a byte could stand
    for than were sent. -/
theorem countP_lt_of_harmed (hbytes : ∀ c ∈ filters.json, c.toNat < 0x100)
    (hharm : (∃ c ∈ filters.json, 0x80 ≤ c.toNat) ∨ 62 ∈ sextets filters.jsonBytes) :
    (Utf8.decode (withoutPlus filters.jsonBytes)).countP (fun c => c.toNat < 0x100) <
      filters.json.length := by
  have hlen : filters.jsonBytes.length = filters.json.length := List.length_map ..
  by_cases hplus : 62 ∈ sextets filters.jsonBytes
  · have hfewer := length_withoutPlus_lt hplus
    have hle := Utf8.countP_decodeFrom_le (f := fun c => c.toNat < 0x100) (by decide) none
      (withoutPlus filters.jsonBytes)
    rw [Utf8.decode]
    omega
  · obtain ⟨c, hc, hge⟩ := hharm.resolve_right hplus
    rw [withoutPlus_eq_self (jsonBytes_lt hbytes) hplus, ← hlen]
    exact Utf8.countP_decode_lt (by decide) ⟨c.toNat, List.mem_map_of_mem hc, hge⟩

/-- A strategy that was sent behind a query is read, if an object is. -/
theorem tagsMatch_mem_of_parse {strategy : String} {ms : List (String × Value)}
    (hbytes : ∀ c ∈ filters.json, c.toNat < 0x100) (htext : filters.text ≠ "")
    (hmatch : filters.tagsMatch = some strategy) (hstrategy : strategy = "any" ∨ strategy = "all")
    (hparse : parse (Utf8.decode (withoutPlus filters.jsonBytes)) = some (.object ms)) :
    ("tags_match", .string strategy) ∈ ms := by
  have hne : strategy ≠ "" := by rcases hstrategy with rfl | rfl <;> decide
  have hplain : PlainText strategy.toList := by rcases hstrategy with rfl | rfl <;> decide
  have hkey : PlainText "tags_match".toList := by decide
  obtain ⟨first, heq⟩ := json_eq_append_tagsMatch hmatch hne htext
  have hfirst : ∀ b ∈ first.map Char.toNat, b < 0x100 := by
    intro b hb
    obtain ⟨c, hc, rfl⟩ := List.mem_map.1 hb
    exact hbytes c (by simp [heq, hc])
  by_cases hcount : (sextets filters.jsonBytes).count 62 % 4 = 0
  · -- The digits that are lost are whole groups, and the end of the text is what was sent.
    have hlast : PlainText (',' :: (Json.printString "tags_match" ++ ':' ::
        (Json.printString strategy ++ ['\x7d']))) :=
      .cons (by decide) (hkey.printString.append (.cons (by decide)
        (hplain.printString.append (by decide))))
    rw [jsonBytes, heq, List.map_append] at hcount
    have hplainBytes : ∀ b ∈ (',' :: (Json.printString "tags_match" ++ ':' ::
        (Json.printString strategy ++ ['\x7d']))).map Char.toNat, Plain b :=
      List.forall_mem_map.2 hlast
    obtain ⟨bs, hbs⟩ := exists_withoutPlus_append hfirst hplainBytes hcount
    obtain ⟨s, hs⟩ := Utf8.decode_append_map_toNat bs fun c hc => (hlast c hc).1
    rw [jsonBytes, heq, List.map_append, hbs, hs] at hparse
    exact mem_of_parse_append ⟨'t', _, rfl, rfl⟩ hparse
  · -- The closing brace is gone.
    obtain ⟨bs, hbs⟩ : ∃ bs, filters.jsonBytes = bs ++ [0x22, 0x7D] := by
      refine ⟨(first ++ ',' :: (Json.printString "tags_match" ++ ':' :: '"' ::
        strategy.toList.flatMap escape)).map Char.toNat, ?_⟩
      rw [jsonBytes, heq]
      simp [Json.printString]
    rw [hbs] at hcount hparse
    obtain ⟨bs', b, hlost, hb⟩ := exists_withoutPlus_of_shift bs hcount
    rw [hlost] at hparse
    rcases hb with rfl | hb
    · rw [Utf8.decode, Utf8.decodeFrom_append_ascii none bs' (by decide)] at hparse
      rcases last_of_parse_object hparse with h | h
      · exact absurd h (by decide)
      · exact absurd h (by decide)
    · obtain ⟨s, n, hs, hn⟩ := Utf8.exists_decode_concat bs' hb
      rw [hs] at hparse
      have hascii : ∃ c : Char, Char.ofNat n = c ∧ 0 < c.toNat ∧ c.toNat < 0x80 := by
        rcases last_of_parse_object hparse with h | h
        · exact ⟨_, h, by decide, by decide⟩
        · simp only [isSpace, Bool.or_eq_true, decide_eq_true_eq] at h
          rcases h with ((h | h) | h) | h
          all_goals exact ⟨_, h, by decide, by decide⟩
      obtain ⟨c, hc, hpos, hlt⟩ := hascii
      have := Utf8.toNat_of_ofNat_eq hc hpos
      omega

theorem nodup_queryParams (filters : AppliedDebateFilters) : (queryParams filters).Nodup := by
  refine List.Nodup.of_map Prod.fst ?_
  have hquery : ((textParam "queryStr" filters.query).map Prod.fst).Sublist ["queryStr"] := by
    unfold textParam
    repeat' split
    all_goals simp
  have htags : ((tagsParam filters.tags).map Prod.fst).Sublist ["tags"] := by
    unfold tagsParam
    split <;> simp
  have hmatch : ((textParam "tags_match" filters.tagsMatch).map Prod.fst).Sublist
      ["tags_match"] := by
    unfold textParam
    repeat' split
    all_goals simp
  rw [queryParams, List.map_append, List.map_append]
  exact ((hquery.append htags).append hmatch).nodup (by decide)

/-- **Filters that are harmed do not arrive.** The text that is read has too few characters for the
    query, the tags and the strategy that were sent. -/
theorem not_roundTrips_of_harmed (h : filters.WellFormed)
    (hharm : (∃ c ∈ filters.text.toList, 0x80 ≤ c.toNat) ∨ 62 ∈ sextets filters.jsonBytes) :
    ¬ filters.RoundTrips := by
  have htext : filters.text ≠ "" := by
    intro htext
    have hplain := plain_json h htext
    rcases hharm with ⟨c, hc, -⟩ | hplus
    · rw [htext] at hc
      simp at hc
    · exact not_mem_sextets (List.forall_mem_map.2 hplain) hplus
  intro hround
  by_cases hbytes : ∀ c ∈ filters.json, c.toNat < 0x100
  · rw [RoundTrips, received_eq hbytes, carried, if_neg (fun hnone => htext hnone.1),
      if_neg htext] at hround
    split at hround
    · cases hround
    · next raw hparse =>
      obtain ⟨ms, rfl, hquery, htags⟩ := of_filtersOf hround
      -- What was sent is a part of what was read.
      have hsub : queryParams filters ⊆ ms := by
        intro m hm
        rw [queryParams_of_ne htext, tagParams] at hm
        rcases List.mem_cons.1 hm with rfl | hm
        · exact mem_of_member? hquery
        rcases List.mem_append.1 hm with hm | hm
        · cases htag : filters.tags with
          | none =>
            rw [htag] at hm
            cases hm
          | some tags =>
            rw [htag] at hm htags
            obtain rfl := List.mem_singleton.1 hm
            exact mem_of_member? (htags _ rfl)
        · cases hmatch : filters.tagsMatch with
          | none =>
            rw [hmatch] at hm
            cases hm
          | some strategy =>
            have hstrategy := h.tagsMatch strategy hmatch
            have hmem := tagsMatch_mem_of_parse hbytes htext hmatch hstrategy hparse
            have hne : strategy ≠ "" := by rcases hstrategy with rfl | rfl <;> decide
            rw [hmatch, textParam, if_neg hne] at hm
            obtain rfl := List.mem_singleton.1 hm
            exact hmem
      have hharm' : (∃ c ∈ filters.json, 0x80 ≤ c.toNat) ∨ 62 ∈ sextets filters.jsonBytes := by
        refine hharm.imp_left fun ⟨c, hc, hge⟩ => ?_
        by_contra hall
        have hjson : ∀ c ∈ filters.json, c.toNat < 0x80 :=
          fun c hc => Nat.not_le.1 fun hge => hall ⟨c, hc, hge⟩
        have := (forall_json h fun _ => id).1 hjson c hc
        omega
      have hcount : ∀ c : Char, c.toNat < 0x80 → decide (c.toNat < 0x100) = true := by
        intro c hc
        rw [decide_eq_true_eq]
        omega
      have hfewer := countP_lt_of_harmed hbytes hharm'
      have hread := countP_print_le hcount hparse
      have hmembers := countP_print_object_le hcount (nodup_queryParams filters) hsub
      have hsent : filters.json.countP (fun c => c.toNat < 0x100) = filters.json.length :=
        List.countP_eq_length.2 fun c hc => decide_eq_true (hbytes c hc)
      rw [← json] at hmembers
      omega
  · have hwide : ∃ c ∈ filters.json, 0x100 ≤ c.toNat := by
      by_contra hall
      exact hbytes fun c hc => Nat.not_le.1 fun hge => hall ⟨c, hc, hge⟩
    rw [RoundTrips, received_of_wide hwide] at hround
    cases hround

/-- **Filters from the form to the service.** They arrive exactly if the query is ASCII, no `>` or
    `~` of it becomes a digit `+`, and a strategy is not all that is sent. -/
theorem roundTrips_iff (h : filters.WellFormed) : filters.RoundTrips ↔ filters.Survives := by
  constructor
  · intro hround
    have hascii : ∀ c ∈ filters.text.toList, c.toNat < 0x80 :=
      fun c hc => Nat.not_le.1 fun hge => not_roundTrips_of_harmed h (Or.inl ⟨c, hc, hge⟩) hround
    have hplus : 62 ∉ sextets filters.jsonBytes :=
      fun hplus => not_roundTrips_of_harmed h (Or.inr hplus) hround
    refine ⟨hascii, fun before c after heq hc hlen => hplus ?_,
      (roundTrips_of_intact h hascii hplus).1 hround⟩
    exact (mem_sextets_jsonBytes h hascii).2 ⟨before, c, after, heq, hc, hlen⟩
  · intro hsurvives
    have hplus : 62 ∉ sextets filters.jsonBytes := by
      intro hplus
      obtain ⟨before, c, after, heq, hc, hlen⟩ := (mem_sextets_jsonBytes h hsurvives.ascii).1 hplus
      exact hsurvives.noPlus before c after heq hc hlen
    exact (roundTrips_of_intact h hsurvives.ascii hplus).2 hsurvives.notStrategyAlone

theorem roundTrips_sample :
    (⟨some "health", some ["7"], some "all"⟩ : AppliedDebateFilters).RoundTrips := by
  have hascii : "health".toList.all (fun c => c.toNat < 0x80) = true := by decide
  refine (roundTrips_iff ⟨?_, ?_⟩).2
    ⟨fun c hc => of_decide_eq_true (List.all_eq_true.1 hascii c hc), ?_, by decide⟩
  · intro tags htags
    obtain rfl := Option.some.inj htags
    refine ⟨by decide, fun tag htag => ⟨7, ?_⟩⟩
    exact List.mem_singleton.1 htag
  · intro strategy hstrategy
    exact Or.inr (Option.some.inj hstrategy).symm
  · intro before c after heq hc
    have hmem : c ∈ "health".toList := heq ▸ List.mem_append_right _ (List.mem_cons_self ..)
    rcases hc with rfl | rfl
    · exact absurd hmem (by decide)
    · exact absurd hmem (by decide)

/-- A letter with an accent is sent as one byte, which is no UTF-8. -/
theorem accent_does_not_roundTrip :
    ¬ ∀ filters : AppliedDebateFilters, filters.WellFormed → filters.RoundTrips := by
  intro hall
  have hwf : (⟨some "café", none, none⟩ : AppliedDebateFilters).WellFormed :=
    ⟨fun _ htags => (nomatch htags), fun _ hstrategy => (nomatch hstrategy)⟩
  exact not_roundTrips_of_harmed hwf (Or.inl ⟨'é', by decide, by decide⟩) (hall _ hwf)

end AppliedDebateFilters

end DecentDebates

import Cairn.Json.Parser
import Cairn.Proofs.Numerals

set_option autoImplicit false

/-!
# Documents and their texts

The text of a document reads back to the document, whatever follows that cannot belong to a number,
as long as all its numbers are ones that JSON can write. A text is read with as much fuel as twice
its length, which is more than nested arrays and objects take. No text holds a raw control
character, so a document is one line.
-/

namespace Cairn

namespace Number

theorem head_toDigits_ne_zero {n : Nat} (nonzero : n ≠ 0) :
    ∀ c ∈ (Nat.toDigits 10 n).head?, c ≠ '0' := by
  induction n using Nat.strongRecOn with
  | _ n inductionHypothesis =>
    rw [Nat.toDigits_eq_if (by decide)]
    split
    next below =>
      have positive : 0 < n := Nat.pos_of_ne_zero nonzero
      interval_cases n <;> simp [Nat.digitChar]
    next above =>
      have shorter := inductionHypothesis (n / 10) (by omega) (by omega)
      rwa [List.head?_append_of_ne_nil _ Nat.toDigits_ne_nil]

/-- A text that starts with a zero goes on with something else than a digit. -/
def NoLeadingZero (text : List Char) : Prop :=
  ∀ rest, text = '0' :: rest → ∀ c ∈ rest.head?, c.isDigit = false

theorem noLeadingZero_of_head {text : List Char} (head : ∀ c ∈ text.head?, c ≠ '0') :
    NoLeadingZero text := by
  rintro rest rfl
  exact absurd rfl (head '0' rfl)

theorem NoLeadingZero.append {text rest : List Char} (plain : NoLeadingZero text)
    (nonempty : text ≠ []) (stops : ∀ c ∈ rest.head?, c.isDigit = false) :
    NoLeadingZero (text ++ rest) := by
  intro tail same
  cases text with
  | nil => exact absurd rfl nonempty
  | cons d ds =>
    obtain ⟨rfl, rfl⟩ := List.cons.inj same
    cases ds with
    | nil => exact stops
    | cons e ds => exact plain (e :: ds) rfl

theorem noLeadingZero_layout {d : Decimal} (nonzero : d.digits ≠ 0) :
    NoLeadingZero (layout d).toList := by
  have head := head_toDigits_ne_zero nonzero
  have nonempty : Nat.toDigits 10 d.digits ≠ [] := Nat.toDigits_ne_nil
  unfold layout
  dsimp only
  obtain ⟨c, ds, shape⟩ := List.exists_cons_of_ne_nil nonempty
  rw [shape] at head ⊢
  have first : c ≠ '0' := head c rfl
  split
  next =>
    apply noLeadingZero_of_head
    cases ds <;> simp [scientific, first]
  next =>
    split
    next =>
      have point : "0.".toList = ['0', '.'] := rfl
      intro rest same
      simp only [String.toList_append, List.append_assoc, point] at same
      cases same
      simp
    next positive =>
      apply noLeadingZero_of_head
      split
      next => simp [first]
      next =>
        obtain ⟨n, place⟩ : ∃ n, ((c :: ds).length + d.exponent).toNat = n + 1 :=
          Nat.exists_eq_add_one_of_ne_zero (by omega)
        rw [place]
        simp [first]

/-- The digits of a number have no zero in front that they could do without. -/
theorem noLeadingZero_exactText (x : Float) :
    NoLeadingZero (splitSign (exactText x).toList).2 := by
  unfold exactText
  split
  next =>
    intro rest same
    cases same
    simp
  next =>
    unfold text
    split
    next =>
      intro rest same
      cases same
    next negative _ =>
      intro rest same
      cases negative <;> cases same
    next negative mantissa _ isFinite =>
      obtain ⟨below, rfl, rfl⟩ := parts_eq_finite isFinite
      split
      next =>
        intro rest same
        cases same
        simp
      next nonzero =>
        rw [mantissaOf_eq_zero_iff] at nonzero
        have positive : 0 < magnitude x := Nat.pos_of_ne_zero nonzero
        have digits : (shortest (magnitude x)).digits ≠ 0 := by
          intro zero
          have back := nearest_shortest positive below
          simp only [Decimal.nearest, zero, if_true] at back
          exact nonzero back.symm
        obtain ⟨s, spelled, _⟩ := layout_eq_text (shortest (magnitude x))
        have sign : ((if isNegative x = true then "-" else "") ++
            layout (shortest (magnitude x))).toList =
            (if isNegative x = true then ['-'] else []) ++ s.text := by
          rw [String.toList_append, spelled]
          split <;> rfl
        rw [sign, s.splitSign_text, ← spelled]
        exact noLeadingZero_layout digits

/-- How the numbers that JSON can write are written. -/
theorem text_shape {x : Float} (isFinite : isFinite x = true)
    (unsignedZero : isNegativeZero x = false) :
    ∃ (s : Spelling) (negative : Bool),
      (text x).toList = (if negative then ['-'] else []) ++ s.text ∧
        s.decimal.toFloat negative = x ∧ NoLeadingZero s.text := by
  have same : exactText x = text x := by simp [exactText, unsignedZero]
  rcases exactText_shape x with ⟨rfl, _⟩ | ⟨negative, rfl, _⟩ | ⟨s, negative, spelled, value⟩
  · exact absurd isFinite (by decide)
  · cases negative <;> exact absurd isFinite (by decide)
  · have plain := noLeadingZero_exactText x
    rw [spelled, s.splitSign_text] at plain
    exact ⟨s, negative, same ▸ spelled, value, plain⟩

end Number

namespace Json

open Number

/-- What may follow a value: a comma, a closing bracket or brace, or nothing. -/
def Closes (rest : List Char) : Prop :=
  ∀ c ∈ rest.head?, c = ',' ∨ c = ']' ∨ c = '\x7d'

theorem Closes.notDigit {rest : List Char} (closes : Closes rest) :
    ∀ c ∈ rest.head?, c.isDigit = false := by
  intro c member
  rcases closes c member with rfl | rfl | rfl <;> rfl

/-! Numbers. -/

theorem digits_append {ds rest : List Char} (problem : Problem) (nonempty : ds ≠ [])
    (inside : ∀ c ∈ ds, c.isDigit) (stops : ∀ c ∈ rest.head?, c.isDigit = false) :
    digits problem (ds ++ rest) = .ok (ds, rest) := by
  obtain ⟨d, ds, rfl⟩ := List.exists_cons_of_ne_nil nonempty
  unfold digits
  rw [takeWhile_of_stop inside stops, dropWhile_of_stop inside stops]

theorem whole_append {ds rest : List Char} (nonempty : ds ≠ []) (inside : ∀ c ∈ ds, c.isDigit)
    (stops : ∀ c ∈ rest.head?, c.isDigit = false) (plain : NoLeadingZero (ds ++ rest)) :
    whole (ds ++ rest) = .ok (ds, rest) := by
  unfold whole
  split
  next tail same =>
    have next := plain tail same
    cases ds with
    | nil => exact absurd rfl nonempty
    | cons d ds =>
      obtain ⟨rfl, rfl⟩ := List.cons.inj same
      -- A second digit would make the zero a leading one.
      cases ds with
      | cons e ds =>
        have digit := inside e (by simp)
        rw [next e rfl] at digit
        cases digit
      | nil =>
        cases rest with
        | nil => rfl
        | cons c rest => simp [stops c rfl]
  next => exact digits_append .noNumber nonempty inside stops

theorem exponent_powerText (s : Spelling) {rest : List Char} (closes : Closes rest) :
    exponent (s.powerText ++ rest) = .ok (s.power.getD 0, rest) := by
  unfold Spelling.powerText
  cases s.power with
  | none =>
    cases rest with
    | nil => rfl
    | cons c rest => rcases closes c rfl with rfl | rfl | rfl <;> rfl
  | some k =>
    have inside : ∀ c ∈ Nat.toDigits 10 k.natAbs, c.isDigit := fun c member =>
      Nat.isDigit_of_mem_toDigits (by decide) (by decide) member
    have read := digits_append .noExponent Nat.toDigits_ne_nil inside closes.notDigit
    have sign : (if k < 0 then -(k.natAbs : Int) else k.natAbs) = k := by omega
    by_cases negative : k < 0
    · rw [if_pos negative] at sign
      simp only [exponent, negative, if_true, List.cons_append, splitSign, read, true_or,
        natOfDigits_toDigits, bind, Except.bind, pure, Except.pure, sign, Option.getD_some]
    · rw [if_neg negative] at sign
      simp only [exponent, negative, if_true, if_false, Bool.false_eq_true, List.cons_append,
        splitSign, read, true_or, natOfDigits_toDigits, bind, Except.bind, pure, Except.pure, sign,
        Option.getD_some]

/-- What follows the digits of a number in its text, or the whole number. -/
theorem head_powerText (s : Spelling) {rest : List Char} (closes : Closes rest) :
    ∀ c ∈ (s.powerText ++ rest).head?, c.isDigit = false ∧ c ≠ '.' := by
  unfold Spelling.powerText
  intro c member
  cases power : s.power with
  | none =>
    rw [power] at member
    rcases closes c member with rfl | rfl | rfl <;> simp
  | some k =>
    rw [power] at member
    cases member
    simp

theorem fraction_fractionText (s : Spelling) {rest : List Char} (closes : Closes rest) :
    fraction (s.fractionText ++ (s.powerText ++ rest)) = .ok (s.fraction, s.powerText ++ rest) := by
  have stops := head_powerText s closes
  unfold Spelling.fractionText
  split
  next noFraction =>
    rw [List.nil_append, noFraction]
    generalize s.powerText ++ rest = later at stops
    unfold fraction
    split
    next => exact absurd rfl (stops '.' rfl).2
    next => rfl
  next someFraction =>
    exact digits_append .noFraction someFraction s.fraction_digits fun c member =>
      (stops c member).1

theorem unsigned_text (s : Spelling) (negative : Bool) (plain : NoLeadingZero s.text)
    {rest : List Char} (closes : Closes rest) :
    unsigned negative (s.text ++ rest) = .ok (.number (s.decimal.toFloat negative), rest) := by
  have stops : ∀ c ∈ (s.fractionText ++ (s.powerText ++ rest)).head?, c.isDigit = false := by
    unfold Spelling.fractionText
    split
    next => exact fun c member => (head_powerText s closes c member).1
    next => simp
  have nonempty : s.text ≠ [] := by
    obtain ⟨c, cs, shape, _⟩ := s.text_eq_cons
    rw [shape]
    exact List.cons_ne_nil c cs
  have read := plain.append nonempty closes.notDigit
  have text : s.text ++ rest = s.whole ++ (s.fractionText ++ (s.powerText ++ rest)) := by
    simp [Spelling.text]
  rw [text] at read ⊢
  simp only [unsigned, whole_append s.whole_ne_nil s.whole_digits stops read,
    fraction_fractionText s closes, exponent_powerText s closes, bind, Except.bind, pure,
    Except.pure]
  rfl

theorem signed_text {x : Float} (isFinite : isFinite x = true)
    (unsignedZero : isNegativeZero x = false) {rest : List Char} (closes : Closes rest) :
    signed ((Number.text x).toList ++ rest) = .ok (.number x, rest) := by
  obtain ⟨s, negative, spelled, value, plain⟩ := text_shape isFinite unsignedZero
  have read := unsigned_text s negative plain closes
  rw [value] at read
  rw [spelled]
  cases negative with
  | true => exact read
  | false =>
    obtain ⟨c, cs, shape, digit⟩ := s.text_eq_cons
    simp only [Bool.false_eq_true, if_false, List.nil_append]
    rw [shape, List.cons_append] at read ⊢
    unfold signed
    split
    next same =>
      cases same
      cases digit
    next => exact read

/-! Strings. -/

theorem hexValue?_digitChar {n : Nat} (below : n < 16) : hexValue? (Nat.digitChar n) = some n := by
  interval_cases n <;> decide

theorem unit_hex4 {n : Nat} (below : n < 65536) (rest : List Char) :
    unit (Text.hex4 n ++ rest) = .ok (n, rest) := by
  have digits : 16 * (16 * (16 * (16 * 0 + n / 4096 % 16) + n / 256 % 16) + n / 16 % 16) + n % 16 =
      n := by omega
  simp only [unit, Text.hex4, List.map_cons, List.map_nil, List.cons_append, List.nil_append,
    hexNumber, hexValue?_digitChar (Nat.mod_lt _ (by decide : 0 < 16)), digits]

/-- A control character by its number. -/
theorem escaped_unit {c : Char} (control : c.toNat < 32) (rest : List Char) :
    escaped ('u' :: Text.hex4 c.toNat ++ rest) = .ok (c, rest) := by
  have single : ¬ (0xD800 ≤ c.toNat ∧ c.toNat < 0xE000) := by omega
  simp only [escaped, List.cons_append, unit_hex4 (by omega : c.toNat < 65536), bind,
    Except.bind, pure, Except.pure, joinUnits, if_neg single, Char.ofNat_toNat]

/-- A character of a string takes one round, whether it is escaped or not. -/
theorem chars_escape (c : Char) (fuel : Nat) (rest : List Char) :
    chars (fuel + 1) (Text.escape c ++ rest) =
      (chars fuel rest).map fun (ds, rest) => (c :: ds, rest) := by
  have opened : ∀ cs, escaped cs = .ok (c, rest) → chars (fuel + 1) ('\\' :: cs) =
      (chars fuel rest).map fun (ds, rest) => (c :: ds, rest) := by
    intro cs read
    simp only [chars, read, bind, Except.bind, pure, Except.pure]
    cases chars fuel rest <;> rfl
  unfold Text.escape
  split_ifs with quote backslash newline carriage tab backspace feed control
  · subst quote
    exact opened _ rfl
  · subst backslash
    exact opened _ rfl
  · subst newline
    exact opened _ rfl
  · subst carriage
    exact opened _ rfl
  · subst tab
    exact opened _ rfl
  · subst backspace
    exact opened _ rfl
  · subst feed
    exact opened _ rfl
  · exact opened _ (escaped_unit control rest)
  · simp only [List.cons_append, List.nil_append, chars, quote, control, backslash, if_false, bind,
      Except.bind, pure, Except.pure]
    cases chars fuel rest <;> rfl

theorem chars_flatMap_escape (cs : List Char) {fuel : Nat} (enough : cs.length < fuel)
    (rest : List Char) : chars fuel (cs.flatMap Text.escape ++ '"' :: rest) = .ok (cs, rest) := by
  induction cs generalizing fuel with
  | nil =>
    obtain ⟨fuel, rfl⟩ := Nat.exists_eq_add_one_of_ne_zero (Nat.ne_of_gt enough)
    rfl
  | cons c cs inductionHypothesis =>
    obtain ⟨fuel, rfl⟩ := Nat.exists_eq_add_one_of_ne_zero (Nat.ne_zero_of_lt enough)
    rw [List.flatMap_cons, List.append_assoc, chars_escape,
      inductionHypothesis (Nat.lt_of_succ_lt_succ enough)]
    rfl

theorem escape_ne_nil (c : Char) : Text.escape c ≠ [] := by
  unfold Text.escape
  split_ifs <;> simp

theorem length_le_flatMap_escape (cs : List Char) :
    cs.length ≤ (cs.flatMap Text.escape).length := by
  induction cs with
  | nil => exact Nat.le_refl 0
  | cons c cs inductionHypothesis =>
    have positive := List.length_pos_of_ne_nil (escape_ne_nil c)
    rw [List.flatMap_cons, List.length_append, List.length_cons]
    omega

theorem toList_quoted (s : String) :
    (Text.quoted s).toList = '"' :: (s.toList.flatMap Text.escape ++ ['"']) := by
  simp [Text.quoted]

theorem text_quoted (s : String) (rest : List Char) :
    text (s.toList.flatMap Text.escape ++ '"' :: rest) = .ok (s, rest) := by
  have enough : s.toList.length < (s.toList.flatMap Text.escape ++ '"' :: rest).length + 1 := by
    have longer := length_le_flatMap_escape s.toList
    rw [List.length_append]
    omega
  simp only [text, chars_flatMap_escape s.toList enough, bind, Except.bind, pure, Except.pure,
    String.ofList_toList]

/-! Values. -/

/-- Documents whose numbers JSON can write: it has no NaN, no infinities and no negative zero. -/
inductive Writable : Json → Prop
  | null : Writable .null
  | boolean (b : Bool) : Writable (.boolean b)
  | number {x : Float} : isFinite x = true → isNegativeZero x = false → Writable (.number x)
  | string (s : String) : Writable (.string s)
  | array {items : List Json} : (∀ j ∈ items, Writable j) → Writable (.array items)
  | object {members : List (String × Json)} :
      (∀ e ∈ members, Writable e.2) → Writable (.object members)

/-- The text of a document, with more text behind it that may follow a value, reads as the
document and leaves what follows. -/
def ReadsBack (j : Json) : Prop :=
  ∀ (fuel : Nat) (rest : List Char), 2 * j.render.toList.length ≤ fuel → Closes rest →
    value fuel (j.render.toList ++ rest) = .ok (j, rest)

theorem readsBack_of_cons {j : Json} {c : Char} {cs : List Char}
    (shape : j.render.toList = c :: cs)
    (read : ∀ (fuel : Nat) (rest : List Char), 2 * cs.length ≤ fuel → Closes rest →
      value (fuel + 1) (c :: (cs ++ rest)) = .ok (j, rest)) : ReadsBack j := by
  intro fuel rest enough closes
  rw [shape, List.length_cons] at enough
  obtain ⟨fuel, rfl⟩ : ∃ n, fuel = n + 1 := Nat.exists_eq_add_one_of_ne_zero (by omega)
  rw [shape]
  exact read fuel rest (by omega) closes

theorem skipSpace_cons {c : Char} (solid : isSpace c = false) (cs : List Char) :
    skipSpace (c :: cs) = c :: cs := by
  simp [skipSpace, solid]

/-- The first character of a number. -/
def IsNumeric (c : Char) : Prop := c = '-' ∨ c.isDigit = true

theorem IsNumeric.ne {c d : Char} (numeric : IsNumeric c) (sign : d ≠ '-')
    (noDigit : d.isDigit = false) : c ≠ d := by
  rintro rfl
  rcases numeric with same | digit
  · exact sign same
  · rw [noDigit] at digit
    cases digit

theorem IsNumeric.solid {c : Char} (numeric : IsNumeric c) : isSpace c = false := by
  simp only [isSpace, Bool.or_eq_false_iff, decide_eq_false_iff_not]
  refine ⟨⟨⟨?_, ?_⟩, ?_⟩, ?_⟩ <;> exact numeric.ne (by decide) rfl

theorem value_numeric {c : Char} (numeric : IsNumeric c) (fuel : Nat) (cs : List Char) :
    value (fuel + 1) (c :: cs) = signed (c :: cs) := by
  rw [value, skipSpace_cons numeric.solid]
  split
  next same => cases same
  next same => exact absurd (List.cons.inj same).1 (numeric.ne (by decide) rfl)
  next same => exact absurd (List.cons.inj same).1 (numeric.ne (by decide) rfl)
  next same => exact absurd (List.cons.inj same).1 (numeric.ne (by decide) rfl)
  next same =>
    cases same
    rw [if_neg (numeric.ne (by decide) rfl), if_neg (numeric.ne (by decide) rfl),
      if_neg (numeric.ne (by decide) rfl)]
    exact if_pos numeric

theorem text_head {x : Float} (isFinite : isFinite x = true)
    (unsignedZero : isNegativeZero x = false) :
    ∃ c cs, (Number.text x).toList = c :: cs ∧ IsNumeric c := by
  obtain ⟨s, negative, spelled, _, _⟩ := text_shape isFinite unsignedZero
  rw [spelled]
  cases negative with
  | true => exact ⟨'-', s.text, rfl, .inl rfl⟩
  | false =>
    obtain ⟨c, cs, shape, digit⟩ := s.text_eq_cons
    exact ⟨c, cs, shape, .inr digit⟩

/-- A document starts with neither a blank nor a closing bracket. -/
theorem Writable.head {j : Json} (writable : j.Writable) :
    ∃ c cs, j.render.toList = c :: cs ∧ isSpace c = false ∧ c ≠ ']' := by
  cases writable with
  | null => exact ⟨'n', _, rfl, rfl, by decide⟩
  | boolean b =>
    cases b with
    | true => exact ⟨'t', _, rfl, rfl, by decide⟩
    | false => exact ⟨'f', _, rfl, rfl, by decide⟩
  | number isFinite unsignedZero =>
    obtain ⟨c, cs, shape, numeric⟩ := text_head isFinite unsignedZero
    exact ⟨c, cs, shape, numeric.solid, numeric.ne (by decide) rfl⟩
  | string s => exact ⟨'"', _, toList_quoted s, rfl, by decide⟩
  | array =>
    exact ⟨'[', _, by rw [render, String.toList_append, String.toList_append]; rfl, rfl,
      by decide⟩
  | object =>
    exact ⟨'\x7b', _, by rw [render, String.toList_append, String.toList_append]; rfl, rfl,
      by decide⟩

theorem readsBack_number {x : Float} (isFinite : isFinite x = true)
    (unsignedZero : isNegativeZero x = false) : ReadsBack (.number x) := by
  obtain ⟨c, cs, shape, numeric⟩ := text_head isFinite unsignedZero
  apply readsBack_of_cons (j := .number x) shape
  intro fuel rest _ closes
  have read := signed_text isFinite unsignedZero closes
  rw [shape] at read
  exact (value_numeric numeric fuel (cs ++ rest)).trans read

theorem readsBack_string (s : String) : ReadsBack (.string s) := by
  apply readsBack_of_cons (j := .string s) (toList_quoted s)
  intro fuel rest _ _
  simp only [value, List.append_assoc, List.cons_append, List.nil_append,
    skipSpace_cons (by decide : isSpace '"' = false), text_quoted, bind, Except.bind, pure,
    Except.pure]

/-- Texts with a comma between them. -/
def commas (texts : List String) : List Char := (",".intercalate texts).toList

theorem commas_cons_cons (first second : String) (texts : List String) :
    commas (first :: second :: texts) = first.toList ++ ',' :: commas (second :: texts) := by
  simp [commas, String.intercalate_cons_cons]

theorem exists_commas_cons (first : String) (texts : List String) :
    ∃ more, commas (first :: texts) = first.toList ++ more := by
  cases texts with
  | nil => exact ⟨[], by simp [commas]⟩
  | cons second texts => exact ⟨_, commas_cons_cons first second texts⟩

theorem renderItems_eq_map (items : List Json) : renderItems items = items.map render := by
  induction items with
  | nil => rfl
  | cons j items inductionHypothesis => simp [renderItems, inductionHypothesis]

theorem items_commas {list : List Json} (nonempty : list ≠ []) (back : ∀ j ∈ list, ReadsBack j)
    {fuel : Nat} (enough : 2 * (commas (list.map render)).length < fuel) (rest : List Char) :
    items fuel (commas (list.map render) ++ ']' :: rest) = .ok (list, rest) := by
  induction list generalizing fuel with
  | nil => exact absurd rfl nonempty
  | cons j list inductionHypothesis =>
    obtain ⟨fuel, rfl⟩ : ∃ n, fuel = n + 1 := Nat.exists_eq_add_one_of_ne_zero (by omega)
    have first := back j (by simp)
    cases list with
    | nil =>
      have single : commas ([j].map render) = j.render.toList := by simp [commas]
      rw [single] at enough ⊢
      have read := first fuel (']' :: rest) (by omega) (by simp [Closes])
      simp [items, read, bind, Except.bind, pure, Except.pure,
        skipSpace_cons (by decide : isSpace ']' = false)]
    | cons k list =>
      rw [List.map_cons, List.map_cons, commas_cons_cons, ← List.map_cons] at enough ⊢
      simp only [List.length_append, List.length_cons] at enough
      have read := first fuel (',' :: (commas ((k :: list).map render) ++ ']' :: rest))
        (by omega) (by simp [Closes])
      have later := inductionHypothesis (List.cons_ne_nil k list)
        (fun i member => back i (List.mem_cons_of_mem j member))
        (by omega : 2 * (commas ((k :: list).map render)).length < fuel)
      simp only [items, List.append_assoc, List.cons_append, read, bind, Except.bind, pure,
        Except.pure, skipSpace_cons (by decide : isSpace ',' = false), later]

theorem toList_render_array (list : List Json) :
    (Json.array list).render.toList = '[' :: (commas (list.map render) ++ [']']) := by
  simp [render, renderItems_eq_map, commas]

theorem readsBack_array {list : List Json} (writable : ∀ j ∈ list, j.Writable)
    (back : ∀ j ∈ list, ReadsBack j) : ReadsBack (.array list) := by
  apply readsBack_of_cons (toList_render_array list)
  intro fuel rest enough _
  rw [List.length_append, List.length_singleton] at enough
  rw [List.append_assoc, List.singleton_append, value, skipSpace_cons (by decide)]
  cases list with
  | nil => rfl
  | cons j list =>
    obtain ⟨c, cs, shape, solid, noCloser⟩ := (writable j (by simp)).head
    obtain ⟨more, first⟩ := exists_commas_cons j.render (list.map render)
    have room : 2 * (commas ((j :: list).map render)).length < fuel := by omega
    have read := items_commas (List.cons_ne_nil j list) back room rest
    rw [List.map_cons, first, shape] at read ⊢
    simp only [List.cons_append, skipSpace_cons solid] at read ⊢
    split
    next same => exact absurd (List.cons.inj same).1 noCloser
    next => simp only [read, bind, Except.bind, pure, Except.pure]

def memberText (e : String × Json) : String := Text.quoted e.1 ++ ":" ++ e.2.render

theorem renderMembers_eq_map (members : List (String × Json)) :
    renderMembers members = members.map memberText := by
  induction members with
  | nil => rfl
  | cons e members inductionHypothesis => simp [renderMembers, inductionHypothesis, memberText]

theorem toList_memberText (e : String × Json) :
    (memberText e).toList =
      '"' :: (e.1.toList.flatMap Text.escape ++ '"' :: ':' :: e.2.render.toList) := by
  simp [memberText, toList_quoted]

theorem members_last {e : String × Json} (back : ReadsBack e.2) {fuel : Nat}
    (enough : 2 * (memberText e).toList.length ≤ fuel) (problem : Problem) (rest : List Char) :
    members (fuel + 1) problem ((memberText e).toList ++ '\x7d' :: rest) = .ok ([e], rest) := by
  rw [toList_memberText] at enough ⊢
  simp only [List.length_cons, List.length_append] at enough
  have read := back fuel ('\x7d' :: rest) (by omega) (by simp [Closes])
  simp only [members, List.cons_append, List.append_assoc,
    skipSpace_cons (by decide : isSpace '"' = false), text_quoted,
    skipSpace_cons (by decide : isSpace ':' = false), read,
    skipSpace_cons (by decide : isSpace '\x7d' = false), bind, Except.bind, pure, Except.pure]

theorem members_more {e : String × Json} (back : ReadsBack e.2) {fuel : Nat}
    (enough : 2 * (memberText e).toList.length ≤ fuel) (problem : Problem) {rest after : List Char}
    {list : List (String × Json)} (later : members fuel .noNextName rest = .ok (list, after)) :
    members (fuel + 1) problem ((memberText e).toList ++ ',' :: rest) =
      .ok (e :: list, after) := by
  rw [toList_memberText] at enough ⊢
  simp only [List.length_cons, List.length_append] at enough
  have read := back fuel (',' :: rest) (by omega) (by simp [Closes])
  simp only [members, List.cons_append, List.append_assoc,
    skipSpace_cons (by decide : isSpace '"' = false), text_quoted,
    skipSpace_cons (by decide : isSpace ':' = false), read,
    skipSpace_cons (by decide : isSpace ',' = false), later, bind, Except.bind, pure, Except.pure]

theorem members_commas {list : List (String × Json)} (nonempty : list ≠ [])
    (back : ∀ e ∈ list, ReadsBack e.2) {fuel : Nat}
    (enough : 2 * (commas (list.map memberText)).length < fuel) (problem : Problem)
    (rest : List Char) :
    members fuel problem (commas (list.map memberText) ++ '\x7d' :: rest) = .ok (list, rest) := by
  induction list generalizing fuel problem with
  | nil => exact absurd rfl nonempty
  | cons e list inductionHypothesis =>
    obtain ⟨fuel, rfl⟩ : ∃ n, fuel = n + 1 := Nat.exists_eq_add_one_of_ne_zero (by omega)
    have first := back e (by simp)
    cases list with
    | nil =>
      have single : commas ([e].map memberText) = (memberText e).toList := by simp [commas]
      rw [single] at enough ⊢
      exact members_last first (by omega) problem rest
    | cons f list =>
      rw [List.map_cons, List.map_cons, commas_cons_cons, ← List.map_cons] at enough ⊢
      simp only [List.length_append, List.length_cons] at enough
      have later := inductionHypothesis (List.cons_ne_nil f list)
        (fun e' member => back e' (List.mem_cons_of_mem e member))
        (by omega : 2 * (commas ((f :: list).map memberText)).length < fuel) .noNextName
      rw [List.append_assoc, List.cons_append]
      exact members_more first (by omega) problem later

theorem toList_render_object (list : List (String × Json)) :
    (Json.object list).render.toList = '\x7b' :: (commas (list.map memberText) ++ ['\x7d']) := by
  simp [render, renderMembers_eq_map, commas]

theorem readsBack_object {list : List (String × Json)} (back : ∀ e ∈ list, ReadsBack e.2) :
    ReadsBack (.object list) := by
  apply readsBack_of_cons (toList_render_object list)
  intro fuel rest enough _
  rw [List.length_append, List.length_singleton] at enough
  rw [List.append_assoc, List.singleton_append, value, skipSpace_cons (by decide)]
  cases list with
  | nil => rfl
  | cons e list =>
    obtain ⟨more, first⟩ := exists_commas_cons (memberText e) (list.map memberText)
    have room : 2 * (commas ((e :: list).map memberText)).length < fuel := by omega
    have read := members_commas (List.cons_ne_nil e list) back room .noName rest
    rw [List.map_cons, first, toList_memberText] at read ⊢
    simp only [List.cons_append, skipSpace_cons (by decide : isSpace '"' = false)] at read ⊢
    split
    next same => cases same
    next => simp only [read, bind, Except.bind, pure, Except.pure]

theorem Writable.readsBack {j : Json} (writable : j.Writable) : ReadsBack j := by
  induction writable with
  | null => exact readsBack_of_cons rfl fun fuel rest _ _ => rfl
  | boolean b => cases b <;> exact readsBack_of_cons rfl fun fuel rest _ _ => rfl
  | number isFinite unsignedZero => exact readsBack_number isFinite unsignedZero
  | string s => exact readsBack_string s
  | array writable inductionHypothesis => exact readsBack_array writable inductionHypothesis
  | object _ inductionHypothesis => exact readsBack_object inductionHypothesis

/-- The text of a document whose numbers can be written holds that document. -/
theorem parse_render {j : Json} (writable : j.Writable) : parse j.render = .ok j := by
  have read := writable.readsBack (2 * j.render.toList.length + 2) [] (by omega) (by simp [Closes])
  rw [List.append_nil] at read
  simp only [parse, read, bind, Except.bind, pure, Except.pure]
  rfl

/-! Control characters. -/

/-- A text without raw control characters. -/
def Printable (cs : List Char) : Prop := ∀ c ∈ cs, 32 ≤ c.toNat

@[simp]
theorem printable_nil : Printable [] := by simp [Printable]

@[simp]
theorem printable_cons {c : Char} {cs : List Char} :
    Printable (c :: cs) ↔ 32 ≤ c.toNat ∧ Printable cs :=
  List.forall_mem_cons

@[simp]
theorem printable_append {front back : List Char} :
    Printable (front ++ back) ↔ Printable front ∧ Printable back :=
  List.forall_mem_append

theorem le_toNat_digitChar {n : Nat} (below : n < 16) : 32 ≤ (Nat.digitChar n).toNat := by
  interval_cases n <;> decide

theorem printable_hex4 (n : Nat) : Printable (Text.hex4 n) := by
  intro c member
  obtain ⟨digit, place, rfl⟩ := List.mem_map.mp member
  apply le_toNat_digitChar
  simp only [List.mem_cons, List.not_mem_nil, or_false] at place
  omega

theorem printable_escape (c : Char) : Printable (Text.escape c) := by
  unfold Text.escape
  split_ifs with _ _ _ _ _ _ _ control
  iterate 7 · simp
  · simp [printable_hex4]
  · simpa using control

theorem printable_quoted (s : String) : Printable (Text.quoted s).toList := by
  have inside : Printable (s.toList.flatMap Text.escape) := by
    intro c member
    obtain ⟨d, _, escaped⟩ := List.mem_flatMap.mp member
    exact printable_escape d c escaped
  rw [toList_quoted]
  simp [inside]

theorem printable_text {x : Float} (isFinite : isFinite x = true)
    (unsignedZero : isNegativeZero x = false) : Printable (Number.text x).toList := by
  obtain ⟨s, negative, spelled, _, _⟩ := text_shape isFinite unsignedZero
  rw [spelled, printable_append]
  refine ⟨by cases negative <;> simp, fun c member => ?_⟩
  rcases Spelling.mem_text member with digit | rfl | rfl | rfl | rfl
  · simp only [Char.isDigit, Bool.and_eq_true, decide_eq_true_eq, ge_iff_le,
      UInt32.le_iff_toNat_le] at digit
    have low : 48 ≤ c.toNat := digit.1
    omega
  all_goals decide

theorem printable_commas {texts : List String} (printable : ∀ t ∈ texts, Printable t.toList) :
    Printable (commas texts) := by
  induction texts with
  | nil => exact printable_nil
  | cons first texts inductionHypothesis =>
    have later := inductionHypothesis fun t member =>
      printable t (List.mem_cons_of_mem first member)
    cases texts with
    | nil => simpa [commas] using printable first (by simp)
    | cons second texts =>
      rw [commas_cons_cons, printable_append, printable_cons]
      exact ⟨printable first (by simp), by decide, later⟩

/-- The text of a document holds no raw control character, so it is one line. -/
theorem Writable.printable {j : Json} (writable : j.Writable) : Printable j.render.toList := by
  induction writable with
  | null => simp [render]
  | boolean b => cases b <;> simp [render]
  | number isFinite unsignedZero => exact printable_text isFinite unsignedZero
  | string s => exact printable_quoted s
  | @array list _ inductionHypothesis =>
    have inside : Printable (commas (list.map render)) := by
      apply printable_commas
      simpa using inductionHypothesis
    rw [toList_render_array]
    simp [inside]
  | @object list _ inductionHypothesis =>
    have inside : Printable (commas (list.map memberText)) := by
      apply printable_commas
      intro t member
      obtain ⟨e, place, rfl⟩ := List.mem_map.mp member
      simp [memberText, printable_quoted, inductionHypothesis e place]
    rw [toList_render_object]
    simp [inside]

end Json

end Cairn

import Cairn.Proofs.ClosedPrefixes
import Cairn.Proofs.PointReading
import Cairn.Text.Units

set_option autoImplicit false

/-!
# Closed texts

What a closed text reads as does not depend on the text after it, for all texts of 16-bit units. At
the seam no numeral may run on, and no two halves may meet that make a surrogate pair. The theorem
on characters carries over: points are renamed to characters in so many ways that no two results are
renamed to the same in all of them.
-/

namespace Cairn

namespace Text

variable {a b : List UInt16}

/-- The halves of a surrogate pair meet where two texts are joined. -/
def HalvesMeet (a b : List UInt16) : Prop :=
  (∃ u ∈ a.getLast?, isHighHalf u = true) ∧ ∃ v ∈ b.head?, isLowHalf v = true

theorem HalvesMeet.of_append (front : List UInt16) (nonempty : a ≠ []) :
    HalvesMeet (front ++ a) b ↔ HalvesMeet a b := by
  rw [HalvesMeet, List.getLast?_append_of_ne_nil front nonempty, HalvesMeet]

/-- Where no halves meet, texts are joined point by point. -/
theorem points_append (apart : ¬ HalvesMeet a b) : points (a ++ b) = points a ++ points b := by
  fun_induction points a with
  | case1 => rfl
  | case2 u =>
    cases b with
    | nil => rfl
    | cons v b =>
      have single : (isHighHalf u && isLowHalf v) = false := by
        simpa [HalvesMeet] using apart
      rw [List.singleton_append, points, single]
      rfl
  | case3 u v rest pair inductionHypothesis =>
    have later : ¬ HalvesMeet rest b := by
      by_cases nonempty : rest = []
      · simp [nonempty, HalvesMeet]
      · rwa [← HalvesMeet.of_append [u, v] nonempty]
    rw [List.cons_append, List.cons_append, points, if_pos pair, inductionHypothesis later]
    rfl
  | case4 u v rest single inductionHypothesis =>
    have later : ¬ HalvesMeet (v :: rest) b := by
      rwa [← HalvesMeet.of_append [u] (List.cons_ne_nil v rest)]
    rw [List.cons_append, List.cons_append, points, if_neg single, ← List.cons_append,
      inductionHypothesis later]
    rfl

/-- The units of a text of characters. -/
def encode (s : String) : List UInt16 := (unitsOf s).map Nat.toUInt16

theorem toNat_toUInt16 {n : Nat} (small : n < 0x10000) : n.toUInt16.toNat = n := by
  simp only [Nat.toUInt16_eq, UInt16.toNat_ofNat']
  omega

/-- A unit that is no high half is a point by itself. -/
theorem points_cons {u : UInt16} (whole : isHighHalf u = false) (rest : List UInt16) :
    points (u :: rest) = u.toNat :: points rest := by
  cases rest with
  | nil => rfl
  | cons v rest => rw [points, whole, Bool.false_and, if_neg Bool.false_ne_true]

theorem points_pair {u v : UInt16} (high : isHighHalf u = true) (low : isLowHalf v = true)
    (rest : List UInt16) : points (u :: v :: rest) = joined u v :: points rest := by
  rw [points, high, low, Bool.and_self, if_pos rfl]

theorem points_units (c : Char) (rest : List UInt16) :
    points ((units c).map Nat.toUInt16 ++ rest) = c.toNat :: points rest := by
  have valid : c.toNat < 0xD800 ∨ 0xDFFF < c.toNat ∧ c.toNat < 0x110000 := c.valid
  rw [units]
  generalize c.toNat = n at valid ⊢
  by_cases small : n < 0x10000
  · have whole : isHighHalf n.toUInt16 = false := by
      simp only [isHighHalf, toNat_toUInt16 small, Bool.and_eq_false_iff, decide_eq_false_iff_not]
      omega
    rw [if_pos small, List.map_singleton, List.singleton_append, points_cons whole,
      toNat_toUInt16 small]
  · have high : (0xD800 + (n - 0x10000) / 0x400).toUInt16.toNat = 0xD800 + (n - 0x10000) / 0x400 :=
      toNat_toUInt16 (by omega)
    have low : (0xDC00 + (n - 0x10000) % 0x400).toUInt16.toNat = 0xDC00 + (n - 0x10000) % 0x400 :=
      toNat_toUInt16 (by omega)
    rw [if_neg small, List.map_cons, List.map_singleton, List.cons_append, List.singleton_append]
    generalize (0xD800 + (n - 0x10000) / 0x400).toUInt16 = u at high
    generalize (0xDC00 + (n - 0x10000) % 0x400).toUInt16 = v at low
    have isHigh : isHighHalf u = true := by
      simp only [isHighHalf, high, Bool.and_eq_true, decide_eq_true_eq]
      omega
    have isLow : isLowHalf v = true := by
      simp only [isLowHalf, low, Bool.and_eq_true, decide_eq_true_eq]
      omega
    have whole : joined u v = n := by
      unfold joined
      omega
    rw [points_pair isHigh isLow, whole]

/-- A text of characters has the code points of its characters. -/
theorem points_encode (s : String) : points (encode s) = s.toList.map Char.toNat := by
  rw [encode, unitsOf]
  induction s.toList with
  | nil => rfl
  | cons c cs inductionHypothesis =>
    rw [List.flatMap_cons, List.map_append, points_units, inductionHypothesis, List.map_cons]

end Text

namespace Points

open Cairn.Reading (isNumeric Seam)

variable {isOperator : Nat → Bool} {p q x : Nat}

/-! Marks. -/

/-- A renaming that tells one point from all others and operators from the rest. -/
def mark (isOperator : Nat → Bool) (x p : Nat) : Char :=
  if IsPlain (glyph p) then glyph p
  else Char.ofNat (0x100 + 2 * (decide (p = x)).toNat + (isOperator p).toNat)

def isMarkedOperator (isOperator : Nat → Bool) (c : Char) : Bool :=
  if IsPlain c then isOperator c.toNat else c.toNat % 2 = 1

theorem toNat_glyph (plain : IsPlain (glyph p)) : (glyph p).toNat = p := by
  rw [IsPlain, glyph, Char.toNat_ofNat] at plain
  rw [glyph, Char.toNat_ofNat]
  split at plain
  next valid => exact if_pos valid
  next => exact absurd plain.1 (Nat.lt_irrefl 0)

theorem toNat_mark (other : ¬ IsPlain (glyph p)) :
    (mark isOperator x p).toNat = 0x100 + 2 * (decide (p = x)).toNat + (isOperator p).toNat := by
  rw [mark, if_neg other]
  cases decide (p = x) <;> cases isOperator p <;> rfl

theorem mark_of_plain (plain : IsPlain (glyph p)) : mark isOperator x p = glyph p := if_pos plain

theorem not_isPlain_mark (other : ¬ IsPlain (glyph p)) : ¬ IsPlain (mark isOperator x p) := by
  rw [IsPlain, toNat_mark other]
  omega

theorem renames_mark (isOperator : Nat → Bool) (x : Nat) :
    Renames isOperator (isMarkedOperator isOperator) (mark isOperator x) where
  plain p := by
    by_cases plain : IsPlain (glyph p)
    · exact .inl (mark_of_plain plain)
    · exact .inr ⟨not_isPlain_mark plain, plain⟩
  operator p := by
    by_cases plain : IsPlain (glyph p)
    · rw [mark_of_plain plain, isMarkedOperator, if_pos plain, toNat_glyph plain]
    · rw [isMarkedOperator, if_neg (not_isPlain_mark plain), toNat_mark plain]
      cases isOperator p <;> cases decide (p = x) <;> rfl

/-- Its own mark tells a point from any other. -/
theorem eq_of_mark (same : ∀ x, mark isOperator x p = mark isOperator x q) : p = q := by
  by_cases plain : IsPlain (glyph p)
  · -- A plain point is its own mark, and only plain points have plain marks.
    have plain' : IsPlain (glyph q) := by
      by_contra other
      have marked : ¬ IsPlain (mark isOperator p q) := not_isPlain_mark other
      rw [← same, mark_of_plain plain] at marked
      exact marked plain
    rw [← toNat_glyph plain, ← toNat_glyph plain', ← mark_of_plain plain, same p,
      mark_of_plain plain']
  · have other : ¬ IsPlain (glyph q) := by
      intro plain'
      have marked : ¬ IsPlain (mark isOperator p p) := not_isPlain_mark plain
      rw [same, mark_of_plain plain'] at marked
      exact marked plain'
    -- Of the marks made for `p`, that of `p` is the only one with the second bit set.
    have codes := congrArg Char.toNat (same p)
    rw [toNat_mark plain, toNat_mark other, decide_eq_true rfl] at codes
    by_contra different
    rw [decide_eq_false (Ne.symm different)] at codes
    have small := Bool.toNat_le (isOperator q)
    simp only [Bool.toNat_true, Bool.toNat_false] at codes
    omega

theorem eq_of_map_mark {a b : List Nat}
    (same : ∀ x, a.map (mark isOperator x) = b.map (mark isOperator x)) : a = b := by
  induction a generalizing b with
  | nil =>
    cases b with
    | nil => rfl
    | cons q b => cases same 0
  | cons p a inductionHypothesis =>
    cases b with
    | nil => cases same 0
    | cons q b =>
      obtain rfl : p = q := eq_of_mark fun x => (List.cons.inj (same x)).1
      rw [inductionHypothesis fun x => (List.cons.inj (same x)).2]

mutual

theorem eq_of_toValue_mark {t u : Token}
    (same : ∀ x, t.toValue (mark isOperator x) = u.toValue (mark isOperator x)) : t = u := by
  cases t with
  | string text =>
    cases u with
    | string text' =>
      exact congrArg _ (eq_of_map_mark fun x =>
        String.ofList_injective (Value.string.inj (same x)))
    | _ => cases same 0
  | number a =>
    cases u with
    | number b => exact congrArg _ (Value.number.inj (same 0))
    | _ => cases same 0
  | function name =>
    cases u with
    | function name' =>
      exact congrArg _ (eq_of_map_mark fun x =>
        String.ofList_injective (Value.function.inj (same x)))
    | _ => cases same 0
  | block body =>
    cases u with
    | block body' => exact congrArg _ (eq_of_toValues_mark fun x => Value.block.inj (same x))
    | _ => cases same 0
  | operator symbol =>
    cases u with
    | operator symbol' =>
      exact congrArg _ (eq_of_mark fun x => String.singleton_inj.mp (Value.operator.inj (same x)))
    | _ => cases same 0
  | boolean b =>
    cases u with
    | boolean b' => exact congrArg _ (Value.boolean.inj (same 0))
    | _ => cases same 0
termination_by structural t

theorem eq_of_toValues_mark {ts us : List Token}
    (same : ∀ x, toValues (mark isOperator x) ts = toValues (mark isOperator x) us) : ts = us := by
  cases ts with
  | nil =>
    cases us with
    | nil => rfl
    | cons u us => cases same 0
  | cons t ts =>
    cases us with
    | nil => cases same 0
    | cons u us =>
      obtain rfl : t = u := eq_of_toValue_mark fun x => (List.cons.inj (same x)).1
      rw [eq_of_toValues_mark fun x => (List.cons.inj (same x)).2]
termination_by structural ts

end

theorem eq_of_toCause_mark {a b : Problem}
    (same : ∀ x, a.toCause (mark isOperator x) = b.toCause (mark isOperator x)) : a = b := by
  cases a with
  | badNumber text =>
    cases b with
    | badNumber text' =>
      exact congrArg _ (eq_of_map_mark fun x =>
        String.ofList_injective (Cause.badNumber.inj (same x)))
    | unknownSymbol => cases same 0
  | unknownSymbol symbol =>
    cases b with
    | badNumber => cases same 0
    | unknownSymbol symbol' =>
      have quoted := fun x => Cause.unknownFunction.inj (same x)
      simp only [String.append_left_inj, String.append_right_inj, String.singleton_inj] at quoted
      exact congrArg _ (eq_of_mark quoted)

/-- What is renamed to the same by all marks is the same. -/
theorem eq_of_renamed (isOperator : Nat → Bool) {r r' : Except ReadError Reading}
    (same : ∀ x, renamed (mark isOperator x) (Reading.rename (mark isOperator x)) r =
      renamed (mark isOperator x) (Reading.rename (mark isOperator x)) r') : r = r' := by
  cases r with
  | ok a =>
    cases r' with
    | error => cases same 0
    | ok b =>
      have parts := fun x => Cairn.Reading.mk.inj (Except.ok.inj (same x))
      exact congrArg _ (Reading.ext (parts 0).1 (eq_of_toValues_mark fun x => (parts x).2))
  | error a =>
    cases r' with
    | ok => cases same 0
    | error b =>
      have parts := fun x => Cairn.ReadError.mk.inj (Except.error.inj (same x))
      exact congrArg _ (ReadError.ext (eq_of_toCause_mark fun x => (parts x).1) (parts 0).2)

/-! Reading on after a closed text. -/

theorem ofPoints_append_of_closed {a b : List Nat} {tokens : List Token}
    (closed : ofPoints isOperator (a ++ [0x7D]) = .ok ⟨a.length, tokens⟩)
    (seam : Seam (a.map glyph) (b.map glyph)) :
    ofPoints isOperator (a ++ b) =
      match ofPoints isOperator b with
      | .ok r => .ok ⟨a.length + r.cursor, tokens ++ r.tokens⟩
      | .error e => .error ⟨e.problem, a.length + e.offset⟩ := by
  refine eq_of_renamed isOperator fun x => ?_
  -- Read the texts that the mark makes of the points.
  have renames := renames_mark isOperator x
  generalize mark isOperator x = ρ at renames ⊢
  have brace : ρ 0x7D = '\x7d' := (renames.eq_iff (by decide) _).mpr rfl
  have closed' : Cairn.read (isMarkedOperator isOperator) (String.ofList (a.map ρ) ++ "\x7d") =
      .ok ⟨(String.ofList (a.map ρ)).length, toValues ρ tokens⟩ := by
    have text : (String.ofList (a.map ρ) ++ "\x7d").toList = (a ++ [0x7D]).map ρ := by
      simp [brace]
    rw [Cairn.read, text, ofPoints_map renames, closed]
    simp [renamed, Reading.rename]
  have seam' : Seam (String.ofList (a.map ρ)).toList (String.ofList (b.map ρ)).toList := by
    simpa [Seam, List.getLast?_map, List.head?_map, renames.isNumeric_eq] using seam
  have read := Cairn.read_append_of_closed closed' seam'
  rw [Cairn.read, Cairn.read, ← String.ofList_append, String.toList_ofList, String.toList_ofList,
    ← List.map_append, ofPoints_map renames, ofPoints_map renames] at read
  rw [read]
  cases ofPoints isOperator b <;>
    simp [renamed, Reading.rename, ReadError.rename, toValues_append]

/-- On a text of characters the reader on points is the reader on characters. -/
theorem read_encode (isOperator : Char → Bool) (s : String) :
    Cairn.read isOperator s =
      renamed glyph (Reading.rename glyph) (read (isOperator <| glyph ·) (Text.encode s)) := by
  have renames : Renames (isOperator <| glyph ·) isOperator glyph :=
    ⟨fun _ => .inl rfl, fun _ => rfl⟩
  have whole : (s.toList.map Char.toNat).map glyph = s.toList := by
    simp [Function.comp_def, glyph]
  rw [read, Text.points_encode, ← ofPoints_map renames, whole, Cairn.read]

/-- Reading goes on after a closed text as it starts at the beginning of a text, at offsets that are
further on, if neither a numeral nor a surrogate pair runs over the seam. -/
theorem read_goes_on_after_closed {a b : List UInt16} {tokens : List Token}
    (closed : read isOperator (a ++ [0x7D]) = .ok ⟨(Text.points a).length, tokens⟩)
    (seam : Seam ((Text.points a).map glyph) ((Text.points b).map glyph))
    (apart : ¬ Text.HalvesMeet a b) :
    read isOperator (a ++ b) =
      match read isOperator b with
      | .ok r => .ok ⟨(Text.points a).length + r.cursor, tokens ++ r.tokens⟩
      | .error e => .error ⟨e.problem, (Text.points a).length + e.offset⟩ := by
  have brace : ¬ Text.HalvesMeet a [0x7D] := by simp [Text.HalvesMeet, Text.isLowHalf]
  rw [read, Text.points_append brace] at closed
  rw [read, read, Text.points_append apart]
  exact ofPoints_append_of_closed closed seam

/-- The two halves of a pair, and a plus. -/
def isSplit (p : Nat) : Bool := p = 0xD83D || p = 0xDE00 || p = '+'.toNat

/-- A block with a brace in a string, a numeral and a half of a pair. -/
def closedText : List UInt16 := Text.encode "\x7b\"\x7d\"+\x7d 12" ++ [0xD83D]

/-- A text that fails inside a block. -/
def failingText : List UInt16 := Text.encode " \x7b" ++ [0xDE00, 0x3F]

theorem read_goes_on_after_closed_half :
    (∃ tokens, read isSplit (closedText ++ [0x7D]) =
      .ok ⟨(Text.points closedText).length, tokens⟩) ∧
    Seam ((Text.points closedText).map glyph) ((Text.points failingText).map glyph) ∧
    ¬ Text.HalvesMeet closedText failingText ∧
    read isSplit (closedText ++ failingText) = .error ⟨.unknownSymbol 0x3F, 13⟩ := by
  have closed : ∃ tokens, read isSplit (closedText ++ [0x7D]) =
      .ok ⟨(Text.points closedText).length, tokens⟩ := ⟨_, rfl⟩
  have seam : Seam ((Text.points closedText).map glyph) ((Text.points failingText).map glyph) := by
    rintro _ ⟨⟩ d _ numeric
    cases numeric
  have apart : ¬ Text.HalvesMeet closedText failingText := by
    rintro ⟨-, v, ⟨⟩, low⟩
    cases low
  refine ⟨closed, seam, apart, ?_⟩
  obtain ⟨tokens, closed⟩ := closed
  exact read_goes_on_after_closed closed seam apart

/-- Two halves that meet are read as one point, which is neither of the operators that they are. -/
theorem halves_that_meet_are_one_point :
    read isSplit ([0xD83D] ++ [0x7D]) = .ok ⟨(Text.points [0xD83D]).length, [.operator 0xD83D]⟩ ∧
    Seam ((Text.points [0xD83D]).map glyph) ((Text.points [0xDE00, 0x3F]).map glyph) ∧
    read isSplit [0xDE00, 0x3F] = .error ⟨.unknownSymbol 0x3F, 1⟩ ∧
    read isSplit ([0xD83D] ++ [0xDE00, 0x3F]) = .error ⟨.unknownSymbol 0x1F600, 0⟩ := by
  refine ⟨rfl, ?_, rfl, rfl⟩
  rintro _ ⟨⟩ d _ numeric
  cases numeric

end Points

end Cairn

import Cairn.Display
import Mathlib

set_option autoImplicit false

/-!
# The layout on a terminal

The coloured cells and the depths under them, taken apart into what is visible and the codes of
colours. As many cells are shown as leave room for the mark of a cut, and the two lines advance by
the same columns from cell to cell.
-/

namespace Cairn

namespace Text

/-! Widths count units, and joined texts have the units of both. -/

@[simp] theorem width_append (s t : String) : width (s ++ t) = width s + width t := by
  simp [width, unitsOf]

theorem width_ofList_of_basic {cs : List Char} (basic : ∀ c ∈ cs, c.toNat < 0x10000) :
    width (String.ofList cs) = cs.length := by
  have single : ∀ c ∈ cs, (units c).length = 1 := by
    intro c member
    rw [units, if_pos (basic c member)]
    rfl
  rw [width, unitsOf, String.toList_ofList, List.length_flatMap, List.map_congr_left single]
  simp

@[simp] theorem width_blanks (n : Nat) : width (blanks n) = n := by
  rw [blanks, width_ofList_of_basic, List.length_replicate]
  intro c member
  rw [List.eq_of_mem_replicate member]
  decide

@[simp] theorem width_padLeft (s : String) (n : Nat) : width (padLeft s n) = max n (width s) := by
  rw [padLeft, width_append, width_blanks]
  omega

/-- A number takes a column for each of its digits. -/
theorem width_toString_le {n k : Nat} (positive : 0 < k) (below : n < 10 ^ k) :
    width (toString n) ≤ k := by
  rw [Nat.toString_eq_ofList_toDigits, width_ofList_of_basic]
  · exact (Nat.length_toDigits_le_iff (by decide) positive).mpr below
  · intro c member
    have digit := Nat.isDigit_of_mem_toDigits (by decide) (by decide) member
    simp only [Char.isDigit, Bool.and_eq_true, decide_eq_true_eq, UInt32.le_iff_toNat_le] at digit
    have high := digit.2
    simp at high
    omega

end Text

namespace Display

/-- A part of a line: a text in a colour, or as it is. -/
inductive Span where
  | painted (colour : Colour) (text : String)
  | plain (text : String)

namespace Span

def written : Span → String
  | .painted colour text => paint colour text
  | .plain text => text

def text : Span → String
  | .painted _ text | .plain text => text

end Span

/-- A line with its colour codes. -/
def written (spans : List Span) : String := String.join (spans.map Span.written)

/-- A line as it is seen, its colour codes aside. -/
def visible (spans : List Span) : String := String.join (spans.map Span.text)

/-- A cell as it is seen. -/
def bareCell (v : Value) : String := "[" ++ Text.padLeft v.render 11 ++ "]"

def cellSpans (isFunction : String → Bool) (v : Value) : List Span :=
  [.painted .grey "[", .painted (colourOf isFunction v) (cellText v), .painted .grey "]"]

/-- The mark of a line that is cut. -/
def cutMark (cut : Bool) : List Span := if cut then [.plain " »"] else []

variable {width used : Nat} {stack : List Value}

theorem written_cutMark (cut : Bool) : written (cutMark cut) = if cut then " »" else "" := by
  cases cut <;> rfl

theorem visible_cutMark (cut : Bool) : visible (cutMark cut) = if cut then " »" else "" := by
  cases cut <;> rfl

@[simp] theorem written_append (spans others : List Span) :
    written (spans ++ others) = written spans ++ written others := by
  simp [written]

@[simp] theorem visible_append (spans others : List Span) :
    visible (spans ++ others) = visible spans ++ visible others := by
  simp [visible]

theorem written_cells (isFunction : String → Bool) (stack : List Value) :
    written (stack.flatMap (cellSpans isFunction)) =
      String.join (stack.map (cell isFunction)) := by
  induction stack with
  | nil => rfl
  | cons v rest inductionHypothesis =>
    have first : written (cellSpans isFunction v) = cell isFunction v := by
      simp [written, cellSpans, Span.written, cell, String.append_assoc]
    rw [List.flatMap_cons, written_append, inductionHypothesis, first, List.map_cons,
      String.join_cons]

theorem visible_cells (isFunction : String → Bool) (stack : List Value) :
    visible (stack.flatMap (cellSpans isFunction)) = String.join (stack.map bareCell) := by
  induction stack with
  | nil => rfl
  | cons v rest inductionHypothesis =>
    have first : visible (cellSpans isFunction v) = bareCell v := by
      simp [visible, cellSpans, Span.text, bareCell, cellText, cellWidth, String.append_assoc]
    rw [List.flatMap_cons, visible_append, inductionHypothesis, first, List.map_cons,
      String.join_cons]

/-! Columns. -/

theorem columns_eq (v : Value) : columns v = max 11 (Text.width v.render) + 2 := by
  rw [columns, cellText, Text.width_padLeft, cellWidth]

theorem width_bareCell (v : Value) : Text.width (bareCell v) = columns v := by
  have bracket : Text.width "[" = 1 ∧ Text.width "]" = 1 := ⟨rfl, rfl⟩
  rw [bareCell, Text.width_append, Text.width_append, Text.width_padLeft, bracket.1, bracket.2,
    columns_eq]
  omega

theorem width_cells (stack : List Value) :
    Text.width (String.join (stack.map bareCell)) = (stack.map columns).sum := by
  induction stack with
  | nil => rfl
  | cons v rest inductionHypothesis =>
    rw [List.map_cons, String.join_cons, Text.width_append, width_bareCell, inductionHypothesis,
      List.map_cons, List.sum_cons]

/-- The cells taken are the most whose columns leave room for the mark. -/
theorem fitting_eq (room : used + 1 < width) (stack : List Value) :
    ∃ k, fitting width used stack = (stack.take k, decide (k < stack.length)) ∧
      IsGreatest {k | k ≤ stack.length ∧ used + ((stack.take k).map columns).sum + 1 < width}
        k := by
  induction stack generalizing used with
  | nil =>
    refine ⟨0, rfl, ⟨Nat.le_refl 0, by simpa using room⟩, ?_⟩
    rintro k ⟨short, -⟩
    exact short
  | cons v rest inductionHypothesis =>
    by_cases full : width ≤ used + columns v + 1
    · refine ⟨0, by simp [fitting, full], ⟨Nat.zero_le _, by simpa using room⟩, ?_⟩
      rintro k ⟨-, fits⟩
      cases k with
      | zero => exact Nat.le_refl 0
      | succ k =>
        rw [List.take_succ_cons, List.map_cons, List.sum_cons] at fits
        omega
    · have roomAfter : used + columns v + 1 < width := by omega
      obtain ⟨k, taken, ⟨short, fits⟩, greatest⟩ := inductionHypothesis roomAfter
      refine ⟨k + 1, ?_, ⟨?_, ?_⟩, ?_⟩
      · simp [fitting, full, taken]
      · exact Nat.succ_le_succ short
      · rw [List.take_succ_cons, List.map_cons, List.sum_cons]
        omega
      · rintro j ⟨shortJ, fitsJ⟩
        cases j with
        | zero => exact Nat.zero_le _
        | succ j =>
          rw [List.take_succ_cons, List.map_cons, List.sum_cons] at fitsJ
          exact Nat.succ_le_succ (greatest ⟨Nat.le_of_succ_le_succ shortJ, by omega⟩)

/-! Depths. -/

theorem depths_append (depth : Nat) (front back : List Value) :
    depths depth (front ++ back) = depths depth front ++ depths (depth + front.length) back := by
  induction front generalizing depth with
  | nil => simp [depths]
  | cons v front inductionHypothesis =>
    rw [List.cons_append, depths, depths, inductionHypothesis, String.append_assoc,
      List.length_cons, Nat.add_right_comm, Nat.add_assoc]

/-- A depth of at most thirteen digits fits under every cell. -/
theorem width_depths {depth : Nat} (few : depth + stack.length ≤ 10 ^ 13) :
    Text.width (depths depth stack) = (stack.map columns).sum := by
  induction stack generalizing depth with
  | nil => rfl
  | cons v rest inductionHypothesis =>
    rw [List.length_cons] at few
    have narrow : Text.width (toString depth) ≤ 13 := Text.width_toString_le (by decide) (by omega)
    have wide := columns_eq v
    rw [depths, Text.width_append, Text.width_padLeft, inductionHypothesis (by omega),
      List.map_cons, List.sum_cons]
    omega

/-- A stack up to a place, the value there, and the values behind it as far as they are shown. -/
theorem take_eq_append {i k : Nat} (inside : i < k) (short : k ≤ stack.length) :
    ∃ v rest, stack.take (i + 1) = stack.take i ++ [v] ∧
      stack.take k = stack.take (i + 1) ++ rest := by
  refine ⟨stack[i], (stack.take k).drop (i + 1), ?_, ?_⟩
  · rw [List.take_append_getElem]
  · have parts := List.take_append_drop (i + 1) (stack.take k)
    rw [List.take_take, Nat.min_eq_left inside] at parts
    exact parts.symm

/-- Where the cell of depth `i` ends. -/
theorem cell_ends {i k : Nat} (inside : i < k) (short : k ≤ stack.length) (mark : String) :
    ∃ front back,
      String.join ((stack.take k).map bareCell) ++ mark = front ++ "]" ++ back ∧
      front ++ "]" = String.join ((stack.take (i + 1)).map bareCell) ∧
      Text.width (front ++ "]") = ((stack.take (i + 1)).map columns).sum := by
  obtain ⟨v, rest, next, parts⟩ := take_eq_append inside short
  have front : String.join ((stack.take i).map bareCell) ++ ("[" ++ Text.padLeft v.render 11) ++
      "]" = String.join ((stack.take (i + 1)).map bareCell) := by
    rw [next, List.map_append, String.join_append]
    simp [bareCell, String.append_assoc]
  refine ⟨_, String.join (rest.map bareCell) ++ mark, ?_, front, ?_⟩
  · rw [front, parts, List.map_append, String.join_append, String.append_assoc]
  · rw [front, width_cells]

/-- What stands under the cell of depth `i`. -/
theorem depth_ends {i k : Nat} (inside : i < k) (short : k ≤ stack.length)
    (few : stack.length < 10 ^ 13) :
    ∃ left gap right,
      depths 0 (stack.take k) = left ++ Text.blanks gap ++ toString i ++ right ∧
      Text.width left = ((stack.take i).map columns).sum ∧
      Text.width (left ++ Text.blanks gap ++ toString i) =
        ((stack.take (i + 1)).map columns).sum := by
  obtain ⟨v, rest, next, parts⟩ := take_eq_append inside short
  have length : (stack.take i).length = i := List.length_take_of_le (by omega)
  have upTo : depths 0 (stack.take i) ++ Text.blanks (columns v - Text.width (toString i)) ++
      toString i = depths 0 (stack.take (i + 1)) := by
    rw [next, depths_append, length, Nat.zero_add]
    simp [depths, Text.padLeft, String.append_assoc]
  refine ⟨depths 0 (stack.take i), columns v - Text.width (toString i), depths (i + 1) rest,
    ?_, ?_, ?_⟩
  · have lengthNext : (stack.take (i + 1)).length = i + 1 := List.length_take_of_le (by omega)
    rw [upTo, parts, depths_append, lengthNext, Nat.zero_add]
  · apply width_depths
    omega
  · rw [upTo]
    apply width_depths
    rw [List.length_take]
    omega

/-- On a terminal as many cells are shown, from the top, as end before the last column. Each depth
ends under the closing bracket of its cell. -/
theorem human_layout_fits (isFunction : String → Bool) {stack : List Value} {width : Nat}
    (nonempty : stack ≠ []) (few : stack.length < 10 ^ 13) (wide : 2 ≤ width) :
    let cellColumns := fun v : Value => max 11 (Text.width v.render) + 2
    let upTo := fun i => ((stack.take i).map cellColumns).sum
    ∃ k, IsGreatest {k | k ≤ stack.length ∧ upTo k + 1 < width} k ∧
      ∃ first second : List Span,
        Display.stack isFunction .human width stack = [written first, written second] ∧
        visible first = String.join ((stack.take k).map bareCell) ++
          (if k < stack.length then " »" else "") ∧
        Text.width (visible first) ≤ width ∧
        Text.width (visible second) = upTo k ∧
        ∀ i < k,
          (∃ front back, visible first = front ++ "]" ++ back ∧
            front ++ "]" = String.join ((stack.take (i + 1)).map bareCell) ∧
            Text.width (front ++ "]") = upTo (i + 1)) ∧
          ∃ left gap right, visible second = left ++ Text.blanks gap ++ toString i ++ right ∧
            Text.width left = upTo i ∧
            Text.width (left ++ Text.blanks gap ++ toString i) = upTo (i + 1) := by
  intro cellColumns upTo
  have same : cellColumns = columns := funext fun v => (columns_eq v).symm
  have room : 0 + 1 < width := by omega
  obtain ⟨k, taken, greatest⟩ := fitting_eq room stack
  simp only [Nat.zero_add] at greatest
  have short : k ≤ stack.length := greatest.1.1
  have fits : ((stack.take k).map columns).sum + 1 < width := greatest.1.2
  have lastWidth : Text.width (visible (cutMark (decide (k < stack.length)))) ≤ 2 := by
    rw [visible_cutMark]
    split <;> decide
  have depthsWidth : Text.width (depths 0 (stack.take k)) = ((stack.take k).map columns).sum := by
    apply width_depths
    rw [List.length_take]
    omega
  have secondText : visible [.painted .grey (depths 0 (stack.take k))] =
      depths 0 (stack.take k) := by
    simp [visible, Span.text]
  simp only [upTo, same]
  refine ⟨k, greatest,
    (stack.take k).flatMap (cellSpans isFunction) ++ cutMark (decide (k < stack.length)),
    [.painted .grey (depths 0 (stack.take k))], ?_, ?_, ?_, ?_, ?_⟩
  · rw [written_append, written_cells, written_cutMark, Display.stack, human,
      if_neg (by simpa using nonempty), taken]
    simp [written, Span.written]
  · rw [visible_append, visible_cells, visible_cutMark]
    simp only [decide_eq_true_eq]
  · rw [visible_append, Text.width_append, visible_cells, width_cells]
    omega
  · rw [secondText, depthsWidth]
  · intro i inside
    rw [visible_append, visible_cells, secondText]
    exact ⟨cell_ends inside short _, depth_ends inside short few⟩

/-- A long name and two boolean values, on a terminal of forty columns. -/
theorem human_layout_fits_cut :
    let stack : List Value := [.function "a rather long name", .boolean true, .boolean false]
    stack ≠ [] ∧ stack.length < 10 ^ 13 ∧ 2 ≤ 40 ∧
    ∃ k, IsGreatest {k | k ≤ stack.length ∧ ((stack.take k).map fun v : Value =>
        max 11 (Text.width v.render) + 2).sum + 1 < 40} k ∧
      ∃ first second : List Span,
        Display.stack (fun _ => false) .human 40 stack = [written first, written second] ∧
        Text.width (visible first) ≤ 40 := by
  intro stack
  obtain ⟨k, greatest, first, second, lines, -, fits, -⟩ :=
    human_layout_fits (fun _ => false) (show stack ≠ [] by simp [stack])
      (show stack.length < 10 ^ 13 by decide) (show 2 ≤ 40 by decide)
  exact ⟨by simp [stack], by decide, by decide, k, greatest, first, second, lines, fits⟩

end Display

end Cairn

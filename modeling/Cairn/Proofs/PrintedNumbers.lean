import Cairn.Proofs.Loops
import Cairn.Proofs.NumeralGrammar
import Cairn.Proofs.SignedZeros
import Cairn.Proofs.StackEffects
import Mathlib

set_option autoImplicit false

/-!
# Printed numbers

A number that is printed and read again is the same number, but that zero comes back without its
sign. The word that reads numbers takes the texts that the reader takes within parentheses: no
numeral has a closing parenthesis in it.
-/

namespace Cairn

namespace Number

variable {cs : List Char}

/-- The text of a number is a numeral for it, up to the sign of zero. -/
theorem numeral?_text (x : Float) : numeral? (text x) = some (plainZero x) := by
  rw [numeral?, text_eq_exactText, numeralOfChars?_exactText]

theorem Digits.closer_not_mem (digits : Digits cs) : ')' ∉ cs := fun member =>
  absurd (digits ')' member) (by decide)

theorem IsSign.closer_not_mem {negative : Bool} (isSign : IsSign negative cs) : ')' ∉ cs := by
  cases isSign <;> decide

theorem IsMantissa.closer_not_mem (isMantissa : IsMantissa cs) : ')' ∉ cs := by
  cases isMantissa with
  | whole nonempty digits => exact digits.closer_not_mem
  | point nonempty digits fraction => simp [digits.closer_not_mem, fraction.closer_not_mem]
  | leadingPoint nonempty fraction => simp [fraction.closer_not_mem]

theorem IsExponent.closer_not_mem (isExponent : IsExponent cs) : ')' ∉ cs := by
  cases isExponent with
  | absent => simp
  | present mark isSign nonempty digits =>
    rcases mark with rfl | rfl <;> simp [isSign.closer_not_mem, digits.closer_not_mem]

theorem Spells.closer_not_mem {word : String} (spells : Spells word cs)
    (free : ')' ∉ word.toList) : ')' ∉ cs := by
  intro member
  have lower : ')'.toLower ∈ cs.map Char.toLower := List.mem_map_of_mem member
  rw [spells] at lower
  exact free lower

theorem IsNumeral.closer_not_mem (isNumeral : IsNumeral cs) : ')' ∉ cs := by
  obtain ⟨isSign, isUnsigned⟩ := isNumeral
  rw [List.mem_append, not_or]
  refine ⟨isSign.closer_not_mem, ?_⟩
  cases isUnsigned with
  | word known spells =>
    apply spells.closer_not_mem
    simp only [List.mem_cons, List.not_mem_nil, or_false] at known
    rcases known with rfl | rfl | rfl <;> decide
  | decimal isMantissa isExponent =>
    rw [List.mem_append, not_or]
    exact ⟨isMantissa.closer_not_mem, isExponent.closer_not_mem⟩

theorem closer_not_mem_of_numeral? {text : String} {x : Float} (found : numeral? text = some x) :
    ')' ∉ text.toList := by
  have isNumeral : IsNumeral (text.toList.filter (· ≠ '_')) :=
    isSome_numeralOfChars?_iff.mp (Option.isSome_of_eq_some found)
  exact fun member => isNumeral.closer_not_mem (List.mem_filter.mpr ⟨member, by decide⟩)

end Number

namespace Reading

variable {isOperator : Char → Bool}

/-- What stands in parentheses is read as one numeral. -/
theorem read_parenthesized {text : String} (free : ')' ∉ text.toList) :
    read isOperator ("(" ++ text ++ ")") =
      match Number.numeral? text with
      | some x => .ok ⟨("(" ++ text ++ ")").length, [.number x]⟩
      | none => .error ⟨.badNumber text, ("(" ++ text ++ ")").length⟩ := by
  have shape : ("(" ++ text ++ ")").toList = '(' :: (text.toList ++ [')']) := by simp
  have length : 0 + 1 + text.toList.length + 1 = ("(" ++ text ++ ")").length := by
    rw [← String.length_toList, shape, List.length_cons, List.length_append]
    simp
    omega
  refine read_of_lexeme shape ?_
  rw [lexeme, if_neg (by decide), if_pos rfl, delimited_append free]
  simp only [length]

/-- A text stands for a single token in parentheses if and only if it is a numeral. -/
theorem read_parenthesized_eq_single_iff {text : String} (free : ')' ∉ text.toList)
    {token : Value} :
    (∃ reading, read isOperator ("(" ++ text ++ ")") = .ok reading ∧ reading.tokens = [token]) ↔
      ∃ x, Number.numeral? text = some x ∧ token = .number x := by
  rw [read_parenthesized free]
  cases Number.numeral? text with
  | none => simp
  | some x => simp [eq_comm]

end Reading

namespace Machine

open Number Reading StackEffect

variable {m after : Machine} {name symbol runner : String} {effect : StackEffect}
  {word : Routine Unit} {x : Float} {text : String} {below : List Value}

theorem trace_withStack (m : Machine) (stack : List Value) (message : String) :
    ({ m with stack } : Machine).trace message = { m.trace message with stack } := by
  cases tracing : m.tracing <;> simp [trace, tracing]

/-- A call by a word that runs the name of a function. -/
theorem Follows.application_succeeds_iff (follows : Follows effect word)
    (registered : m.functions.find? name = some word)
    (known : m.operators.find? symbol = some runner)
    (runs : m.functions.find? runner = some Core.exec) :
    Succeeds [.function name, .operator symbol] m after ↔
      effect.apply ((m.trace ("call " ++ runner)).trace ("call " ++ name)) = .ok after := by
  have enters : Enters Core.exec [.function name] (Routine.invoke (.function name)) :=
    ⟨by simp [Literals], fun _ _ _ => rfl⟩
  have known' : (m.pushAll [.function name]).operators.find? symbol = some runner := known
  have runs' : (m.pushAll [.function name]).functions.find? runner = some Core.exec := runs
  have invoked : ∀ before, Settles (perform · (Routine.invoke (.function name))) before (.ok ())
      after ↔ Settles (invoke · (.function name)) before (.ok ()) after := by
    intro before
    simp only [Settles, perform, runWith_invoke, invoke]
  rw [Succeeds, ← List.singleton_append, settles_application_iff enters.plain,
    evaluate_operator_succeeds_iff runs' known', enters.settles_iff, invoked,
    follows.invoke_succeeds_iff (by rwa [trace_functions])]

/-- The effect of printing the value on top. -/
def showsValue : StackEffect := replaces [.value] fun (v, _) => [.string v.display]

theorem follows_str : Follows showsValue Core.str :=
  follows_pop_bind .value fun _ _ _ _ => rfl

theorem showsValue_apply (stack : m.stack = .number x :: below) :
    showsValue.apply m = .ok { m with stack := .string (Number.text x) :: below } := by
  simp only [showsValue, StackEffect.apply, replaces, stack]
  rfl

theorem readsNumber_apply (stack : m.stack = .string text :: below) :
    readsNumber.apply m = .ok after ↔
      ∃ x, numeral? text = some x ∧ { m with stack := .number x :: below } = after := by
  simp only [StackEffect.apply, readsNumber, Demand.receiveAll, Demand.receive, stack]
  cases found : numeral? text <;> simp [found, Except.map, push]

/-- The word that prints succeeds on a number. -/
theorem str_succeeds_iff (prints : m.functions.find? "str" = some Core.str)
    (stack : m.stack = .number x :: below) :
    Settles (invoke · (.function "str")) m (.ok ()) after ↔
      { m.trace "call str" with stack := .string (Number.text x) :: below } = after := by
  have traced : (m.trace ("call " ++ "str")).stack = .number x :: below := by
    rw [trace_stack, stack]
  rw [follows_str.invoke_succeeds_iff prints, showsValue_apply traced, Except.ok.injEq]
  exact Iff.rfl

/-- The word that reads numbers succeeds on the numerals. -/
theorem num_succeeds_iff (parses : m.functions.find? "num" = some Core.num)
    (stack : m.stack = .string text :: below) :
    Settles (invoke · (.function "num")) m (.ok ()) after ↔
      ∃ x, numeral? text = some x ∧
        { m.trace "call num" with stack := .number x :: below } = after := by
  rw [follows_num.invoke_succeeds_iff parses]
  exact readsNumber_apply (by rw [trace_stack, stack])

/-- A number that is printed and read again by calls from outside. -/
theorem str_num_settles_iff (prints : m.functions.find? "str" = some Core.str)
    (parses : m.functions.find? "num" = some Core.num) (stack : m.stack = .number x :: below) :
    (∃ printed, Settles (invoke · (.function "str")) m (.ok ()) printed ∧
      Settles (invoke · (.function "num")) printed (.ok ()) after) ↔
    { (m.trace "call str").trace "call num" with
      stack := .number (plainZero x) :: below } = after := by
  let printed : Machine :=
    { m.trace "call str" with stack := .string (Number.text x) :: below }
  have parses' : printed.functions.find? "num" = some Core.num := by
    simpa only [printed, trace_functions] using parses
  have readBack : Settles (invoke · (.function "num")) printed (.ok ()) after ↔
      { (m.trace "call str").trace "call num" with
        stack := .number (plainZero x) :: below } = after := by
    rw [num_succeeds_iff parses' rfl, numeral?_text, trace_withStack]
    simp only [Option.some.injEq, exists_eq_left']
  simp only [str_succeeds_iff prints stack, exists_eq_left', ← readBack, printed]

/-- The same by tokens, which call the words by name. -/
theorem str_num_succeeds (prints : m.functions.find? "str" = some Core.str)
    (parses : m.functions.find? "num" = some Core.num) (runner : m.Binds symbol Core.exec)
    (stack : m.stack = .number x :: below) :
    ∃ after, Succeeds [.function "str", .operator symbol, .function "num", .operator symbol] m
        after ∧ after.Alike { m with stack := .number (plainZero x) :: below } := by
  obtain ⟨runner, known, runs⟩ := runner
  let printed : Machine := { (m.trace ("call " ++ runner)).trace ("call " ++ "str") with
    stack := .string (Number.text x) :: below }
  let after : Machine := { (printed.trace ("call " ++ runner)).trace ("call " ++ "num") with
    stack := .number (plainZero x) :: below }
  have shown : Succeeds [.function "str", .operator symbol] m printed := by
    rw [follows_str.application_succeeds_iff prints known runs]
    exact showsValue_apply (by simp [stack])
  have readBack : Succeeds [.function "num", .operator symbol] printed after := by
    have parses' : printed.functions.find? "num" = some Core.num := by simpa [printed] using parses
    have known' : printed.operators.find? symbol = some runner := by simpa [printed] using known
    have runs' : printed.functions.find? runner = some Core.exec := by simpa [printed] using runs
    rw [follows_num.application_succeeds_iff parses' known' runs']
    exact (readsNumber_apply (by simp [printed])).mpr ⟨_, numeral?_text x, rfl⟩
  refine ⟨after, succeeds_append_iff.mpr ⟨printed, shown, readBack⟩, ?_⟩
  constructor <;> simp [after, printed]

/-- A number that is printed and read again is the same number, but for negative zero. The word that
reads numbers takes what is one token within parentheses. -/
theorem str_then_num_restores_numbers (prints : m.functions.find? "str" = some Core.str)
    (parses : m.functions.find? "num" = some Core.num) :
    (∀ x below, m.stack = .number x :: below →
      (∀ after,
        (∃ printed, Settles (invoke · (.function "str")) m (.ok ()) printed ∧
          Settles (invoke · (.function "num")) printed (.ok ()) after) ↔
        { (m.trace "call str").trace "call num" with
          stack := .number (plainZero x) :: below } = after) ∧
      ∀ symbol, m.Binds symbol Core.exec →
        ∃ after, Succeeds [.function "str", .operator symbol, .function "num", .operator symbol] m
          after ∧ after.Alike { m with stack := .number (plainZero x) :: below }) ∧
    ∀ text below, m.stack = .string text :: below → ∀ (isOperator : Char → Bool) after,
      Settles (invoke · (.function "num")) m (.ok ()) after ↔
        ')' ∉ text.toList ∧ ∃ reading token,
          read isOperator ("(" ++ text ++ ")") = .ok reading ∧ reading.tokens = [token] ∧
          { m.trace "call num" with stack := token :: below } = after := by
  refine ⟨fun x below stack => ⟨fun after => str_num_settles_iff prints parses stack,
    fun symbol runner => str_num_succeeds prints parses runner stack⟩, ?_⟩
  intro text below stack isOperator after
  rw [num_succeeds_iff parses stack]
  constructor
  · rintro ⟨x, found, same⟩
    have free := closer_not_mem_of_numeral? found
    obtain ⟨reading, isRead, tokens⟩ : ∃ reading,
        read isOperator ("(" ++ text ++ ")") = .ok reading ∧ reading.tokens = [.number x] :=
      (read_parenthesized_eq_single_iff free).mpr ⟨x, found, rfl⟩
    exact ⟨free, reading, .number x, isRead, tokens, same⟩
  · rintro ⟨free, reading, token, isRead, tokens, same⟩
    obtain ⟨x, found, rfl⟩ := (read_parenthesized_eq_single_iff free).mp ⟨reading, isRead, tokens⟩
    exact ⟨x, found, same⟩

/-- A machine that can print numbers, read them and call functions by name. -/
def converting (stack : List Value) : Machine where
  stack := stack
  functions := ⟨[("exec", Core.exec), ("str", Core.str), ("num", Core.num)]⟩
  operators := ⟨[("x", "exec")]⟩

/-- Negative zero on top of another value; a numeral with a sign, a separator and an exponent; and
a text that is one token in parentheses, as it closes them before a comment, but no numeral. -/
theorem str_then_num_restores_numbers_zero :
    (∃ printed,
      Settles (invoke · (.function "str")) (converting [.number negativeZero, .number nan]) (.ok ())
        printed ∧
      Settles (invoke · (.function "num")) printed (.ok ())
        (converting [.number 0, .number nan])) ∧
    (∃ after, Succeeds [.function "str", .operator "x", .function "num", .operator "x"]
        (converting [.number negativeZero]) after ∧ after.Alike (converting [.number 0])) ∧
    (∃ token, Settles (invoke · (.function "num")) (converting [.string "-_1E-7", .boolean true])
      (.ok ()) (converting [token, .boolean true])) ∧
    (∃ reading token, read (fun _ => false) ("(" ++ "1)\\" ++ ")") = .ok reading ∧
      reading.tokens = [token]) ∧
    ∀ after,
      ¬ Settles (invoke · (.function "num")) (converting [.string "1)\\"]) (.ok ()) after := by
  have zero : plainZero negativeZero = 0 := by decide +kernel
  have restores : ∀ stack, _ := fun stack =>
    str_then_num_restores_numbers (m := converting stack) rfl rfl
  refine ⟨?_, ?_, ?_, ⟨_, _, rfl, rfl⟩, fun after => ?_⟩
  · have calls := ((restores _).1 negativeZero [.number nan] rfl).1
    exact (calls _).mpr (by rw [zero]; rfl)
  · have tokens := ((restores _).1 negativeZero [] rfl).2 "x" ⟨"exec", rfl, rfl⟩
    rwa [zero] at tokens
  · have numeral := (restores _).2 "-_1E-7" [.boolean true] rfl
    exact ⟨_, (numeral (fun _ => false) _).mpr ⟨by decide, _, _, rfl, rfl, rfl⟩⟩
  · have refused := (restores _).2 "1)\\" [] rfl
    rw [refused (fun _ => false)]
    exact fun succeeded => succeeded.1 (by decide)

end Machine

end Cairn

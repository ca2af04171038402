import Cairn.Proofs.CallChains

set_option autoImplicit false

/-!
# Shown code

What a core session shows of code is code. The words make texts, numbers and truth values, and only
move the blocks and the references that the reader made; these stay readable because the session
never forgets an operator. So every value that a stack shows and that is no text reads back from its
source, also when it is shown by a failure, and at any later time.
-/

namespace Cairn

namespace Value

variable {isOperator isOperator' : Char → Bool} {v : Value}

theorem Readable.mono (grows : ∀ c, isOperator c = true → isOperator' c = true)
    (readable : v.Readable isOperator) : v.Readable isOperator' := by
  induction readable with
  | string free => exact .string free
  | number x => exact .number x
  | function free => exact .function free
  | block _ inductionHypothesis => exact .block inductionHypothesis
  | operator known free => exact .operator (grows _ known) free
  | boolean b => exact .boolean b

/-- A value that is readable with enough operators is readable with its own. -/
theorem Readable.of_symbols {m : Machine} (readable : v.Readable isOperator)
    (known : v.symbols ⊆ m.operators.keys) : v.Readable m.isOperator := by
  induction readable with
  | string free => exact .string free
  | number x => exact .number x
  | function free => exact .function free
  | block _ inductionHypothesis =>
    have each := symbolsIn_subset_iff.mp known
    exact .block fun v member => inductionHypothesis v member (each v member)
  | operator _ free =>
    exact .operator (Table.contains_iff.mpr (known (by simp [symbols]))) free
  | boolean b => exact .boolean b

/-- A text, or a value that is readable as soon as its operators are known. -/
def Presentable (v : Value) : Prop := (∃ s, v = .string s) ∨ v.Readable fun _ => true

instance : Closed Presentable where
  string s := .inl ⟨s, rfl⟩
  number x := .inr (.number x)
  boolean b := .inr (.boolean b)
  body v presentable w member := by
    cases v with
    | block body =>
      rcases presentable with ⟨s, same⟩ | ⟨⟨⟩⟩
      · cases same
      · next each => exact .inr (each w member)
    | _ => cases member
  reading success v member := .inr ((readable_of_read success v member).mono fun _ _ => rfl)

end Value

namespace Machine

open Cairn.Configuration

variable {m m' later created : Machine} {source : String} {fault : Fault} {cause : Cause}
  {stack values : List Value} {token : Option Value} {fuel : Nat} {tracing : Bool}

/-- Every value that is no text reads back from its source, alone and to the last character. -/
def ShowsCode (m : Machine) (values : List Value) : Prop :=
  ∀ v ∈ values, (∀ s, v ≠ .string s) → m.parse v.source = .ok ⟨v.source.length, [v]⟩

theorem parse_source {v : Value} (readable : v.Readable m.isOperator) :
    m.parse v.source = .ok ⟨v.source.length, [v]⟩ := by
  have back : read m.isOperator (Reading.joined [v]) = .ok ⟨(Reading.joined [v]).length, [v]⟩ :=
    read_joined (by simpa using readable)
  exact parse_eq_ok.mpr (by simpa [Reading.joined] using back)

/-- What lies on the stack of a session is code at every later time, unless it is text. -/
theorem showsCode_of_grows (obeys : m.Obeys Value.Presentable) (resolved : m.Resolved)
    (grows : m.Grows later) : later.ShowsCode m.stack := by
  intro v member noText
  rcases obeys.stack v member with ⟨s, same⟩ | readable
  · exact absurd same (noText s)
  · have storable := (resolved.stack v member).mono grows.operators
    exact parse_source (readable.of_symbols storable.2)

/-- The stack that a failed evaluation tells was the stack at a point of the run. -/
theorem exists_reaches_stack
    (ran : Settles (run · source) m (.error (.evaluation cause stack token)) m') :
    ∃ reading c, m.parse source = .ok reading ∧ Reaches (opened reading.tokens m) c ∧
      c.machine.stack = stack := by
  obtain ⟨reading, symbol, rest, middle, readable, reached, failure⟩ := exists_failing_operator ran
  rcases failure.operator_cases with ⟨_, same, _⟩ | ⟨name, body, bound, registered, failed⟩
  · cases same
    exact ⟨reading, _, readable, reached, rfl⟩
  · obtain ⟨thrown, atThrow, throws, _, surfaced⟩ := failed
    have inside := reached.trans (reaches_throw bound registered throws rest)
    refine ⟨reading, _, readable, inside, ?_⟩
    cases caused : thrown.cause? with
    | some cause =>
      rw [caused] at surfaced
      cases surfaced
      rfl
    | none =>
      rw [caused, Option.elim_none] at surfaced
      have foreign := thrown.cause?_voiced.trans caused
      rw [← surfaced] at foreign
      cases foreign

/-- Every value but a text reads back from its source, then and later, be it on the stack between
runs or on the stack that a failed evaluation tells. -/
theorem core_session_shows_code (installed : core fuel tracing = .done () created)
    (session : Later created m) :
    (∀ later, Later m later → later.ShowsCode m.stack) ∧
    ∀ source cause stack token m',
      Settles (run · source) m (.error (.evaluation cause stack token)) m' →
      ∀ later, Later m' later → later.ShowsCode stack := by
  have obeys : m.Obeys Value.Presentable := session.obeys (obeys_of_core installed)
  obtain ⟨resolved, _⟩ := session.resolved (resolved_of_core installed)
  constructor
  · intro later session'
    exact showsCode_of_grows obeys resolved (session'.resolved resolved).2
  · intro source cause stack token m' ran later session'
    obtain ⟨reading, c, readable, reached, rfl⟩ := exists_reaches_stack ran
    obtain ⟨here, _⟩ :=
      ((start_proceeds readable).reaches.trans reached).resolved (resolved.start source)
    -- From the point of that stack to the end of the run, and from there on, operators stay known.
    have ended := reached.of_ended (opened_reaches_ending readable ran) (step_ending_top _ _)
    obtain ⟨after, grows⟩ := ended.resolved here
    have grows' := grows.trans (session'.resolved after.machine).2
    exact showsCode_of_grows (reached.obeys (opened_obeys readable obeys)).machine here.machine
      grows'

/-- A block with a new operator, a text that has no source, a reference, and a word that fails. -/
def leavingCode : String := "\x7b2a\"x\"\x7d \x7b\"y\"\x7d[str]x [sq] [inc]1+"

/-- A failure over a block, a text that cannot be read back and a reference. -/
theorem core_session_shows_code_failed :
    ∃ created m cause stack token m', core 5 false = .done () created ∧ Later created m ∧
      Settles (run · leavingCode) m (.error (.evaluation cause stack token)) m' ∧
      stack.map Value.source =
        ["[sq]", "\"<mac \x7b\"y\"\x7d>\"", "\x7b2 a \"x\"\x7d"] ∧
      m'.ShowsCode stack ∧ m'.ShowsCode m'.stack := by
  have computed : (core 5 false).succeedsWith (fun created =>
      (run 5 "\"sq\" \"a\" @" created).succeedsWith fun m =>
        (run 5 leavingCode m).stopsWith fun _ stack _ =>
          decide (stack.map Value.source =
            ["[sq]", "\"<mac \x7b\"y\"\x7d>\"", "\x7b2 a \"x\"\x7d"])) = true := by
    decide +kernel
  obtain ⟨_, created, installed, computed⟩ := Outcome.exists_of_succeedsWith computed
  obtain ⟨_, m, bound, computed⟩ := Outcome.exists_of_succeedsWith computed
  obtain ⟨cause, stack, token, m', failed, shown⟩ := Outcome.exists_of_stopsWith computed
  have aliased : Settles (run · "\"sq\" \"a\" @") created (.ok ()) m := ⟨5, bound⟩
  have session : Later created m := .run (.refl created) aliased
  have ran : Settles (run · leavingCode) m (.error (.evaluation cause stack token)) m' :=
    ⟨5, failed⟩
  have told := (core_session_shows_code installed session).2 _ _ _ _ _ ran
  have between := (core_session_shows_code installed (session.run ran)).1
  exact ⟨created, m, cause, stack, token, m', installed, session, ran, of_decide_eq_true shown,
    told m' (.refl m'), between m' (.refl m')⟩

end Machine

end Cairn

import Cairn.Proofs.CommandRuns
import Cairn.Proofs.Documents

set_option autoImplicit false

/-!
# Values read back from machine text

The machine text of a list of values loses nothing. A decoder reads a document by its kind, and
takes a number as it stands or as the numeral that a string spells; from the machine text of values
it gives back the same values. So what the command line writes as machine text, a stack or a list of
tokens, can be told from what it writes.
-/

namespace Cairn

theorem Json.sizeOf_get?_lt {j k : Json} {name : String} (found : j.get? name = some k) :
    sizeOf k < sizeOf j := by
  cases j with
  | object members =>
    obtain ⟨e, last, rfl⟩ := Option.map_eq_some_iff.mp found
    have member := List.mem_reverse.mp (List.mem_of_find?_eq_some last)
    have smaller := List.sizeOf_lt_of_mem member
    obtain ⟨name, k⟩ := e
    simp only [Prod.mk.sizeOf_spec, object.sizeOf_spec] at smaller ⊢
    omega
  | _ => cases found

namespace Value

/-- A number as it stands, or spelled by a string. -/
def numberOfJson? : Json → Option Float
  | .number x => some x
  | .string text => Number.numeral? text
  | _ => none

mutual

/-- The value that a document describes by its kind. -/
def ofJson? (j : Json) : Option Value :=
  match j.get? "kind" with
  | some (.string "string") => ((j.get? "value").bind Settings.text?).map .string
  | some (.string "number") => ((j.get? "value").bind numberOfJson?).map .number
  | some (.string "function") => ((j.get? "name").bind Settings.text?).map .function
  | some (.string "operator") => ((j.get? "symbol").bind Settings.text?).map .operator
  | some (.string "boolean") => ((j.get? "value").bind Settings.boolean?).map .boolean
  | some (.string "block") =>
    match _found : j.get? "body" with
    | some (.array items) => (ofItems? items).map .block
    | _ => none
  | _ => none
termination_by sizeOf j
decreasing_by
  have smaller := Json.sizeOf_get?_lt _found
  simp only [Json.array.sizeOf_spec] at smaller
  omega

def ofItems? : List Json → Option (List Value)
  | [] => some []
  | j :: rest => do return (← ofJson? j) :: (← ofItems? rest)
termination_by items => sizeOf items

end

theorem ofJson?_block {j : Json} {items : List Json} (kind : j.get? "kind" = some (.string "block"))
    (body : j.get? "body" = some (.array items)) : ofJson? j = (ofItems? items).map .block := by
  simp only [ofJson?, kind]
  split
  next found =>
    cases body.symm.trans found
    rfl
  next other => exact absurd body (other items)

/-- The values that a text describes. -/
def ofMachineText? (text : String) : Option (List Value) :=
  match Json.parse? text with
  | some (.array items) => ofItems? items
  | _ => none

theorem numberOfJson?_numberToJson (x : Float) : numberOfJson? (numberToJson x) = some x := by
  unfold numberToJson
  split
  · rfl
  · exact Number.numeralOfChars?_exactText x

theorem writable_numberToJson (x : Float) : (numberToJson x).Writable := by
  unfold numberToJson
  split
  next plain =>
    simp only [Bool.and_eq_true, Bool.not_eq_true'] at plain
    exact .number plain.1 plain.2
  next => exact .string _

/-- A document of two members, the kind and what comes with it. -/
theorem writable_kind {kind name : String} {j : Json} (writable : j.Writable) :
    (Json.object [("kind", .string kind), (name, j)]).Writable := by
  refine .object fun e member => ?_
  simp only [List.mem_cons, List.not_mem_nil, or_false] at member
  rcases member with rfl | rfl
  · exact .string kind
  · exact writable

mutual

theorem writable_toJson (v : Value) : v.toJson.Writable := by
  cases v with
  | string s => exact writable_kind (.string s)
  | number x => exact writable_kind (writable_numberToJson x)
  | function name => exact writable_kind (.string name)
  | block body => exact writable_kind (.array (writable_listToJson body))
  | operator symbol => exact writable_kind (.string symbol)
  | boolean b => exact writable_kind (.boolean b)

theorem writable_listToJson (values : List Value) : ∀ j ∈ listToJson values, j.Writable := by
  cases values with
  | nil => simp [listToJson]
  | cons v values =>
    simp only [listToJson, List.forall_mem_cons]
    exact ⟨writable_toJson v, writable_listToJson values⟩

end

mutual

theorem ofJson?_toJson (v : Value) : ofJson? v.toJson = some v := by
  cases v with
  | number x => simp [toJson, ofJson?, Json.get?, numberOfJson?_numberToJson]
  | block body =>
    rw [toJson, ofJson?_block rfl rfl, ofItems?_listToJson body]
    rfl
  | _ => simp [toJson, ofJson?, Json.get?, Settings.text?, Settings.boolean?]

theorem ofItems?_listToJson (values : List Value) : ofItems? (listToJson values) = some values := by
  cases values with
  | nil => simp [listToJson, ofItems?]
  | cons v values =>
    simp [listToJson, ofItems?, ofJson?_toJson v, ofItems?_listToJson values]

end

theorem parse_machineText (values : List Value) :
    Json.parse (machineText values) = .ok (.array (listToJson values)) :=
  Json.parse_render (.array (writable_listToJson values))

theorem ofMachineText?_machineText (values : List Value) :
    ofMachineText? (machineText values) = some values := by
  simp only [ofMachineText?, Json.parse?, parse_machineText, Except.toOption,
    ofItems?_listToJson]

theorem machineText_injective : Function.Injective machineText := by
  intro values values' same
  have read := ofMachineText?_machineText values
  rw [same, ofMachineText?_machineText] at read
  exact (Option.some.inj read).symm

end Value

namespace CommandLine

/-- Machine text is one line of JSON, and reads back to the values it was made from. So does what
the command line writes for tokens and for a stack. -/
theorem machineText_lossless :
    (∀ values : List Value, Json.Printable (Value.machineText values).toList ∧
      (∃ items, Json.parse (Value.machineText values) = .ok (.array items) ∧
        Value.ofItems? items = some values) ∧
      Value.ofMachineText? (Value.machineText values) = some values) ∧
    Function.Injective Value.machineText ∧
    ∀ (fuel : Nat) (w : World) (terminal : Terminal) (input : String) (args : List String)
      (job : Job) (source : String) (exit : Exit) (after : Machine),
      plan w terminal input args = .ok job → job.program = .text source → "--list" ∉ args →
      job.run fuel { tracing := job.tracing } = .done exit after → exit.status = .ok 0 →
      run fuel w terminal input args = some (exit.after after) ∧
      ("--parse" ∈ args → ∃ line reading, exit.output = [line] ∧
        after.parse source = .ok reading ∧ Value.ofMachineText? line = some reading.tokens) ∧
      ("--parse" ∉ args → job.mode = .machine → ∃ line, exit.output = [line] ∧
        Value.ofMachineText? line = some after.stack.reverse) := by
  refine ⟨fun values => ⟨?_, ?_, Value.ofMachineText?_machineText values⟩,
    Value.machineText_injective, ?_⟩
  · exact Json.Writable.printable (.array (Value.writable_listToJson values))
  · exact ⟨_, Value.parse_machineText values, Value.ofItems?_listToJson values⟩
  · intro fuel w terminal input args job source exit after planned supplied noList ran success
    obtain ⟨_, rfl⟩ := of_plan planned
    refine ⟨by simp [run, planned, ran], fun parse => ?_, fun noParse mode => ?_⟩
    · cases Job.ends_of_run ran with
      | listed asked => exact absurd asked noList
      | prompt program => cases program.symm.trans supplied
      | ran _ asked => exact absurd parse asked
      | @parsed _ reading program _ read =>
        cases program.symm.trans supplied
        exact ⟨_, reading, rfl, read, Value.ofMachineText?_machineText reading.tokens⟩
      | _ => cases success
    · cases Job.ends_of_run ran with
      | listed asked => exact absurd asked noList
      | prompt program => cases program.symm.trans supplied
      | parsed _ asked => exact absurd asked noParse
      | ran =>
        rw [mode]
        exact ⟨_, rfl, Value.ofMachineText?_machineText after.stack.reverse⟩
      | _ => cases success

/-- Numbers that JSON has no place for, next to a string that spells one of them. -/
def specials : List String := ["--output", "machine", "(nan)\"-0\"(-0)\x7b(inf)x\x7d"]

def specialsText : String :=
  "[\x7b\"kind\":\"number\",\"value\":\"NaN\"\x7d,\x7b\"kind\":\"string\",\"value\":\"-0\"\x7d,"
    ++ "\x7b\"kind\":\"number\",\"value\":\"-0\"\x7d,\x7b\"kind\":\"block\",\"body\":["
    ++ "\x7b\"kind\":\"number\",\"value\":\"Infinity\"\x7d,"
    ++ "\x7b\"kind\":\"operator\",\"symbol\":\"x\"\x7d]\x7d]"

/-- Whether a job runs a program to its end and shows the text of `specials`. -/
def showsSpecials (job : Job) : Bool :=
  match job.program, job.run 5 { tracing := job.tracing } with
  | .text _, .done ⟨.ok 0, output, _, _⟩ after =>
    decide (job.mode = .machine) && decide (output = [specialsText]) &&
      decide (after.stack.length = 4)
  | _, _ => false

theorem machineText_lossless_specials :
    ∃ exit after, run 5 bare {} "" specials = some (Exit.after after exit) ∧
      exit.output = [specialsText] ∧ after.stack.length = 4 ∧
      Value.ofMachineText? specialsText = some after.stack.reverse := by
  have computed : (plan bare {} "" specials).toOption.any showsSpecials = true := by
    decide +kernel
  cases planned : plan bare {} "" specials with
  | error => simp [planned, Except.toOption] at computed
  | ok job =>
    simp only [planned, Except.toOption, Option.any_some, showsSpecials] at computed
    split at computed
    next source output _ _ after supplied ran =>
      simp only [Bool.and_eq_true, decide_eq_true_eq] at computed
      obtain ⟨⟨mode, rfl⟩, depth⟩ := computed
      obtain ⟨ended, _, shows⟩ := machineText_lossless.2.2 5 bare {} "" specials job source _ after
        planned supplied (by decide) ran rfl
      obtain ⟨line, only, read⟩ := shows (by decide) mode
      cases only
      exact ⟨_, after, ended, rfl, depth, read⟩
    next => cases computed

end CommandLine

end Cairn

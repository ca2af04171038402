import Cairn.Value.Printer

set_option autoImplicit false

/-!
What can go wrong in a program of the language, and the wording of it.
-/

namespace Cairn

inductive Cause where
  | unknownFunction (name : String)
  | wrongType (expected actual : String)
  | badNumber (text : String)
  | outOfBounds (index : Float) (length : Int)
  | tooFewArguments
  | notBoolean (value : Value)

namespace Cause

/-- The title a message starts with. -/
def title : Cause → String
  | .unknownFunction _ => "UnknownFunction"
  | .wrongType .. => "InvalidArgumentType"
  | .badNumber _ => "InvalidNumberLit"
  | .outOfBounds .. => "OutOfBounds"
  | .tooFewArguments => "NotEnoughArguments"
  | .notBoolean _ => "InvalidBoolean"

def detail : Cause → String
  | .unknownFunction name => "unknown function " ++ name
  | .wrongType expected actual => "expected " ++ expected ++ ", found " ++ actual
  | .badNumber text => "invalid number literal " ++ Text.quoted text
  | .outOfBounds index length =>
    "index " ++ Number.text index ++ " out of bounds for stack of length "
      ++ Number.text (Float.ofInt length)
  | .tooFewArguments => "not enough arguments on the stack"
  | .notBoolean value => value.render ++ " is not a boolean"

def message (c : Cause) : String := c.title ++ ": " ++ c.detail

/-- A value of another type than the one asked for. -/
def mismatch (expected : String) (actual : Value) : Cause := .wrongType expected actual.render

/-- A character or symbol that names no function. -/
def unknownSymbol (symbol : String) : Cause := .unknownFunction ("'" ++ symbol ++ "'")

end Cause

end Cairn

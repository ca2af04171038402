import Cairn.Number.Arithmetic
import Cairn.Number.Numeral
import Cairn.Routine

set_option autoImplicit false

/-!
The words of the core library, each as a routine. A word pops its arguments from the top down and
fails at the first that is missing or of the wrong type.
-/

namespace Cairn.Core

open Routine

/-- Runs a block. -/
def runBlock (body : List Value) : Routine Unit := invoke (.block body)

/-! Arithmetic and comparison. -/

def binary (op : Float → Float → Float) : Routine Unit := do
  let b ← takeNumber
  let a ← takeNumber
  push (.number (op a b))

def comparison (op : Float → Float → Bool) : Routine Unit := do
  let b ← takeNumber
  let a ← takeNumber
  push (.boolean (op a b))

def neg : Routine Unit := do
  push (.number (-(← takeNumber)))

/-! Shuffling the stack. -/

def dup : Routine Unit := do
  let a ← pop
  push a
  push a

def drop : Routine Unit := do
  let _ ← pop

def swap : Routine Unit := do
  let b ← pop
  let a ← pop
  push b
  push a

def copySecond : Routine Unit := do
  push (← valueAt 1)

def rot : Routine Unit := do
  let c ← pop
  let b ← pop
  let a ← pop
  push b
  push c
  push a

def size : Routine Unit := do
  push (.number (Float.ofNat (← depth)))

def pick : Routine Unit := do
  let n ← takeNumber
  push (← valueAt n)

def put : Routine Unit := do
  let n ← takeNumber
  let value ← pop
  storeAt n value

/-! Control. -/

def exec : Routine Unit := do
  invoke (← pop)

def whenTrue : Routine Unit := do
  let body ← takeBlock
  if ← takeTruth then
    runBlock body

def choose : Routine Unit := do
  let otherwise ← takeBlock
  let chosen ← takeBlock
  runBlock (if ← takeTruth then chosen else otherwise)

def repeatBlock (body : List Value) : Nat → Routine Unit
  | 0 => return ()
  | n + 1 => do
    runBlock body
    repeatBlock body n

def times : Routine Unit := do
  let body ← takeBlock
  match Number.repetitions (← takeNumber) with
  | .times n => repeatBlock body n
  | .endless => loop do
    runBlock body
    return true

/-- A round of a loop: the condition, and the body if it left a true value. -/
def whileRound (condition body : List Value) : Routine Bool := do
  runBlock condition
  if ← takeTruth then
    runBlock body
    return true
  else return false

def whileTrue : Routine Unit := do
  let body ← takeBlock
  let condition ← takeBlock
  loop (whileRound condition body)

/-! Logic. -/

def eq : Routine Unit := do
  let b ← pop
  let a ← pop
  push (.boolean (a.equal b))

def not : Routine Unit := do
  push (.boolean (!(← takeTruth)))

def logical (op : Bool → Bool → Bool) : Routine Unit := do
  let b ← takeTruth
  let a ← takeTruth
  push (.boolean (op a b))

/-! Strings. -/

def concat : Routine Unit := do
  let b ← takeText
  let a ← takeText
  push (.string (a ++ b))

def len : Routine Unit := do
  push (.number (Float.ofNat (← takeText).length))

def str : Routine Unit := do
  push (.string (← pop).display)

def num : Routine Unit := do
  let text ← takeText
  match Number.numeral? text with
  | some x => push (.number x)
  | none => failWith (.badNumber text)

def print : Routine Unit := do
  emit (← pop).display

/-! The tables. -/

def define : Routine Unit := do
  let name ← takeText
  let body ← takeBlock
  addFunction none name (runBlock body)

def bindAlias : Routine Unit := do
  let symbol ← takeText
  let name ← takeText
  if symbol.length = 1 then
    assignOperator symbol name
  else failWith (.mismatch "single character" (.string symbol))

end Cairn.Core

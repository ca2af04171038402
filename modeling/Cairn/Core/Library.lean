import Cairn.Core.Words
import Cairn.Machine.Evaluation
import Cairn.Number.Power
import Cairn.Plugin.Basic

set_option autoImplicit false

/-!
The core library as a plugin, and the machine that has it installed.
-/

namespace Cairn.Core

def word (symbol description : String) (body : Routine Unit) : Definition :=
  ⟨some symbol, some description, body⟩

/-- A word without an operator. -/
def plainWord (description : String) (body : Routine Unit) : Definition :=
  ⟨none, some description, body⟩

def words : List (String × Definition) := [
  ("add", word "+" "Add two numbers." (binary (· + ·))),
  ("sub", word "-" "Subtract the top number from the one below." (binary (· - ·))),
  ("mul", word "*" "Multiply two numbers." (binary (· * ·))),
  ("div", word "/" "Divide the second number by the top one." (binary (· / ·))),
  ("mod", word "%" "Remainder of the second number divided by the top one."
    (binary Number.remainder)),
  ("pow", word "^" "Raise the second number to the power of the top one."
    (binary Number.power)),
  ("neg", word "~" "Negate a number." neg),
  ("dup", word "d" "Duplicate the top value." dup),
  ("drop", word "k" "Discard the top value." drop),
  ("swap", word "s" "Exchange the two top values." swap),
  ("over", word "o" "Copy the second value to the top." copySecond),
  ("rot", word "r" "Move the third value to the top." rot),
  ("size", word "z" "Push the number of values on the stack." size),
  ("pick", word "g" "Pop n, then copy the value at depth n to the top." pick),
  ("put", word "$" "Pop n and a value, then store the value at depth n." put),
  ("clear", plainWord "Empty the stack." Routine.clear),
  ("exec", word "x" "Pop a function reference or macro and run it." exec),
  ("when", word "?" "Pop a macro and a condition; run the macro if the condition holds."
    whenTrue),
  ("if", word ":" "Pop an else macro, a then macro and a condition; run one of them." choose),
  ("times", word "t" "Pop a macro and a count; run the macro that many times." times),
  ("while", word "w"
    "Pop a body and a condition macro; run the body while the condition leaves a true value."
    whileTrue),
  ("eq", word "=" "Push whether the two top values are equal." eq),
  ("lt", word "<" "Push whether the second number is less than the top one."
    (comparison fun a b => a < b)),
  ("gt", word ">" "Push whether the second number is greater than the top one."
    (comparison fun a b => a > b)),
  ("not", word "!" "Negate a truth value." not),
  ("and", word "&" "Push whether both top values are true." (logical and)),
  ("or", word "|" "Push whether either top value is true." (logical or)),
  ("concat", word "," "Join two strings." concat),
  ("len", plainWord "Push the length of a string in characters." len),
  ("str", plainWord "Convert the top value to its printed form." str),
  ("num", plainWord "Parse a string as a number." num),
  ("print", word "p" "Pop a value and print it." print),
  ("define", word "#"
    "Pop a name and a macro; register the macro as a function under that name." define),
  ("alias", word "@"
    "Pop a character and a function name; bind the character as an operator." bindAlias)]

def prelude : String :=
  "\x7bd*\x7d \"sq\" #  \x7b1+\x7d \"inc\" #  \x7b1-\x7d \"dec\" #"

def plugin : Plugin where
  name := "core"
  description? := some "Arithmetic, stack shuffling, control flow and registry words."
  functions := ⟨words⟩
  prelude? := some prelude

end Cairn.Core

namespace Cairn.Machine

/-- Installs the core library. -/
def installCore (fuel : Nat) : Action Unit := perform fuel Core.plugin.install

/-- A machine with the core library and nothing else, ready for programs. -/
def core (fuel : Nat) (tracing : Bool) : Outcome Unit :=
  installCore fuel { tracing := tracing }

/-- Runs a source text on a fresh core machine. -/
def execute (fuel : Nat) (source : String) : Outcome Unit :=
  (core fuel false).bind fun _ => run fuel source

end Cairn.Machine

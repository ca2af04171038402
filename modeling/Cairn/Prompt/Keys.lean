set_option autoImplicit false

/-!
The keys of a terminal. What is typed arrives as text: printable characters stand for themselves,
control characters for the keys of a line editor, and an escape character starts a sequence that
names a key.
-/

namespace Cairn.Prompt

inductive Key where
  | char (c : Char)
  /-- The two characters that end a line; a line feed behind a carriage return belongs to it. -/
  | carriageReturn
  | lineFeed
  /-- Ctrl-C. -/
  | interrupt
  /-- Ctrl-D: the end of the input on an empty line, otherwise `delete`. -/
  | finish
  | complete
  | backspace
  | delete
  | left
  | right
  | home
  | tail
  | cutLeft
  | cutRight
  | cutWord
  | clear
  deriving DecidableEq

namespace Key

/-- Keys that are typed together with the control key. -/
def isControl : Key → Bool
  | interrupt | finish | home | tail | left | right | cutLeft | cutRight | cutWord | clear => true
  | char _ | carriageReturn | lineFeed | complete | backspace | delete => false

/-- The key of a character; some control characters stand for none. -/
def ofChar? (c : Char) : Option Key :=
  match c.toNat with
  | 0x01 => some home
  | 0x02 => some left
  | 0x03 => some interrupt
  | 0x04 => some finish
  | 0x05 => some tail
  | 0x06 => some right
  | 0x08 => some backspace
  | 0x09 => some (char c)
  | 0x0A => some lineFeed
  | 0x0B => some cutRight
  | 0x0C => some clear
  | 0x0D => some carriageReturn
  | 0x15 => some cutLeft
  | 0x17 => some cutWord
  | 0x1C | 0x1D => some (char c)
  | 0x7F => some backspace
  | n => if n < 0x20 then none else some (char c)

/-- Where a sequence stands: behind its escape characters, behind the letter or the bracket that
follows them, within the digits behind the bracket or within the modifier behind these, or one
character before its end. -/
inductive Sequence where
  | start (again : Bool)
  | letter
  | bracket
  | digits (count : Nat)
  | modifier
  | last

/-- Where a sequence stands after one more character, if that is not its last. -/
def Sequence.next? : Sequence → Char → Option Sequence
  | start again, c =>
    if c = '\x1b' ∧ again then some (start false)
    else if c = 'O' then some letter
    else if c = '[' then some bracket
    else none
  | letter, c => if c.isDigit then some last else none
  | bracket, c =>
    if c = '[' then some (digits 0)
    else if c.isDigit then some (digits 1)
    else if c = ';' then some modifier
    else none
  | digits count, c =>
    if c.isDigit ∧ count < 3 then some (digits (count + 1))
    else if c = ';' then some modifier
    else none
  | modifier, c => if c.isDigit then some last else none
  | last, _ => none

/-- The key that a whole sequence names. -/
def ofSequence? (text : String) : Option Key :=
  if ["[D", "OD"].contains text then some left
  else if ["[C", "OC"].contains text then some right
  else if ["[H", "OH", "[1~", "[7~"].contains text then some home
  else if ["[F", "OF", "[4~", "[8~"].contains text then some tail
  else if text = "[3~" then some delete
  else none

/-- The keys of a text, behind the start of a sequence if one is open; `typed` is what it holds so
far in reverse. A tab completes at the end only. -/
def scan : Option Sequence → (typed : List Char) → List Char → List Key
  | _, _, [] => []
  | none, _, c :: rest =>
    if c = '\x1b' then scan (some (.start true)) [] rest
    else if c = '\t' ∧ rest = [] then [complete]
    else (ofChar? c).toList ++ scan none [] rest
  | some s, typed, c :: rest =>
    match s.next? c with
    | some s' => scan (some s') (if c = '\x1b' then typed else c :: typed) rest
    | none => (ofSequence? (String.ofList (c :: typed).reverse)).toList ++ scan none [] rest

/-- The keys that were pressed to type a text. -/
def ofText (text : String) : List Key := scan none [] text.toList

end Key

end Cairn.Prompt

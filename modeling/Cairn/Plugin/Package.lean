import Cairn.Json.Parser

set_option autoImplicit false

/-!
Package descriptions, the files named `package.json`: a record that says, among much else, which
file of a directory is its main one. A description is cut into tokens and only the fields that
matter are looked into. All other values are passed over by counting brackets, so a description is
accepted that is no document in the strict sense, as long as its fields can be told apart.
-/

namespace Cairn

structure Package where
  main? : Option String := none
  deriving DecidableEq

namespace Package

/-- A piece of a description: a bracket, colon or comma, a string with its escapes as written, or
anything else by the character it starts with. -/
inductive Token where
  | mark (c : Char)
  | quoted (raw : List Char)
  | scalar (first : Char)
  deriving DecidableEq

def isMark (c : Char) : Bool := ['\x7b', '\x7d', '[', ']', ':', ','].contains c

/-- Where a scan stands: between tokens, in a scalar, or in a string with its characters so far in
reverse. A string right behind a scalar is a part of it and no token. -/
inductive Place where
  | between
  | scalar
  | quoted (isToken : Bool) (raw : List Char)

/-- The tokens from a place on; none for a string without an end or with a control character. A
quote behind a backslash neither opens nor closes a string. -/
def scan : Place → List Char → Option (List Token)
  | .quoted .., [] => none
  | _, [] => some []
  | .quoted isToken raw, '\\' :: d :: rest =>
    if d.toNat < 32 then none else scan (.quoted isToken (d :: '\\' :: raw)) rest
  | .quoted isToken raw, c :: rest =>
    if c.toNat < 32 then none
    else if c = '"' then
      (scan .between rest).map fun ts => if isToken then .quoted raw.reverse :: ts else ts
    else scan (.quoted isToken (c :: raw)) rest
  | .between, '\\' :: '"' :: rest => (scan .scalar rest).map (.scalar '\\' :: ·)
  | .between, '\\' :: '\\' :: rest => (scan .scalar rest).map (.scalar '\\' :: ·)
  | .scalar, '\\' :: '"' :: rest => scan .scalar rest
  | .scalar, '\\' :: '\\' :: rest => scan .scalar rest
  | .between, c :: rest =>
    if Json.isSpace c then scan .between rest
    else if isMark c then (scan .between rest).map (.mark c :: ·)
    else if c = '"' then scan (.quoted true []) rest
    else (scan .scalar rest).map (.scalar c :: ·)
  | .scalar, c :: rest =>
    if Json.isSpace c then scan .between rest
    else if isMark c then (scan .between rest).map (.mark c :: ·)
    else if c = '"' then scan (.quoted false []) rest
    else scan .scalar rest

/-- The text of a string token, if its escapes are good ones. -/
def unescape? (raw : List Char) : Option String :=
  match Json.text (raw ++ ['"']) with
  | .ok (s, []) => some s
  | _ => none

/-- What follows the bracket that closes the given number of open ones. Brackets of either kind
close each other. -/
def close : Nat → List Token → Option (List Token)
  | _, [] => none
  | depth, t :: rest =>
    if t = .mark '\x7b' ∨ t = .mark '[' then close (depth + 1) rest
    else if t = .mark '\x7d' ∨ t = .mark ']' then
      if depth ≤ 1 then some rest else close (depth - 1) rest
    else close depth rest

/-- What follows a value that is not looked into. A name in the place of the value is taken for
the inside of a record. -/
def skip : List Token → Option (List Token)
  | [] => none
  | .quoted _ :: .mark ':' :: rest => close 1 rest
  | .mark c :: rest => if c = '\x7d' ∨ c = ']' then some rest else close 1 rest
  | _ :: rest => some rest

/-- Whether a token can start a value. -/
def startsValue : Token → Bool
  | .mark c => c = '\x7b' || c = '['
  | .quoted _ => true
  | .scalar c => c = 't' || c = 'f' || c = 'n' || c = '-' || c.isDigit

/-- Takes a field: what the description becomes, and what follows the value. A main file that is no
string does not count. -/
def field (p : Package) (key : String) (value : List Token) : Option (Package × List Token) :=
  match value with
  | [] => none
  | token :: rest =>
    if key = "name" ∨ key = "type" then
      match token with
      | .quoted raw => (unescape? raw).map fun _ => (p, rest)
      | _ => none
    else if key = "main" then
      match token with
      | .quoted raw => some ({ main? := (unescape? raw).or p.main? }, rest)
      | _ => (skip value).map (p, ·)
    else if key = "exports" then
      match token with
      | .quoted raw => (unescape? raw).map fun _ => (p, rest)
      | _ => if startsValue token then (skip value).map (p, ·) else none
    else if key = "imports" ∨ key = "scripts" then
      if startsValue token then (skip value).map (p, ·) else none
    else (skip value).map (p, ·)

/-- One or more fields up to the closing brace; nothing behind it is looked at. -/
def fields : (fuel : Nat) → Package → List Token → Option Package
  | fuel + 1, p, .quoted key :: .mark ':' :: value => do
    let (p, rest) ← field p (String.ofList key) value
    match rest with
    | .mark ',' :: rest => fields fuel p rest
    | .mark '\x7d' :: _ => some p
    | _ => none
  | _, _, _ => none

/-- A text without the byte order mark in front of it. -/
def withoutMark (text : String) : String :=
  match text.toList with
  | c :: rest => if c.toNat = 0xFEFF then String.ofList rest else text
  | [] => text

/-- The description that a text holds: it starts and ends with a brace. -/
def parse? (text : String) : Option Package := do
  let tokens ← scan .between (withoutMark text).toList
  if tokens.getLast? = some (.mark '\x7d') then
    match tokens with
    | .mark '\x7b' :: .mark '\x7d' :: _ => return {}
    | .mark '\x7b' :: rest => fields rest.length {} rest
    | _ => none
  else none

end Package

end Cairn

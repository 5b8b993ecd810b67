import KernelDiff.Json.Basic

namespace KernelDiff.Json

/-!
# JSON tokens

A text is cut into tokens by a machine that takes one character at a time. Between tokens it
passes over blanks, tabs, carriage returns and line feeds. Inside a number, a word or a string
it knows what may come next, and refuses everything else.
-/

/-- The tokens of JSON. -/
inductive Token
  | openObject | closeObject | openArray | closeArray | colon | comma
  /-- A string literal. -/
  | text (s : JsonText)
  /-- Any other value that is one token: null, a truth value or a number. -/
  | atom (v : Json)

/-- How far a number has been read. -/
inductive NumberPart
  /-- After the minus sign. -/
  | minus
  /-- After a leading zero. -/
  | zero
  /-- In the digits of the integer part. -/
  | digits
  /-- After the point. -/
  | point
  /-- In the digits behind the point. -/
  | fraction
  /-- After the exponent letter. -/
  | exponent
  /-- After the sign of the exponent. -/
  | exponentSign
  /-- In the digits of the exponent. -/
  | exponentDigits
  deriving DecidableEq, Repr

/-- How far an escape in a string has been read. -/
inductive Escape
  /-- Not in an escape. -/
  | none
  /-- After the backslash. -/
  | start
  /-- After the letter `u`, with so many hexadecimal digits to come. -/
  | unicode (left : Nat) (value : Nat)
  deriving DecidableEq, Repr

/-- A string literal as far as it has been read. -/
structure PartialText where
  /-- The characters so far, last first. -/
  chars : List Char := []
  /-- A high surrogate that waits for its low half. -/
  high : Option Nat := none
  /-- Whether half of a surrogate pair was left alone. -/
  broken : Bool := false
  escape : Escape := .none

/-- What the machine is in the middle of. -/
inductive LexMode
  | between
  /-- In one of the three words, with the next character and those behind it. -/
  | word (next : Char) (left : List Char) (value : Json)
  | number (part : NumberPart) (negative : Bool) (value : Nat)
  | string (s : PartialText)

/-- The machine: the tokens so far, last first, and what it is in the middle of. -/
structure Lexer where
  tokens : List Token := []
  mode : LexMode := .between

namespace NumberPart

/-- The part after one more character of a number. -/
def next? (p : NumberPart) (c : Char) : Option NumberPart :=
  match p with
  | minus => if c = '0' then some zero else if c.isDigit then some digits else none
  | zero =>
    if c = '.' then some point else if c = 'e' ∨ c = 'E' then some exponent else none
  | digits =>
    if c.isDigit then some digits
    else if c = '.' then some point
    else if c = 'e' ∨ c = 'E' then some exponent
    else none
  | point => if c.isDigit then some fraction else none
  | fraction =>
    if c.isDigit then some fraction else if c = 'e' ∨ c = 'E' then some exponent else none
  | exponent =>
    if c = '+' ∨ c = '-' then some exponentSign
    else if c.isDigit then some exponentDigits
    else none
  | exponentSign => if c.isDigit then some exponentDigits else none
  | exponentDigits => if c.isDigit then some exponentDigits else none

/-- Whether a number may end here. -/
def mayEnd : NumberPart → Bool
  | zero | digits | fraction | exponentDigits => true
  | minus | point | exponent | exponentSign => false

/-- The value of a number that ends here. -/
def finish (p : NumberPart) (negative : Bool) (value : Nat) : Json :=
  match p with
  | zero => if negative then .real else .integer 0
  | digits => .integer (if negative then -(value : Int) else value)
  | _ => .real

end NumberPart

namespace PartialText

/-- Add a character; a high surrogate that still waits is left alone. -/
def push (s : PartialText) (c : Char) : PartialText :=
  { chars := c :: s.chars, high := none, broken := s.broken || s.high.isSome, escape := .none }

/-- Add the code unit of an escape. -/
def pushUnit (s : PartialText) (unit : Nat) : PartialText :=
  if 0xDC00 ≤ unit ∧ unit < 0xE000 then
    match s.high with
    | some high =>
      { s with
        chars := Char.ofNat (0x10000 + (high - 0xD800) * 0x400 + (unit - 0xDC00)) :: s.chars
        high := none
        escape := .none }
    | none => { s with broken := true, escape := .none }
  else if 0xD800 ≤ unit ∧ unit < 0xDC00 then
    { s with high := some unit, broken := s.broken || s.high.isSome, escape := .none }
  else s.push (Char.ofNat unit)

/-- What the literal denotes when it ends. -/
def finish (s : PartialText) : JsonText :=
  if s.broken || s.high.isSome then none else some (String.ofList s.chars.reverse)

end PartialText

/-- The value of a hexadecimal digit. -/
def hexDigit? (c : Char) : Option Nat :=
  if c.isDigit then some (c.toNat - '0'.toNat)
  else if 'a' ≤ c ∧ c ≤ 'f' then some (c.toNat - 'a'.toNat + 10)
  else if 'A' ≤ c ∧ c ≤ 'F' then some (c.toNat - 'A'.toNat + 10)
  else none

/-- The character that a one-letter escape stands for. -/
def escaped? (c : Char) : Option Char :=
  match c with
  | '"' => some '"'
  | '\\' => some '\\'
  | '/' => some '/'
  | 'b' => some '\x08'
  | 'f' => some '\x0c'
  | 'n' => some '\n'
  | 'r' => some '\r'
  | 't' => some '\t'
  | _ => none

/-- White space between tokens. -/
def isSpace (c : Char) : Bool :=
  c = ' ' || c = '\t' || c = '\n' || c = '\r'

namespace Lexer

/-- The machine after a whole token. -/
def emit (l : Lexer) (t : Token) : Lexer :=
  { tokens := t :: l.tokens, mode := .between }

/-- A character between tokens. -/
def stepBetween (l : Lexer) (c : Char) : Option Lexer :=
  if isSpace c then some { l with mode := .between }
  else
    match c with
    | '\x7b' => some (l.emit .openObject)
    | '\x7d' => some (l.emit .closeObject)
    | '[' => some (l.emit .openArray)
    | ']' => some (l.emit .closeArray)
    | ':' => some (l.emit .colon)
    | ',' => some (l.emit .comma)
    | '"' => some { l with mode := .string {} }
    | 'n' => some { l with mode := .word 'u' ['l', 'l'] .null }
    | 't' => some { l with mode := .word 'r' ['u', 'e'] (.bool true) }
    | 'f' => some { l with mode := .word 'a' ['l', 's', 'e'] (.bool false) }
    | '-' => some { l with mode := .number .minus true 0 }
    | '0' => some { l with mode := .number .zero false 0 }
    | c =>
      if c.isDigit then some { l with mode := .number .digits false (c.toNat - '0'.toNat) }
      else none

/-- A character of a string literal. -/
def stepString (l : Lexer) (s : PartialText) (c : Char) : Option Lexer :=
  match s.escape with
  | .none =>
    if c = '"' then some (l.emit (.text s.finish))
    else if c = '\\' then some { l with mode := .string { s with escape := .start } }
    else if c.toNat < 0x20 then none
    else some { l with mode := .string (s.push c) }
  | .start =>
    if c = 'u' then some { l with mode := .string { s with escape := .unicode 3 0 } }
    else (escaped? c).map fun d => { l with mode := .string (s.push d) }
  | .unicode left value =>
    (hexDigit? c).map fun d =>
      match left with
      | 0 => { l with mode := .string (s.pushUnit (value * 16 + d)) }
      | left + 1 =>
        { l with mode := .string { s with escape := .unicode left (value * 16 + d) } }

/-- One character. -/
def step (l : Lexer) (c : Char) : Option Lexer :=
  match l.mode with
  | .between => l.stepBetween c
  | .word next left v =>
    if c = next then
      match left with
      | [] => some (l.emit (.atom v))
      | d :: left => some { l with mode := .word d left v }
    else none
  | .number part negative value =>
    match part.next? c with
    | some next =>
      let value := if next = .digits then value * 10 + (c.toNat - '0'.toNat) else value
      some { l with mode := .number next negative value }
    | none =>
      if part.mayEnd then (l.emit (.atom (part.finish negative value))).stepBetween c else none
  | .string s => l.stepString s c

/-- The tokens of a text that ends here. -/
def finish (l : Lexer) : Option (List Token) :=
  match l.mode with
  | .between => some l.tokens.reverse
  | .number part negative value =>
    if part.mayEnd then some (l.emit (.atom (part.finish negative value))).tokens.reverse
    else none
  | _ => none

end Lexer

/-- The tokens of a text. -/
def lex (s : List Char) : Option (List Token) :=
  (s.foldlM Lexer.step {}).bind Lexer.finish

end KernelDiff.Json

import KernelDiff.Json.Basic
import KernelDiff.Text.Integer

namespace KernelDiff.Json

/-!
# Writing JSON

Two layouts of the same values: `compact` without any white space, and `pretty` with one item
or member a line and two blanks a level. Characters outside ASCII are written as they are, and
only what a string literal may not hold is escaped.
-/

/-- A hexadecimal digit in lower case. -/
def hexDigit (n : Nat) : Char := Nat.digitChar n

/-- A character inside a string literal. -/
def escapeChar (c : Char) : List Char :=
  if c = '"' then ['\\', '"']
  else if c = '\\' then ['\\', '\\']
  else if c = '\x08' then ['\\', 'b']
  else if c = '\x0c' then ['\\', 'f']
  else if c = '\n' then ['\\', 'n']
  else if c = '\r' then ['\\', 'r']
  else if c = '\t' then ['\\', 't']
  else if c.toNat < 0x20 then
    ['\\', 'u', '0', '0', hexDigit (c.toNat / 16), hexDigit (c.toNat % 16)]
  else [c]

/-- A string literal. -/
def quote (s : String) : List Char :=
  '"' :: (s.toList.flatMap escapeChar ++ ['"'])

/-- The literal of a text; one that denotes nothing is written as a lone surrogate. -/
def quoteText : JsonText → List Char
  | some s => quote s
  | none => "\"\\ud800\"".toList

/-- A value that is no array and no object. -/
def atomText : Json → List Char
  | null => "null".toList
  | bool true => "true".toList
  | bool false => "false".toList
  | integer i => Text.ofInt i
  | real => "-0".toList
  | text s => quoteText s
  | array _ => "[]".toList
  | object _ => ['\x7b', '\x7d']

mutual

/-- The layout without white space. -/
def compactChars : Json → List Char
  | array items => '[' :: (compactItems items ++ [']'])
  | object members => '\x7b' :: (compactMembers members ++ ['\x7d'])
  | v => atomText v

/-- Items with commas between them. -/
def compactItems : List Json → List Char
  | [] => []
  | [v] => compactChars v
  | v :: w :: vs => compactChars v ++ ',' :: compactItems (w :: vs)

/-- Members with commas between them. -/
def compactMembers : List (JsonText × Json) → List Char
  | [] => []
  | [(k, v)] => quoteText k ++ ':' :: compactChars v
  | (k, v) :: m :: ms => quoteText k ++ ':' :: (compactChars v ++ ',' :: compactMembers (m :: ms))

end

/-- The characters of a string literal in the pieces in which they are written: characters without
    an escape as long as there are any, and every escape for itself. -/
def quotedPieces (s : String) : List (List Char) :=
  let plain (c : Char) : Bool := escapeChar c == [c]
  (s.toList.splitBy fun c c' => plain c && plain c').map (·.flatMap escapeChar)

/-- The pieces of the literal of a text. -/
def literalPieces : JsonText → List (List Char)
  | some s => ['"'] :: (quotedPieces s ++ [['"']])
  | none => [quoteText none]

mutual

/-- The pieces in which the layout without white space is written, one after the other. -/
def compactPieces : Json → List (List Char)
  | array items => ['['] :: (itemPieces items ++ [[']']])
  | object members => ['\x7b'] :: (memberPieces members ++ [['\x7d']])
  | text s => literalPieces s
  | v => [atomText v]

/-- The pieces of items with commas between them. -/
def itemPieces : List Json → List (List Char)
  | [] => []
  | [v] => compactPieces v
  | v :: w :: vs => compactPieces v ++ [','] :: itemPieces (w :: vs)

/-- The pieces of members with commas between them. -/
def memberPieces : List (JsonText × Json) → List (List Char)
  | [] => []
  | [(k, v)] => literalPieces k ++ [':'] :: compactPieces v
  | (k, v) :: m :: ms =>
    literalPieces k ++ [':'] :: (compactPieces v ++ [','] :: memberPieces (m :: ms))

end

/-- A line break and the indentation of a level. -/
def newline (level : Nat) : List Char :=
  '\n' :: List.replicate (2 * level) ' '

mutual

/-- The layout with one item or member a line, inside a given level. -/
def prettyChars (level : Nat) : Json → List Char
  | array [] => "[]".toList
  | array (v :: vs) => '[' :: (prettyItems (level + 1) (v :: vs) ++ newline level ++ [']'])
  | object [] => ['\x7b', '\x7d']
  | object (m :: ms) =>
    '\x7b' :: (prettyMembers (level + 1) (m :: ms) ++ newline level ++ ['\x7d'])
  | v => atomText v

/-- Items on lines of their own. -/
def prettyItems (level : Nat) : List Json → List Char
  | [] => []
  | [v] => newline level ++ prettyChars level v
  | v :: w :: vs => newline level ++ prettyChars level v ++ ',' :: prettyItems level (w :: vs)

/-- Members on lines of their own. -/
def prettyMembers (level : Nat) : List (JsonText × Json) → List Char
  | [] => []
  | [(k, v)] => newline level ++ quoteText k ++ ": ".toList ++ prettyChars level v
  | (k, v) :: m :: ms =>
    newline level ++ quoteText k ++ ": ".toList ++ prettyChars level v ++
      ',' :: prettyMembers level (m :: ms)

end

/-- The text of a value without white space. -/
def compact (v : Json) : String := String.ofList (compactChars v)

/-- The text of a value on several lines. -/
def pretty (v : Json) : String := String.ofList (prettyChars 0 v)

end KernelDiff.Json

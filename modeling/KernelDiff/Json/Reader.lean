import KernelDiff.Json.Lexer

namespace KernelDiff.Json

/-!
# Reading JSON

A machine over tokens with a stack of the arrays and objects it is inside of. Nesting may be
of any depth.
-/

/-- An array or object that is not closed yet, its contents last first. -/
inductive Frame
  | array (items : List Json)
  /-- With the key whose value is being read. -/
  | object (members : List (JsonText × Json)) (key : JsonText)

/-- What may come next. -/
inductive ParseState
  /-- A value. -/
  | value (stack : List Frame)
  /-- The first item of an array, or its end. -/
  | firstItem (stack : List Frame)
  /-- The first key of an object, or its end. -/
  | firstKey (stack : List Frame)
  /-- A further key. -/
  | key (members : List (JsonText × Json)) (stack : List Frame)
  /-- The colon behind a key. -/
  | colon (members : List (JsonText × Json)) (key : JsonText) (stack : List Frame)
  /-- Behind a value: a comma or the end of what it stands in. -/
  | behind (v : Json) (stack : List Frame)

namespace ParseState

/-- A token where a value must stand. -/
def stepValue (stack : List Frame) : Token → Option ParseState
  | .atom v => some (.behind v stack)
  | .text s => some (.behind (.text s) stack)
  | .openArray => some (.firstItem stack)
  | .openObject => some (.firstKey stack)
  | _ => none

/-- One token. -/
def step : ParseState → Token → Option ParseState
  | value stack, t => stepValue stack t
  | firstItem stack, .closeArray => some (behind (.array []) stack)
  | firstItem stack, t => stepValue (.array [] :: stack) t
  | firstKey stack, .closeObject => some (behind (.object []) stack)
  | firstKey stack, .text k => some (colon [] k stack)
  | key members stack, .text k => some (colon members k stack)
  | colon members k stack, .colon => some (value (.object members k :: stack))
  | behind v (.array items :: stack), .comma => some (value (.array (v :: items) :: stack))
  | behind v (.array items :: stack), .closeArray =>
    some (behind (.array (v :: items).reverse) stack)
  | behind v (.object members k :: stack), .comma => some (key ((k, v) :: members) stack)
  | behind v (.object members k :: stack), .closeObject =>
    some (behind (.object ((k, v) :: members).reverse) stack)
  | _, _ => none

/-- The value when no token is left. -/
def finish : ParseState → Option Json
  | behind v [] => some v
  | _ => none

end ParseState

/-- The value that a list of tokens denotes. -/
def ofTokens? (ts : List Token) : Option Json :=
  (ts.foldlM ParseState.step (.value [])).bind ParseState.finish

/-- The value that a text denotes. -/
def parse? (s : String) : Option Json :=
  (lex s.toList).bind ofTokens?

end KernelDiff.Json

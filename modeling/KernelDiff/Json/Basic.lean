namespace KernelDiff

/-!
# JSON values

What a JSON text denotes, as far as the readers of this library look at it. An object keeps its
members in order and with repetitions, since a reader may have to refuse repeated ones.
-/

/-- What a string literal denotes: a text, or nothing if one of its escapes leaves half of a
    surrogate pair alone. Such a literal is well formed, but no reader takes it for a text. -/
abbrev JsonText := Option String

/-- A JSON value. -/
inductive Json
  | null
  | bool (b : Bool)
  /-- A number written without point and exponent, other than `-0`. -/
  | integer (i : Int)
  /-- Any other number. No reader of this library wants its value. -/
  | real
  | text (s : JsonText)
  | array (items : List Json)
  | object (members : List (JsonText × Json))
  deriving Inhabited

namespace Json

/-- The value that denotes a given text. -/
def string (s : String) : Json := text (some s)

/-- An object from names and values. -/
def ofMembers (members : List (String × Json)) : Json :=
  object (members.map fun (k, v) => (some k, v))

/-- The value that denotes a natural number. -/
def natural (n : Nat) : Json := integer n

/-- A text or null. -/
def stringOrNull : Option String → Json
  | some s => string s
  | none => null

end Json

end KernelDiff

import KernelDiff.Failure
import KernelDiff.Binary.Format
import KernelDiff.Text.Blank
import KernelDiff.Text.Integer

namespace KernelDiff

/-!
# Element types

The numeric types of OpenCL C: twelve scalar kinds, and for every kind but `bool` the vectors
of two, three, four, eight and sixteen lanes. A vector of three lanes is stored as one of four.

`ElementType.parse` reads a type name, and `ElementType.name` writes one.
-/

/-- The kind of one lane. -/
inductive ScalarKind
  | bool | char | uchar | short | ushort | int | uint | long | ulong | half | float | double
  deriving DecidableEq, Repr

/-- How a lane is encoded. -/
inductive Encoding
  /-- A 32-bit word, zero for false and one for true. -/
  | truth
  /-- An integer, in two's complement where it is signed. -/
  | integer (signed : Bool)
  /-- A floating-point number, read and written as one of format `shown`. -/
  | floating (stored shown : BinaryFormat)
  deriving DecidableEq, Repr

namespace ScalarKind

/-- The kinds in catalogue order. -/
def all : List ScalarKind :=
  [bool, char, uchar, short, ushort, int, uint, long, ulong, half, float, double]

/-- The name in OpenCL C. -/
def name : ScalarKind → String
  | bool => "bool"
  | char => "char"
  | uchar => "uchar"
  | short => "short"
  | ushort => "ushort"
  | int => "int"
  | uint => "uint"
  | long => "long"
  | ulong => "ulong"
  | half => "half"
  | float => "float"
  | double => "double"

/-- Spellings besides the names. -/
def aliases : List (String × ScalarKind) :=
  [("unsigned char", uchar), ("unsigned short", ushort), ("unsigned int", uint),
    ("unsigned", uint), ("unsigned long", ulong)]

/-- Every spelling with its kind. -/
def spellings : List (String × ScalarKind) :=
  all.map (fun k => (k.name, k)) ++ aliases

/-- The kind that a spelling stands for. -/
def ofSpelling? (s : String) : Option ScalarKind :=
  spellings.lookup s

/-- How a lane of this kind is encoded. -/
def encoding : ScalarKind → Encoding
  | bool => .truth
  | char | short | int | long => .integer true
  | uchar | ushort | uint | ulong => .integer false
  | half => .floating .half .single
  | float => .floating .single .single
  | double => .floating .double .double

/-- Bytes of one lane. -/
def size : ScalarKind → Nat
  | char | uchar => 1
  | short | ushort | half => 2
  | bool | int | uint | float => 4
  | long | ulong | double => 8

theorem size_pos (k : ScalarKind) : 0 < k.size := by
  cases k <;> decide

/-- Whether lanes are floating-point numbers. -/
def isFloat (k : ScalarKind) : Bool :=
  match k.encoding with
  | .floating .. => true
  | _ => false

end ScalarKind

/-- The declared number of lanes. -/
inductive Width
  | one | two | three | four | eight | sixteen
  deriving DecidableEq, Repr

namespace Width

/-- The widths in catalogue order. -/
def all : List Width := [one, two, three, four, eight, sixteen]

/-- The number itself. -/
def toNat : Width → Nat
  | one => 1
  | two => 2
  | three => 3
  | four => 4
  | eight => 8
  | sixteen => 16

/-- The width of a vector with that many lanes. -/
def ofVector? (n : Nat) : Option Width :=
  all.find? (fun w => w != one && w.toNat == n)

/-- The lanes in memory: three lanes are padded to four. -/
def stored : Width → Nat
  | three => 4
  | w => w.toNat

theorem stored_pos (w : Width) : 0 < w.stored := by
  cases w <;> decide

end Width

/-- An element type: a kind and a width, where `bool` has no vectors. -/
structure ElementType where
  kind : ScalarKind
  width : Width
  bool_scalar : kind = .bool → width = .one := by decide
  deriving DecidableEq, Repr

namespace ElementType

/-- The type with one lane. -/
def scalar (k : ScalarKind) : ElementType := ⟨k, .one, fun _ => rfl⟩

/-- The type of that kind and width, if there is one. -/
def ofWidth? (k : ScalarKind) (w : Width) : Option ElementType :=
  if h : k = .bool → w = .one then some ⟨k, w, h⟩ else none

/-- The vector type with that many lanes, if there is one. -/
def vector? (k : ScalarKind) (lanes : Nat) : Option ElementType :=
  (Width.ofVector? lanes).bind (ofWidth? k)

/-- Every element type, by kind and then by width. -/
def all : List ElementType :=
  ScalarKind.all.flatMap fun k => Width.all.filterMap (ofWidth? k)

variable (t : ElementType)

/-- Whether the type is a vector type. -/
def isVector : Bool := t.width != .one

/-- Lanes of an element in memory. -/
def lanes : Nat := t.width.stored

/-- Bytes of an element in memory. -/
def size : Nat := t.lanes * t.kind.size

theorem lanes_pos : 0 < t.lanes := t.width.stored_pos

theorem size_pos : 0 < t.size := Nat.mul_pos t.lanes_pos t.kind.size_pos

/-- The bytes of so many elements, as a machine word: a product too large for one wraps around. -/
def extent (count : Nat) : Nat := count * t.size % UInt64.size

/-- The elements that there is room for in the bytes of so many. -/
def room (count : Nat) : Nat := t.extent count / t.size

/-- The name in OpenCL C: the kind, and for a vector the declared width. -/
def name : String :=
  if t.isVector then t.kind.name ++ String.ofList (Text.ofNat t.width.toNat) else t.kind.name

/-- The type that a name without surrounding blanks stands for: a scalar spelling, or a scalar
    spelling directly followed by the number of lanes. -/
def ofName? (name : List Char) : Option ElementType :=
  match ScalarKind.ofSpelling? (String.ofList name) with
  | some k => some (scalar k)
  | none => do
    let base := (name.reverse.dropWhile Char.isDigit).reverse
    let lanes ← Text.digits? (name.reverse.takeWhile Char.isDigit).reverse
    let k ← ScalarKind.ofSpelling? (String.ofList base)
    vector? k lanes

/-- The type that a name stands for; blanks around the name do not count. -/
def parse (s : String) : Except Failure ElementType :=
  match ofName? (Text.trim s.toList) with
  | some t => .ok t
  | none => .error (.unknownType s)

end ElementType

end KernelDiff

import KernelDiff.Element

namespace KernelDiff

/-!
# Values

A value of an element type in its encoding on the device.
-/

/-- One element together with its type. -/
structure Value where
  type : ElementType
  bytes : List UInt8
  length_bytes : bytes.length = type.size
  deriving DecidableEq, Repr

namespace Value

/-- The value with every lane set to the seed. -/
def ofSeed (t : ElementType) (seed : Int64) : Value :=
  ⟨t, Element.ofSeed t seed, Element.length_ofSeed t seed⟩

/-- The value with every lane zero. -/
def zero (t : ElementType) : Value :=
  ofSeed t 0

/-- The value that a text denotes. -/
def parse (t : ElementType) (s : String) : Except Failure Value :=
  match h : Element.ofText? t s.toList with
  | some bytes => .ok ⟨t, bytes, Element.length_of_ofText? h⟩
  | none => .error (.unreadableValue s t.name)

/-- The text of a value. -/
def text (v : Value) : String :=
  String.ofList (Element.text v.type v.bytes)

/-- Values are equal when their types are and every lane is, bit for bit: a not-a-number equals
    itself, and the two zeros differ. -/
def same (a b : Value) : Bool :=
  a.type == b.type && Element.same a.type a.bytes b.bytes

end Value

end KernelDiff

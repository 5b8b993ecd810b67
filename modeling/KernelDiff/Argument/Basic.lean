import KernelDiff.Value

namespace KernelDiff

/-!
# Arguments

The value bound to a parameter of a kernel is a scalar, which is passed by value, or
work-group memory, of which only the size is known, or a buffer, which has a copy on the host
and, once it is allocated, one on the device.

Two arguments are the same when nothing that a user can observe tells them apart: see `same`.
-/

/-- A buffer: its elements on the host, and the handle of its memory on the device. -/
structure Buffer where
  type : ElementType
  host : List UInt8
  /-- The handle of its memory on the device, once there is some. -/
  memory : Option Nat := none
  /-- Whether kernels cannot write it. Such a buffer is never read back. -/
  readOnly : Bool := false
  deriving DecidableEq, Repr

namespace Buffer

/-- A buffer on the host with all lanes of `length` elements set to a seed, as far as there is
    room for them. -/
def filled (t : ElementType) (length : Nat) (seed : Int64) : Buffer where
  type := t
  host := Element.fill t seed (List.replicate (t.extent length) 0)

variable (b : Buffer)

/-- The number of whole elements. -/
def length : Nat := b.host.length / b.type.size

/-- The whole elements. -/
def elements : List (List UInt8) := Bytes.wholePieces b.type.size b.host

/-- The bytes of one element: those from where it starts to where the next one does, if these are
    places in the buffer. -/
def element? (i : Nat) : Option (List UInt8) :=
  let start := b.type.extent i
  let stop := b.type.extent (i + 1)
  if start ≤ stop ∧ stop ≤ b.host.length then
    some ((b.host.drop start).take (stop - start))
  else none

/-- The elements in brackets with commas between them. -/
def text : String :=
  String.ofList <|
    '[' :: (", ".toList.intercalate (b.elements.map (Element.text b.type)) ++ [']'])

/-- Buffers are the same when their elements are; device memory does not count. -/
def same (a b : Buffer) : Bool :=
  a.type == b.type && a.length == b.length &&
    (a.elements.zip b.elements).all fun (x, y) => Element.same a.type x y

end Buffer

/-- The value bound to a parameter. -/
inductive Argument
  | scalar (value : Value)
  /-- Work-group memory for that many elements. -/
  | scratch (type : ElementType) (length : Nat)
  | buffer (b : Buffer)
  deriving DecidableEq, Repr

namespace Argument

/-- The element type. -/
def type : Argument → ElementType
  | scalar v => v.type
  | scratch t _ => t
  | buffer b => b.type

/-- Whether the argument is work-group memory. -/
def isScratch : Argument → Bool
  | scratch .. => true
  | _ => false

/-- The size in bytes. -/
def size : Argument → Nat
  | scalar v => v.bytes.length
  | scratch t length => t.extent length
  | buffer b => b.host.length

/-- The number of elements of what is not a scalar. -/
def length? : Argument → Option Nat
  | scalar _ => none
  | scratch _ length => some length
  | buffer b => some b.length

/-- The text shown to a user. -/
def text : Argument → String
  | scalar v => v.text
  | scratch t length => "local " ++ t.name ++ "[" ++ toString length ++ "]"
  | buffer b => b.text

/-- Arguments of different kinds or types are never the same. Of work-group memory only the
    type counts, since its contents cannot be observed. -/
def same : Argument → Argument → Bool
  | scalar a, scalar b => a.same b
  | scratch a _, scratch b _ => a == b
  | buffer a, buffer b => a.same b
  | _, _ => false

end Argument

/-- The arguments of a launch, in the order of the parameters. -/
abbrev Arguments := List Argument

namespace Arguments

variable (args : Arguments)

/-- Whether any argument is work-group memory. -/
def hasScratch : Bool := args.any Argument.isScratch

/-- One line per argument, with its place. -/
def text : String :=
  String.join <| args.zipIdx.map fun (a, i) =>
    "Value[" ++ toString i ++ "] = " ++ a.text ++ "\n"

/-- Argument lists are the same when they are place by place. -/
def same (a b : Arguments) : Bool :=
  a.length == b.length && (a.zip b).all fun (x, y) => x.same y

end Arguments

end KernelDiff

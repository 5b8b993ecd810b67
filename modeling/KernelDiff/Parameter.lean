import KernelDiff.Generator
import KernelDiff.LaunchSizes

namespace KernelDiff

/-!
# Parameters

A parameter of a kernel as its device reports it: a type name in one of many spellings, an
address space and a qualifier. `Parameter.resolve` finds the element type behind the name, and
`Parameter.argument` makes a value for the parameter.
-/

/-- A parameter of a kernel. -/
structure Parameter where
  /-- Its place among the parameters. -/
  index : Nat
  /-- Its type name as reported. -/
  typeName : String
  type : ElementType
  space : AddressSpace
  isPointer : Bool
  /-- Whether it is a buffer that the kernel cannot write. -/
  isConst : Bool
  deriving DecidableEq, Repr

namespace AddressSpace

/-- The space in front of a type, as a declaration shows it. -/
def text : AddressSpace → String
  | global => "global "
  | constant => "constant "
  | workGroup => "local "
  | workItem => ""

/-- The name of the space. -/
def name : AddressSpace → String
  | global => "global"
  | constant => "constant"
  | workGroup => "local"
  | workItem => "private"

/-- The space of that name. -/
def ofName? (s : String) : Option AddressSpace :=
  [global, constant, workGroup, workItem].find? (fun a => a.name == s)

end AddressSpace

namespace Parameter

/-- Words of a type name that do not change the element type. -/
def qualifiers : List String := ["const", "restrict", "volatile", "__restrict"]

/-- The words of a type name, where a star separates words. -/
def typeWords (typeName : String) : List String :=
  (Text.words (typeName.toList.map fun c => if c = '*' then ' ' else c)).map String.ofList

/-- The parameter with that type name in that address space. A type that is no element type is
    unsupported, and so is a pointer to memory of a work item, or anything but a pointer to
    other memory. -/
def resolve (index : Nat) (typeName : String) (space : AddressSpace) :
    Except Failure Parameter :=
  let isPointer := typeName.toList.contains '*'
  let words := typeWords typeName
  let base := " ".intercalate (words.filter fun w => !qualifiers.contains w)
  match ElementType.parse base with
  | .ok type =>
    if isPointer = (space != .workItem) then
      .ok {
        index, typeName, type, space, isPointer
        isConst := space == .constant || (isPointer && words.contains "const") }
    else .error (.unsupportedArgument index typeName)
  | .error _ => .error (.unsupportedArgument index typeName)

/-- Ask for a parameter of a kernel. -/
def query (d : Device σ) (kernel index : Nat) : Session σ Parameter := do
  let typeName ← d.call (.parameterType kernel index)
  let space ← d.call (.parameterSpace kernel index)
  let qualified ← d.call (.parameterConst kernel index)
  let p ← Session.ofExcept (resolve index typeName space)
  return { p with isConst := p.isConst || (qualified && p.isPointer) }

variable (p : Parameter)

/-- Whether a caller gives a value for the parameter. -/
def takesInput : Bool := p.space != .workGroup

/-- The parameter as it would be declared. -/
def text : String :=
  p.space.text ++ p.type.name ++ if p.isPointer then "*" else ""

/-- The next value for a parameter: a buffer with one element per work item, work-group memory
    with one element per item of a group, or a scalar. -/
def argument (d : Device σ) (sizes : LaunchSizes) (g : Generator) :
    Session σ (Argument × Generator) :=
  match p.space with
  | .global | .constant => do
    let (b, g) ← g.buffer d p.type sizes.globalSize.toNat p.isConst
    return (.buffer b, g)
  | .workGroup => return (.scratch p.type sizes.localSize.toNat, g)
  | .workItem => do
    let (v?, g) := g.scalar p.type
    return (.scalar (← Session.ofExcept v?), g)

end Parameter

/-- The parameters of a kernel, in order. -/
abbrev Signature := List Parameter

namespace Signature

/-- Ask for all parameters of a kernel. -/
def query (d : Device σ) (kernel : Nat) : Session σ Signature := do
  let count ← d.call (.parameterCount kernel)
  (List.range count).mapM (Parameter.query d kernel)

/-- The number of parameters that a caller gives a value for. -/
def inputCount (s : Signature) : Nat :=
  s.countP Parameter.takesInput

/-- A value for every parameter, in order. -/
def arguments (d : Device σ) (sizes : LaunchSizes) : Signature → Generator → Session σ Arguments
  | [], _ => return []
  | p :: ps, g => do
    let (a, g) ← p.argument d sizes g
    return a :: (← arguments d sizes ps g)

end Signature

end KernelDiff

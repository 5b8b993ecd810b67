import KernelDiff.Device.Call
import KernelDiff.Json.Decode
import KernelDiff.Parameter

namespace KernelDiff.Simulator

/-!
# Scripts

The simulator does not compile OpenCL C. Its programs are JSON objects that say which kernels
there are, what a launch of each does to the buffers bound to it, and which calls fail. What an
object leaves out has a default, and what it holds besides is not looked at.
-/

/-- What a step of a kernel does to every byte of its buffer. -/
inductive Action
  /-- Becomes the constant. -/
  | set
  /-- Grows by the constant. -/
  | add
  /-- Grows by its position. -/
  | addPosition
  /-- Grows by the size of a work group. -/
  | addLocalSize
  /-- Grows by the number of work items. -/
  | addGlobalSize
  /-- Grows by the number of the launch. -/
  | addLaunch
  /-- Becomes the byte of the source in the same position. -/
  | copy
  /-- Grows by the byte of the source in the same position. -/
  | addSource
  /-- The launch fails. -/
  | fail
  /-- Nothing. -/
  | skip
  deriving DecidableEq, Repr

/-- When a step is taken: all conditions that are given must hold. -/
structure Condition where
  localSize : Option Int := none
  globalSize : Option Int := none
  launch : Option Int := none
  odd : Option Bool := none
  deriving DecidableEq, Repr

/-- One step of a kernel. -/
structure Step where
  action : Action
  /-- The parameter whose buffer changes. -/
  target : Nat
  /-- The parameter that is read. -/
  source : Nat
  constant : Int
  /-- The only byte to change, if not all. -/
  position : Option Int
  condition : Condition
  /-- The status of a launch that fails. -/
  code : Int
  deriving DecidableEq, Repr

/-- A parameter of a scripted kernel. -/
structure ParameterScript where
  typeName : String
  space : AddressSpace
  isConst : Bool
  /-- The status with which queries about it fail. -/
  error : Option Int
  deriving DecidableEq, Repr

/-- A scripted kernel. -/
structure KernelScript where
  name : String
  parameters : List ParameterScript
  groupSize : Nat
  compiledGroupSize : Nat × Nat × Nat
  createError : Option Int
  countError : Option Int
  limitsError : Option Int
  body : List Step
  deriving DecidableEq, Repr

/-- The calls that a script can let fail. -/
inductive FaultKind
  | buffer | write | read | bind | launch | timestamp
  deriving DecidableEq, Repr

/-- A call that fails: the `nth` of its kind since the build. -/
structure Fault where
  kind : FaultKind
  nth : Nat
  code : Int
  deriving DecidableEq, Repr

/-- A scripted program. -/
structure Script where
  kernels : List KernelScript := []
  /-- What the query for kernel names answers, if not the names of the kernels. -/
  names : Option String := none
  namesError : Option Int := none
  buildLog : Option String := none
  buildError : Option Int := none
  faults : List Fault := []
  /-- Whether the clock of the device runs backwards. -/
  backwards : Bool := false
  deriving DecidableEq, Repr

/-! ### Reading scripts -/

/-- The member of an object with that name. -/
def member? (v : Json) (name : String) : Option Json :=
  match v with
  | .object members => members.lookup (some name)
  | _ => none

/-- An integer member. -/
def integerMember? (v : Json) (name : String) : Option Int :=
  match member? v name with
  | some (.integer i) => some i
  | _ => none

/-- A natural-number member, by default zero. -/
def naturalMember (v : Json) (name : String) : Nat :=
  ((integerMember? v name).getD 0).toNat

/-- A text member. -/
def stringMember? (v : Json) (name : String) : Option String :=
  (member? v name).bind Json.string?

/-- A truth-value member. -/
def boolMember? (v : Json) (name : String) : Option Bool :=
  (member? v name).bind Json.bool?

/-- The items of an array member, by default none. -/
def itemsMember (v : Json) (name : String) : List Json :=
  match member? v name with
  | some (.array items) => items
  | _ => []

namespace Action

/-- The action of that name; an unknown name does nothing. -/
def ofName (s : String) : Action :=
  match s with
  | "set" => set
  | "add" => add
  | "gid" => addPosition
  | "local" => addLocalSize
  | "global" => addGlobalSize
  | "launch" => addLaunch
  | "copy" => copy
  | "addsrc" => addSource
  | "fail" => fail
  | _ => skip

end Action

/-- The step that an object describes. -/
def Step.ofJson (v : Json) : Step where
  action := .ofName ((stringMember? v "do").getD "")
  target := naturalMember v "dst"
  source := naturalMember v "src"
  constant := (integerMember? v "k").getD 0
  position := integerMember? v "at"
  condition :=
    let c := (member? v "if").getD .null
    { localSize := integerMember? c "local"
      globalSize := integerMember? c "global"
      launch := integerMember? c "launch"
      odd := boolMember? c "odd" }
  code := (integerMember? v "code").getD 0

/-- The parameter that an object describes. -/
def ParameterScript.ofJson (v : Json) : ParameterScript where
  typeName := (stringMember? v "type").getD ""
  space := ((stringMember? v "space").bind AddressSpace.ofName?).getD .workItem
  isConst := (boolMember? v "const").getD false
  error := integerMember? v "error"

/-- The kernel that an object describes. -/
def KernelScript.ofJson (v : Json) : KernelScript where
  name := (stringMember? v "name").getD ""
  parameters := (itemsMember v "args").map ParameterScript.ofJson
  groupSize := ((integerMember? v "max_wg").getD 256).toNat
  compiledGroupSize :=
    match itemsMember v "required" with
    | [.integer x, .integer y, .integer z] => (x.toNat, y.toNat, z.toNat)
    | _ => (0, 0, 0)
  createError := integerMember? v "create_error"
  countError := integerMember? v "num_args_error"
  limitsError := integerMember? v "limits_error"
  body := (itemsMember v "body").map Step.ofJson

/-- The kind of call that a fault names. -/
def FaultKind.ofName? (s : String) : Option FaultKind :=
  match s with
  | "buffer" => some buffer
  | "write" => some write
  | "read" => some read
  | "arg" => some bind
  | "launch" => some launch
  | "profile" => some timestamp
  | _ => none

/-- The fault that an object describes. -/
def Fault.ofJson? (v : Json) : Option Fault := do
  let kind ← (stringMember? v "call").bind FaultKind.ofName?
  return { kind, nth := naturalMember v "nth", code := (integerMember? v "code").getD 0 }

/-- The program that a source text describes, if it is a JSON object. -/
def Script.parse? (source : String) : Option Script :=
  match Json.parse? source with
  | some v@(.object _) => some {
      kernels := (itemsMember v "kernels").map KernelScript.ofJson
      names := stringMember? v "names"
      namesError := integerMember? v "names_error"
      buildLog := stringMember? v "build_log"
      buildError := integerMember? v "build_error"
      faults := (itemsMember v "faults").filterMap Fault.ofJson?
      backwards := (boolMember? v "backwards").getD false }
  | _ => none

end KernelDiff.Simulator

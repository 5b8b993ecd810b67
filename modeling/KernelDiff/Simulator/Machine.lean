import KernelDiff.Device.Selection
import KernelDiff.Simulator.Script
import KernelDiff.Simulator.Status

namespace KernelDiff.Simulator

/-!
# The simulated device

A device in memory that runs scripts. Its buffers hold what was written to them and what
launches made of them, its clock moves with every command, and it keeps a trace of the calls
that were made, also of those that failed.
-/

/-- A device as it is listed. -/
structure DeviceScript where
  name : Option String := none
  groupSize : Option Nat := none
  /-- The status with which no context can be opened. -/
  contextError : Option Int := none
  /-- The status with which no queue can be opened. -/
  queueError : Option Int := none
  deriving DecidableEq, Repr

/-- How many calls of each kind were made since the build. -/
structure Counts where
  buffer : Nat := 0
  write : Nat := 0
  read : Nat := 0
  bind : Nat := 0
  launch : Nat := 0
  timestamp : Nat := 0

namespace Counts

/-- The number of calls of a kind. -/
def get (c : Counts) : FaultKind → Nat
  | .buffer => c.buffer
  | .write => c.write
  | .read => c.read
  | .bind => c.bind
  | .launch => c.launch
  | .timestamp => c.timestamp

/-- One more call of a kind. -/
def next (c : Counts) : FaultKind → Counts
  | .buffer => { c with buffer := c.buffer + 1 }
  | .write => { c with write := c.write + 1 }
  | .read => { c with read := c.read + 1 }
  | .bind => { c with bind := c.bind + 1 }
  | .launch => { c with launch := c.launch + 1 }
  | .timestamp => { c with timestamp := c.timestamp + 1 }

end Counts

/-- A kernel that has been created. -/
structure KernelObject where
  script : KernelScript
  /-- What its parameters are bound to, the latest first. -/
  bindings : List (Nat × Binding) := []
  launches : Nat := 0

/-- When a command entered the queue, started and finished. -/
structure Times where
  queued : Nat
  start : Nat
  finish : Nat

/-- The state of the simulated platforms. -/
structure State where
  wording : Wording
  devices : List DeviceScript
  programs : Array Script := #[]
  faults : List Fault := []
  backwards : Bool := false
  counts : Counts := {}
  clock : Nat := 0
  buffers : Array (List UInt8) := #[]
  kernels : Array KernelObject := #[]
  events : Array Times := #[]
  trace : Array String := #[]

namespace State

variable (s : State)

/-- One more line of the trace. -/
def note (line : String) : State := { s with trace := s.trace.push line }

/-- The report on a call that failed. -/
def failure (function detail : String) (code : Int) : DeviceError :=
  let status := statusOf code
  ⟨s.wording.failedCall function detail status, some status⟩

/-- Count a call of a kind, and tell the status with which it is to fail. -/
def count (kind : FaultKind) : Option Int × State :=
  let nth := s.counts.get kind
  ((s.faults.find? fun f => f.kind == kind && f.nth == nth).map (·.code),
    { s with counts := s.counts.next kind })

/-- A command of some cost: its event, and the clock behind it. -/
def command (cost : Nat) : Nat × State :=
  let t := s.clock
  let times : Times :=
    if s.backwards then ⟨t + 100, t + 50, t⟩ else ⟨t, t + 10, t + 10 + cost⟩
  (s.events.size, { s with events := s.events.push times, clock := t + cost + 11 })

/-- A kernel's name in the detail of a report. -/
def kernelDetail (name : String) : String := "(\"" ++ name ++ "\")"

/-- The first bytes of a transfer, as the trace shows them. -/
def shownBytes (bytes : List UInt8) : String := Bytes.hex (bytes.take 64)

/-! ### Launches -/

/-- Whether a step is taken in a launch. -/
def takes (c : Condition) (globalSize localSize launch : Nat) : Bool :=
  c.localSize.all (· == (localSize : Int)) && c.globalSize.all (· == (globalSize : Int)) &&
    c.launch.all (· == (launch : Int)) && c.odd.all (· == (launch % 2 == 1))

/-- The new value of a byte. -/
def newByte (step : Step) (globalSize localSize launch : Nat) (source : Array UInt8)
    (j : Nat) (b : UInt8) : UInt8 :=
  if step.position.all (· == (j : Int)) then
    let k := UInt8.ofNat (step.constant % 256).toNat
    match step.action with
    | .set => k
    | .add => b + k
    | .addPosition => b + UInt8.ofNat j
    | .addLocalSize => b + UInt8.ofNat localSize
    | .addGlobalSize => b + UInt8.ofNat globalSize
    | .addLaunch => b + UInt8.ofNat launch
    | .copy => source[j]?.getD b
    | .addSource => b + source[j]?.getD 0
    | .fail | .skip => b
  else b

/-- The bytes of what a parameter is bound to. -/
def boundBytes (buffers : Array (List UInt8)) : Option Binding → List UInt8
  | some (.buffer h) => buffers[h]?.getD []
  | some (.bytes value) => value
  | _ => []

/-- Run the steps of a kernel on the buffers: the status of a failure, and the buffers. -/
def runBody (k : KernelObject) (globalSize localSize : Nat) :
    List Step → Array (List UInt8) → Option Int × Array (List UInt8)
  | [], buffers => (none, buffers)
  | step :: rest, buffers =>
    if takes step.condition globalSize localSize k.launches then
      if step.action = .fail then (some step.code, buffers)
      else
        match k.bindings.lookup step.target with
        | some (.buffer h) =>
          let source := (boundBytes buffers (k.bindings.lookup step.source)).toArray
          let change := newByte step globalSize localSize k.launches source
          runBody k globalSize localSize rest (buffers.modify h (·.mapIdx change))
        | _ => runBody k globalSize localSize rest buffers
    else runBody k globalSize localSize rest buffers

/-! ### Answers -/

/-- Open a context. -/
def createContext (device : Nat) : Except DeviceError Unit × State :=
  match s.devices[device]?.bind (·.contextError) with
  | some code => (.error (s.failure "clCreateContext" "" code), s)
  | none => (.ok (), s)

/-- Open a queue. -/
def createQueue (device : Nat) : Except DeviceError Unit × State :=
  let s := s.note "queue 2"
  match s.devices[device]?.bind (·.queueError) with
  | some code => (.error (s.failure "clCreateCommandQueue" "" code), s)
  | none => (.ok (), s)

/-- The largest work group of a device. -/
def deviceGroupSize (device : Nat) : Except DeviceError Nat × State :=
  match s.devices[device]?.bind (·.groupSize) with
  | some size => (.ok size, s)
  | none => (.error (s.failure "clGetDeviceInfo" "" (-5)), s)

/-- Build a program. -/
def build (source options : String) : Except DeviceError Nat × State :=
  let s := s.note ("build " ++ options)
  match Script.parse? source with
  | none => (.error ⟨s.wording.failedBuild "not a program", none⟩, s)
  | some p =>
    match p.buildError, p.buildLog with
    | some code, _ => (.error (s.failure "clBuildProgram" "" code), s)
    | none, some log => (.error ⟨s.wording.failedBuild log, none⟩, s)
    | none, none =>
      (.ok s.programs.size,
        { s with
          programs := s.programs.push p
          faults := p.faults
          backwards := p.backwards
          counts := {} })

/-- The names of a program's kernels. -/
def kernelNames (program : Nat) : Except DeviceError String × State :=
  let p := s.programs[program]?.getD {}
  match p.namesError with
  | some code => (.error (s.failure "clGetProgramInfo" "" code), s)
  | none => (.ok (p.names.getD (";".intercalate (p.kernels.map (·.name)))), s)

/-- Create a kernel. -/
def createKernel (program : Nat) (name : String) : Except DeviceError Nat × State :=
  let s := s.note ("kernel " ++ name)
  let p := s.programs[program]?.getD {}
  match p.kernels.find? (fun k => k.name == name) with
  | none => (.error (s.failure "clCreateKernel" (kernelDetail name) (-46)), s)
  | some k =>
    match k.createError with
    | some code => (.error (s.failure "clCreateKernel" (kernelDetail name) code), s)
    | none => (.ok s.kernels.size, { s with kernels := s.kernels.push { script := k } })

/-- Ask about a kernel. -/
def askKernel (kernel : Nat) (function : String) (error : KernelScript → Option Int)
    (answer : KernelScript → α) : Except DeviceError α × State :=
  match s.kernels[kernel]? with
  | none => (.error (s.failure function "" (-48)), s)
  | some k =>
    match error k.script with
    | some code => (.error (s.failure function "" code), s)
    | none => (.ok (answer k.script), s)

/-- A text as the simulator hands it out, without the blanks around it. -/
def reported (s : String) : String :=
  String.ofList (Text.trim s.toList)

/-- Ask about a parameter of a kernel. -/
def askParameter (kernel index : Nat) (answer : ParameterScript → α) :
    Except DeviceError α × State :=
  match s.kernels[kernel]?.bind (·.script.parameters[index]?) with
  | none => (.error (s.failure "clGetKernelArgInfo" "" (-49)), s)
  | some p =>
    match p.error with
    | some code => (.error (s.failure "clGetKernelArgInfo" "" code), s)
    | none => (.ok (answer p), s)

/-- What memory holds that nothing was written to: no zero, so that a read of it is noticed. -/
def unwritten : UInt8 := 0xee

/-- Allocate a buffer. A buffer that could not be allocated has a handle too. -/
def createBuffer (access : Access) (size : Nat) : Except DeviceError Nat × State :=
  let handle := s.buffers.size
  let mode := match access with
    | .readWrite => "rw"
    | .readOnly => "ro"
  let s := s.note ("buffer " ++ toString handle ++ " " ++ mode ++ " " ++ toString size)
  let s := { s with buffers := s.buffers.push (List.replicate size unwritten) }
  match s.count .buffer with
  | (some code, s) => (.error (s.failure "clCreateBuffer" "" code), s)
  | (none, s) => (.ok handle, s)

/-- Copy bytes into a buffer. -/
def write (buffer : Nat) (bytes : List UInt8) : Except DeviceError Nat × State :=
  let s := s.note <|
    "write " ++ toString buffer ++ " " ++ toString bytes.length ++ " " ++ shownBytes bytes
  match s.count .write with
  | (some code, s) => (.error (s.failure "clEnqueueWriteBuffer" "" code), s)
  | (none, s) =>
    let s := { s with buffers := s.buffers.setIfInBounds buffer bytes }
    let (event, s) := s.command bytes.length
    (.ok event, s)

/-- Copy the bytes of a buffer to the host. -/
def read (buffer size : Nat) :
    Except DeviceError ({ bytes : List UInt8 // bytes.length = size } × Nat) × State :=
  let bytes := Bytes.fit size (s.buffers[buffer]?.getD [])
  let s := s.note <|
    "read " ++ toString buffer ++ " " ++ toString size ++ " " ++ shownBytes bytes
  match s.count .read with
  | (some code, s) => (.error (s.failure "clEnqueueReadBuffer" "" code), s)
  | (none, s) =>
    let (event, s) := s.command size
    (.ok (⟨bytes, Bytes.length_fit ..⟩, event), s)

/-- Bind a parameter of a kernel. -/
def bind (kernel index : Nat) (binding : Binding) : Except DeviceError Unit × State :=
  let shown := match binding with
    | .buffer h => "buffer " ++ toString h
    | .bytes value => "bytes " ++ shownBytes value
    | .scratch size => "local " ++ toString size
  let s := s.note ("arg " ++ toString index ++ " " ++ shown)
  let name := (s.kernels[kernel]?.map (·.script.name)).getD ""
  match s.count .bind with
  | (some code, s) => (.error (s.failure "clSetKernelArg" (kernelDetail name) code), s)
  | (none, s) =>
    let add (k : KernelObject) : KernelObject :=
      { k with bindings := (index, binding) :: k.bindings.filter (·.1 != index) }
    (.ok (), { s with kernels := s.kernels.modify kernel add })

/-- Run a kernel. -/
def launch (kernel globalSize localSize : Nat) : Except DeviceError Nat × State :=
  let name := (s.kernels[kernel]?.map (·.script.name)).getD ""
  let s := s.note <|
    "launch " ++ name ++ " " ++ toString globalSize ++ " " ++ toString localSize
  let report (s : State) (code : Int) : DeviceError :=
    s.failure "clEnqueueNDRangeKernel" (kernelDetail name) code
  match s.count .launch with
  | (some code, s) => (.error (report s code), s)
  | (none, s) =>
    match s.kernels[kernel]? with
    | none => (.error (report s (-48)), s)
    | some k =>
      let more (k : KernelObject) : KernelObject := { k with launches := k.launches + 1 }
      let s := { s with kernels := s.kernels.modify kernel more }
      match runBody k globalSize localSize k.script.body s.buffers with
      | (some code, buffers) => (.error (report s code), { s with buffers })
      | (none, buffers) =>
        let (event, s) := { s with buffers }.command globalSize
        (.ok event, s)

/-- When a command entered the queue, started or finished. -/
def timestamp (event : Nat) (moment : Moment) : Except DeviceError Nat × State :=
  match s.count .timestamp with
  | (some code, s) =>
    if code = -30 then
      (.error ⟨"<unavailable (" ++ (statusOf code).name ++ ")>", none⟩, s)
    else (.error (s.failure "clGetEventProfilingInfo" "" code), s)
  | (none, s) =>
    let times := s.events[event]?.getD ⟨0, 0, 0⟩
    match moment with
    | .queued => (.ok times.queued, s)
    | .start => (.ok times.start, s)
    | .finish => (.ok times.finish, s)

/-- The answer to a call. -/
def answer : (c : Call) → State → Except DeviceError c.Answer × State
  | .createContext device, s => s.createContext device
  | .createQueue device, s => s.createQueue device
  | .deviceGroupSize device, s => s.deviceGroupSize device
  | .build source options, s => s.build source options
  | .kernelNames program, s => s.kernelNames program
  | .createKernel program name, s => s.createKernel program name
  | .parameterCount kernel, s =>
    s.askKernel kernel "clGetKernelInfo" (·.countError) (·.parameters.length)
  | .parameterType kernel index, s => s.askParameter kernel index (reported ·.typeName)
  | .parameterSpace kernel index, s => s.askParameter kernel index (·.space)
  | .parameterConst kernel index, s => s.askParameter kernel index (·.isConst)
  | .kernelGroupSize kernel, s =>
    s.askKernel kernel "clGetKernelWorkGroupInfo" (·.limitsError) (·.groupSize)
  | .compiledGroupSize kernel, s =>
    s.askKernel kernel "clGetKernelWorkGroupInfo" (·.limitsError) (·.compiledGroupSize)
  | .createBuffer access size, s => s.createBuffer access size
  | .write buffer bytes, s => s.write buffer bytes
  | .read buffer size, s => s.read buffer size
  | .bind kernel index binding, s => s.bind kernel index binding
  | .launch kernel globalSize localSize, s => s.launch kernel globalSize localSize
  | .timestamp event moment, s => s.timestamp event moment

end State

/-- The simulated platforms as a device. -/
def device : Device State where
  answer := State.answer

/-- The state in which the platforms start. -/
def start (wording : Wording) (platforms : List (List DeviceScript)) : State where
  wording
  devices := platforms.flatten

/-- The names of the devices of simulated platforms. -/
def names (platforms : List (List DeviceScript)) : Platforms :=
  platforms.map fun devices => devices.map fun d => d.name.map State.reported

/-- One platform with one device. -/
def standardPlatforms : List (List DeviceScript) :=
  [[{ name := some "Simulated CPU", groupSize := some 256 }]]

end KernelDiff.Simulator

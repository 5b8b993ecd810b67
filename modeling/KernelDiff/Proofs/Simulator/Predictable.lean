import KernelDiff.Proofs.Program.Hosting
import KernelDiff.Proofs.Simulator.Faithful

namespace KernelDiff.Simulator

/-!
# The simulator is a predictable device

A program can let any calls fail. Where it does not, only launches do, and these by the steps of
their kernel: a step that fails depends on the sizes. So the simulator without faults obeys the laws
of `Predictable` for every kernel without errors of its own.

* `calm` — the simulator where no calls are made to fail;
* `KernelScript.IsCalm`, `KernelScript.behaviour` — a kernel without errors, and what it does;
* `Site` — a program that has been built, and the states in which it has been;
* `calm_predictable` — the laws for a kernel;
* `Script.IsCalm`, `calm_serves` — the laws for a program of such kernels;
* `soloSite`, `soloBench` — a program of one kernel.
-/

namespace State

/-- The state without calls that are to fail. -/
def calm (s : State) : State := { s with faults := [] }

/-- What all calls leave alone: the words of reports, the devices and the programs that have been
    built. -/
structure Keeps (s s' : State) : Prop where
  wording : s'.wording = s.wording
  devices : s'.devices = s.devices
  programs : ∀ (n : Nat) (p : Script), s.programs[n]? = some p → s'.programs[n]? = some p

theorem keeps_of_eq {s s' : State} (hwording : s'.wording = s.wording)
    (hdevices : s'.devices = s.devices) (hprograms : s'.programs = s.programs) : s.Keeps s' :=
  ⟨hwording, hdevices, fun _ _ h => hprograms ▸ h⟩

theorem keeps_answer (c : Call) (s : State) : s.Keeps (answer c s).2 := by
  cases c with
  | createContext _ | createQueue _ | deviceGroupSize _ | kernelNames _ =>
    simp only [answer, createContext, createQueue, deviceGroupSize, kernelNames]
    split <;> exact keeps_of_eq rfl rfl rfl
  | build source options =>
    simp only [answer, build]
    split
    · exact keeps_of_eq rfl rfl rfl
    · split
      · exact keeps_of_eq rfl rfl rfl
      · exact keeps_of_eq rfl rfl rfl
      · refine ⟨rfl, rfl, fun n p h => ?_⟩
        -- A new program comes after all others.
        have hlt : n < s.programs.size := (Array.getElem?_eq_some_iff.1 h).1
        simp only [note]
        rwa [Array.getElem?_push, if_neg (by omega)]
  | createKernel _ _ | parameterCount _ | kernelGroupSize _ | compiledGroupSize _
  | parameterType _ _ | parameterSpace _ _ | parameterConst _ _ =>
    simp only [answer, createKernel, askKernel, askParameter]
    split
    · exact keeps_of_eq rfl rfl rfl
    · split <;> exact keeps_of_eq rfl rfl rfl
  | createBuffer _ _ | write _ _ | read _ _ | bind _ _ _ =>
    -- Whether the call is made to fail or not, counting it leaves all of this alone.
    simp only [answer, createBuffer, write, read, bind, count]
    split <;> next hcount =>
      obtain ⟨-, rfl⟩ := Prod.mk.inj hcount
      exact keeps_of_eq rfl rfl rfl
  | launch kernel globalSize localSize =>
    simp only [answer, launch, count]
    split
    · next hcount =>
      obtain ⟨-, rfl⟩ := Prod.mk.inj hcount
      exact keeps_of_eq rfl rfl rfl
    · next hcount =>
      obtain ⟨-, rfl⟩ := Prod.mk.inj hcount
      split
      · exact keeps_of_eq rfl rfl rfl
      · split <;> exact keeps_of_eq rfl rfl rfl
  | timestamp event moment =>
    simp only [answer, timestamp, count]
    split
    · next hcount =>
      obtain ⟨-, rfl⟩ := Prod.mk.inj hcount
      split <;> exact keeps_of_eq rfl rfl rfl
    · next hcount =>
      obtain ⟨-, rfl⟩ := Prod.mk.inj hcount
      cases moment <;> exact keeps_of_eq rfl rfl rfl

end State

/-- The simulator where no calls are made to fail. -/
def calm : Device State where
  answer c s := State.answer c s.calm

namespace KernelScript

/-- No question about the kernel is answered with an error, and its steps do the same in every
    launch. -/
def IsCalm (script : KernelScript) : Prop :=
  script.countError = none ∧ script.limitsError = none ∧
    (∀ p ∈ script.parameters, p.error = none) ∧
    ∀ step ∈ script.body, step.IsSteady script.parameters.length

instance (script : KernelScript) : Decidable script.IsCalm :=
  inferInstanceAs (Decidable (_ ∧ _ ∧ _ ∧ _))

/-- The status with which a launch fails, if one of its steps does. -/
def refusal? (script : KernelScript) (globalSize localSize : Nat) : Option Int :=
  script.body.findSome? fun step =>
    if State.takes step.condition globalSize localSize 0 ∧ step.action = .fail then some step.code
    else none

/-- What a parameter of the kernel is said to be. -/
def parameter (script : KernelScript) (index : Nat) : ParameterScript :=
  script.parameters[index]?.getD ⟨"", .workItem, false, none⟩

/-- What is reported of a launch of the kernel that fails with a status. -/
def report (script : KernelScript) (wording : Wording) (code : Int) : DeviceError :=
  ⟨wording.failedCall "clEnqueueNDRangeKernel" (State.kernelDetail script.name) (statusOf code),
    some (statusOf code)⟩

/-- The behaviour of the kernel on a device that reports in those words. -/
def behaviour (script : KernelScript) (wording : Wording) (deviceGroupSize : Nat) : Behaviour where
  parameterCount := script.parameters.length
  typeName index := State.reported (script.parameter index).typeName
  space index := (script.parameter index).space
  isConst index := (script.parameter index).isConst
  groupSize := script.groupSize
  compiledGroupSize := script.compiledGroupSize
  deviceGroupSize
  effect := script.effect
  refusal _ _ globalSize localSize :=
    (script.refusal? globalSize localSize).map (script.report wording)

end KernelScript

/-- A program that has been built on one of the devices. -/
structure Site where
  /-- The words of reports. -/
  wording : Wording
  device : Nat
  deviceGroupSize : Nat
  program : Nat
  script : Script

namespace Site

/-- The states in which it has been built. -/
structure Holds (x : Site) (s : State) : Prop where
  wording_eq : s.wording = x.wording
  groupSize : (s.devices[x.device]?.bind (·.groupSize)) = some x.deviceGroupSize
  built : s.programs[x.program]? = some x.script

theorem Holds.answer {x : Site} {s : State} (hs : x.Holds s) (c : Call) :
    x.Holds (calm.answer c s).2 := by
  have hkeeps : s.calm.Keeps (calm.answer c s).2 := State.keeps_answer c s.calm
  refine ⟨hkeeps.wording.trans hs.wording_eq, ?_, hkeeps.programs _ _ hs.built⟩
  rw [hkeeps.devices]
  exact hs.groupSize

theorem Holds.of_answer {x : Site} {s s' : State} (hs : x.Holds s) {c : Call}
    {r : Except DeviceError c.Answer} (h : calm.answer c s = (r, s')) : x.Holds s' := by
  have hafter := hs.answer c
  rwa [h] at hafter

/-- The simulator, as far as one kernel of the program is concerned. -/
def view (x : Site) (script : KernelScript) (kernel : Nat) : View State :=
  { Simulator.view script kernel with
    Valid := fun s => s.scriptOf kernel = some script ∧ x.Holds s }

end Site

/-! ### Answers without faults -/

namespace State

variable {s : State} {kernel : Nat} {script : KernelScript}

theorem askKernel_of_script {α : Type} (h : s.scriptOf kernel = some script) (function : String)
    {error : KernelScript → Option Int} (herror : error script = none)
    (answer : KernelScript → α) :
    s.askKernel kernel function error answer = (.ok (answer script), s) := by
  obtain ⟨k, hk, rfl⟩ := Option.map_eq_some_iff.1 h
  unfold askKernel
  simp only [hk, herror]

theorem askParameter_of_script {α : Type} (h : s.scriptOf kernel = some script) {index : Nat}
    (hindex : index < script.parameters.length) (herror : ∀ p ∈ script.parameters, p.error = none)
    (answer : ParameterScript → α) :
    s.askParameter kernel index answer = (.ok (answer (script.parameter index)), s) := by
  obtain ⟨k, hk, rfl⟩ := Option.map_eq_some_iff.1 h
  have hget : k.script.parameters[index]? = some k.script.parameters[index] :=
    List.getElem?_eq_getElem hindex
  have hnone := herror _ (List.getElem_mem hindex)
  unfold askParameter KernelScript.parameter
  simp only [hk, Option.bind_some, hget, hnone, Option.getD_some]

/-- Whether a step fails does not depend on what the steps before it have done. -/
theorem runBody_fst (k : KernelObject) {arity : Nat} (globalSize localSize : Nat)
    {body : List Step} (hsteady : ∀ step ∈ body, step.IsSteady arity)
    (buffers : Array (List UInt8)) :
    (runBody k globalSize localSize body buffers).1 = body.findSome? fun step =>
      if takes step.condition globalSize localSize 0 ∧ step.action = .fail then some step.code
      else none := by
  induction body generalizing buffers with
  | nil => rfl
  | cons step body ih =>
    have hrest := ih fun other hother => hsteady other (by simp [hother])
    -- A steady step is taken for all work items or for none, so the first one decides.
    rw [runBody, (hsteady step (by simp)).takes_eq, List.findSome?_cons]
    by_cases htakes : takes step.condition globalSize localSize 0
    · by_cases hfail : step.action = .fail
      · simp [htakes, hfail]
      · simp only [htakes, if_true, hfail, if_false, and_false]
        split <;> exact hrest _
    · simp only [htakes]
      exact hrest _

/-- The times of any event can be asked for. -/
theorem measures_calm (s : State) (event : Nat) : Simulator.calm.Measures s event :=
  ⟨_, _, _, _, _, _, rfl, rfl, rfl⟩

end State

/-! ### The laws -/

/-- Without faults the simulator is as faithful as it is with them. -/
theorem calm_faithful (x : Site) {script : KernelScript}
    (h : ∀ step ∈ script.body, step.IsSteady script.parameters.length) (kernel : Nat) :
    Faithful calm kernel (x.view script kernel) script.parameters.length script.effect where
  valid c s hs := ⟨(faithful kernel h).valid c s.calm hs.1, hs.2.answer c⟩
  parameterCount := fun {s _ _} hs => (faithful kernel h).parameterCount (s := s.calm) hs.1
  createBuffer := fun {s _ _ _ _} hs => (faithful kernel h).createBuffer (s := s.calm) hs.1
  write := fun {s _ _ _ _ _} hs => (faithful kernel h).write (s := s.calm) hs.1
  read := fun {s _ _ _ _ _} hs => (faithful kernel h).read (s := s.calm) hs.1
  bind := fun {s _ _ _ _} hs => (faithful kernel h).bind (s := s.calm) hs.1
  timestamp := fun {s _ _ _ _} hs => (faithful kernel h).timestamp (s := s.calm) hs.1
  launch := fun {s _ _ _ _ _} hs => (faithful kernel h).launch (s := s.calm) hs.1

/-- A launch fails with the status of the first step that does. -/
theorem launch_calm (x : Site) {script : KernelScript}
    (h : ∀ step ∈ script.body, step.IsSteady script.parameters.length) {kernel : Nat} {s : State}
    (hs : (x.view script kernel).Valid s) (globalSize localSize : Nat) :
    match script.refusal? globalSize localSize with
    | some code => ∃ s', calm.answer (.launch kernel globalSize localSize) s =
        (.error (script.report x.wording code), s')
    | none => ∃ event s',
        calm.answer (.launch kernel globalSize localSize) s = (.ok event, s') := by
  obtain ⟨k, hk, rfl⟩ := Option.map_eq_some_iff.1 hs.1
  have hlaunch : calm.answer (.launch kernel globalSize localSize) s =
      State.launch s.calm kernel globalSize localSize := rfl
  rw [hlaunch]
  have hbody : _ = k.script.refusal? globalSize localSize :=
    State.runBody_fst k globalSize localSize h s.buffers
  unfold State.launch
  -- Without faults it is up to the steps whether the launch fails.
  simp only [State.count, State.calm, State.note, List.find?_nil, Option.map_none, hk]
  generalize State.runBody k globalSize localSize k.script.body s.buffers = ran at hbody ⊢
  obtain ⟨code?, buffers⟩ := ran
  rw [← hbody]
  cases code? with
  | some code =>
    refine ⟨_, Prod.ext ?_ rfl⟩
    unfold KernelScript.report
    rw [← hs.2.wording_eq]
    rfl
  | none => exact ⟨_, _, rfl⟩

/-- **The simulator is predictable** for every kernel without errors of its own, as long as no
    calls are made to fail. -/
theorem calm_predictable (x : Site) {script : KernelScript} (h : script.IsCalm) (kernel : Nat) :
    Predictable calm x.device kernel (x.view script kernel)
      (script.behaviour x.wording x.deviceGroupSize) := by
  obtain ⟨hcount, hlimits, hparameters, hsteady⟩ := h
  exact {
    toFaithful := calm_faithful x hsteady kernel
    tells_parameterCount := fun {s} hs =>
      ⟨s.calm, State.askKernel_of_script (s := s.calm) hs.1 _ hcount (·.parameters.length)⟩
    tells_parameterType := fun {s _} hs hindex =>
      ⟨s.calm, State.askParameter_of_script (s := s.calm) hs.1 hindex hparameters
        (State.reported ·.typeName)⟩
    tells_parameterSpace := fun {s _} hs hindex =>
      ⟨s.calm, State.askParameter_of_script (s := s.calm) hs.1 hindex hparameters (·.space)⟩
    tells_parameterConst := fun {s _} hs hindex =>
      ⟨s.calm, State.askParameter_of_script (s := s.calm) hs.1 hindex hparameters (·.isConst)⟩
    tells_kernelGroupSize := fun {s} hs =>
      ⟨s.calm, State.askKernel_of_script (s := s.calm) hs.1 _ hlimits (·.groupSize)⟩
    tells_compiledGroupSize := fun {s} hs =>
      ⟨s.calm, State.askKernel_of_script (s := s.calm) hs.1 _ hlimits (·.compiledGroupSize)⟩
    tells_deviceGroupSize := fun {s} hs => by
      refine ⟨s.calm, ?_⟩
      show State.deviceGroupSize s.calm x.device = _
      unfold State.deviceGroupSize
      have hsize : (s.calm.devices[x.device]?.bind (·.groupSize)) = some x.deviceGroupSize :=
        hs.2.groupSize
      rw [hsize]
      rfl
    createBuffer_succeeds := fun _ => ⟨_, _, rfl⟩
    write_succeeds := fun _ _ _ => ⟨_, _, rfl, State.measures_calm _ _⟩
    read_succeeds := fun _ _ _ => ⟨_, _, rfl, State.measures_calm _ _⟩
    bind_succeeds := fun _ _ _ _ => ⟨_, rfl⟩
    launch_answers := fun {s _ _ globalSize localSize} hs _ => by
      have hlaunch := launch_calm x hsteady hs globalSize localSize
      simp only [KernelScript.behaviour]
      cases hrefusal : script.refusal? globalSize localSize with
      | some code =>
        simp only [hrefusal] at hlaunch
        exact hlaunch
      | none =>
        simp only [hrefusal] at hlaunch
        obtain ⟨event, s', h⟩ := hlaunch
        exact ⟨event, s', h, State.measures_calm s' event⟩ }

/-! ### Programs -/

namespace Script

/-- The names of the kernels, as they are reported. -/
def kernelNames (p : Script) : String :=
  p.names.getD (";".intercalate (p.kernels.map (·.name)))

/-- The kernel of that name. -/
def kernel? (p : Script) (name : String) : Option KernelScript :=
  p.kernels.find? fun k => k.name == name

/-- The program can be built, its kernels can be created, and all of them are calm. -/
def IsCalm (p : Script) : Prop :=
  p.buildError = none ∧ p.buildLog = none ∧ p.namesError = none ∧
    ∀ name ∈ splitNames p.kernelNames,
      ∃ k ∈ p.kernel? name, k.createError = none ∧ k.IsCalm

instance (p : Script) : Decidable p.IsCalm :=
  inferInstanceAs (Decidable (_ ∧ _ ∧ _ ∧ _))

/-- The behaviours of the kernels by their names. -/
def behaviour (p : Script) (wording : Wording) (deviceGroupSize : Nat) (name : String) :
    Behaviour :=
  ((p.kernel? name).getD ⟨name, [], 0, (0, 0, 0), none, none, none, []⟩).behaviour wording
    deviceGroupSize

end Script

/-- A program that has been built is hosted. -/
theorem calm_hosts (x : Site) (h : x.script.IsCalm) :
    Hosts calm x.device x.program x.script.kernelNames
      (x.script.behaviour x.wording x.deviceGroupSize) x.Holds where
  kernelNames_succeeds := by
    intro s hs
    obtain ⟨-, -, hnames, -⟩ := h
    have hbuilt : s.calm.programs[x.program]? = some x.script := hs.built
    have hanswer : calm.answer (.kernelNames x.program) s =
        (.ok x.script.kernelNames, s.calm) := by
      show State.kernelNames s.calm x.program = _
      unfold State.kernelNames
      simp only [hbuilt, Option.getD_some, hnames]
      rfl
    exact ⟨s.calm, hanswer, hs.of_answer hanswer⟩
  createKernel_succeeds := by
    intro s name hs hname
    obtain ⟨-, -, -, hkernels⟩ := h
    obtain ⟨script, hmem, hcreate, hcalm⟩ := hkernels name hname
    have hfind : x.script.kernels.find? (fun k => k.name == name) = some script := hmem
    have hbuilt : s.calm.programs[x.program]? = some x.script := hs.built
    have hanswer : calm.answer (.createKernel x.program name) s =
        (.ok s.kernels.size,
          { s.calm.note ("kernel " ++ name) with
            kernels := s.kernels.push { script } }) := by
      show State.createKernel s.calm x.program name = _
      unfold State.createKernel
      simp only [State.note, hbuilt, Option.getD_some, hfind, hcreate]
      rfl
    have hbehaviour : x.script.behaviour x.wording x.deviceGroupSize name =
        script.behaviour x.wording x.deviceGroupSize := by
      unfold Script.behaviour Script.kernel?
      rw [hfind, Option.getD_some]
    refine ⟨_, _, x.view script s.kernels.size, hanswer, ?_, ?_, fun _ hvalid => hvalid.2⟩
    · rw [hbehaviour]
      exact calm_predictable x hcalm s.kernels.size
    · refine ⟨?_, hs.of_answer hanswer⟩
      unfold State.scriptOf
      rw [Array.getElem?_push_size]
      rfl

/-- **The simulator serves** every source of a calm program, as long as no calls are made to
    fail. -/
theorem calm_serves {source : String} {p : Script} (hsource : Script.parse? source = some p)
    (h : p.IsCalm) (wording : Wording) (device deviceGroupSize : Nat) (options : String) :
    Serves calm device source options p.kernelNames (p.behaviour wording deviceGroupSize)
      fun s => s.wording = wording ∧
        (s.devices[device]?.bind (·.groupSize)) = some deviceGroupSize where
  build_succeeds := by
    rintro s ⟨hwording, hsize⟩
    obtain ⟨herror, hlog, -⟩ := id h
    let x : Site := ⟨wording, device, deviceGroupSize, s.programs.size, p⟩
    have hanswer : calm.answer (.build source options) s =
        (.ok s.programs.size,
          { s.calm.note ("build " ++ options) with
            programs := s.programs.push p
            faults := p.faults
            backwards := p.backwards
            counts := {} }) := by
      show State.build s.calm source options = _
      unfold State.build
      simp only [State.note, hsource, herror, hlog]
      rfl
    exact ⟨_, _, x.Holds, hanswer, ⟨hwording, hsize, Array.getElem?_push_size⟩, calm_hosts x h⟩

/-! ### One kernel -/

/-- A program of one kernel that has been built on the first of the standard platforms. -/
def soloSite (script : KernelScript) : Site :=
  ⟨.plain, 0, 256, 0, { kernels := [script] }⟩

/-- The bench on which the kernel has been created too. -/
def soloBench (script : KernelScript) : Bench State where
  device :=
    { start .plain standardPlatforms with
      programs := #[{ kernels := [script] }]
      kernels := #[{ script }] }
  profile := .empty

theorem valid_soloBench (script : KernelScript) :
    ((soloSite script).view script 0).Valid (soloBench script).device :=
  ⟨rfl, rfl, rfl, rfl⟩

end KernelDiff.Simulator

import KernelDiff.Proofs.Device.Faithful
import KernelDiff.Simulator.Machine

namespace KernelDiff.Simulator

/-!
# The simulator is a faithful device

The laws of `Faithful` are those of a real machine: the simulator obeys them for every script whose
steps do not look at the number of the launch. The effect of a launch is what the steps do to the
contents of the arguments, one after the other.

* `Step.onContents`, `KernelScript.effect` — a step, and a launch, on the contents of arguments;
* `runBody_represents` — on the buffers a launch does what it does on the contents;
* `faithful` — the laws;
* `KernelScript.localBlind` — an effect without the group size.
-/

/-! ### Scripts on contents -/

/-- The bytes that a step finds behind a parameter. -/
def contentBytes : Option Content → List UInt8
  | some (.buffer bytes) => bytes
  | some (.value bytes) => bytes
  | _ => []

namespace Step

/-- The step does the same in every launch, and names only parameters that there are. -/
def IsSteady (arity : Nat) (step : Step) : Prop :=
  step.target < arity ∧ step.source < arity ∧ step.action ≠ .addLaunch ∧
    step.condition.launch = none ∧ step.condition.odd = none

/-- The step does the same in groups of every size. -/
def IsLocalBlind (step : Step) : Prop :=
  step.action ≠ .addLocalSize ∧ step.condition.localSize = none

instance (arity : Nat) (step : Step) : Decidable (step.IsSteady arity) :=
  inferInstanceAs (Decidable (_ ∧ _))

instance (step : Step) : Decidable step.IsLocalBlind :=
  inferInstanceAs (Decidable (_ ∧ _))

/-- What a step does to the contents of the arguments. -/
def onContents (globalSize localSize : Nat) (contents : List Content) (step : Step) :
    List Content :=
  if State.takes step.condition globalSize localSize 0 then
    match contents[step.target]? with
    | some (.buffer bytes) =>
      let source := (contentBytes contents[step.source]?).toArray
      let change := State.newByte step globalSize localSize 0 source
      contents.set step.target (.buffer (bytes.mapIdx change))
    | _ => contents
  else contents

theorem onContents_of_not_takes {step : Step} {globalSize localSize : Nat}
    (h : ¬ State.takes step.condition globalSize localSize 0) (contents : List Content) :
    step.onContents globalSize localSize contents = contents := by
  unfold onContents
  rw [if_neg h]

theorem onContents_of_buffer {step : Step} {globalSize localSize : Nat} {contents : List Content}
    {bytes : List UInt8} (h : State.takes step.condition globalSize localSize 0)
    (htarget : contents[step.target]? = some (.buffer bytes)) :
    step.onContents globalSize localSize contents =
      contents.set step.target (.buffer (bytes.mapIdx (State.newByte step globalSize localSize 0
        (contentBytes contents[step.source]?).toArray))) := by
  unfold onContents
  rw [if_pos h, htarget]

/-- A step on something that is not a buffer does nothing. -/
theorem onContents_of_not_buffer {step : Step} {contents : List Content}
    (htarget : ∀ bytes, contents[step.target]? ≠ some (.buffer bytes))
    (globalSize localSize : Nat) : step.onContents globalSize localSize contents = contents := by
  unfold onContents
  split
  · split
    · next bytes heq => exact absurd heq (htarget bytes)
    · rfl
  · rfl

/-- No buffer grows or shrinks. -/
theorem length_contentBytes_onContents (globalSize localSize : Nat) (contents : List Content)
    (step : Step) (index : Nat) :
    (contentBytes (step.onContents globalSize localSize contents)[index]?).length =
      (contentBytes contents[index]?).length := by
  unfold onContents
  split
  · split
    · next bytes htarget =>
      by_cases hindex : step.target = index
      · subst hindex
        obtain ⟨hlt, -⟩ := List.getElem?_eq_some_iff.1 htarget
        rw [htarget]
        simp [List.getElem?_set_self hlt, contentBytes]
      · rw [List.getElem?_set_ne hindex]
    · rfl
  · rfl

theorem onContents_of_isLocalBlind {step : Step} (h : step.IsLocalBlind)
    (globalSize localSize localSize' : Nat) (contents : List Content) :
    step.onContents globalSize localSize contents =
      step.onContents globalSize localSize' contents := by
  obtain ⟨haction, hcondition⟩ := h
  have htakes : State.takes step.condition globalSize localSize 0 =
      State.takes step.condition globalSize localSize' 0 := by
    simp [State.takes, hcondition]
  have hbyte : State.newByte step globalSize localSize 0 =
      State.newByte step globalSize localSize' 0 := by
    funext source j b
    unfold State.newByte
    cases hstep : step.action <;> simp [hstep] at haction ⊢
  unfold onContents
  rw [htakes, hbyte]

end Step

namespace KernelScript

/-- What a launch does to the contents of the arguments. -/
def onContents (script : KernelScript) (globalSize localSize : Nat) (contents : List Content) :
    List Content :=
  script.body.foldl (fun contents step => step.onContents globalSize localSize contents) contents

/-- The effect of the kernel on its buffers. -/
def effect (script : KernelScript) : Effect := fun contents globalSize localSize index =>
  contentBytes (script.onContents globalSize localSize contents)[index]?

/-- Steps without the group size make an effect without the group size. -/
theorem localBlind {script : KernelScript} (h : ∀ step ∈ script.body, step.IsLocalBlind) :
    script.effect.LocalBlind := by
  intro contents globalSize localSize localSize' index
  have hsame : script.onContents globalSize localSize contents =
      script.onContents globalSize localSize' contents := by
    unfold onContents
    revert h contents
    induction script.body with
    | nil => exact fun _ _ => rfl
    | cons step body ih =>
      intro h contents
      rw [List.foldl_cons, List.foldl_cons,
        Step.onContents_of_isLocalBlind (h step (by simp)) globalSize localSize localSize']
      exact ih (fun step' hstep => h step' (by simp [hstep])) _
  unfold effect
  rw [hsame]

end KernelScript

/-! ### Scripts on buffers -/

/-- What a kernel is given through a binding. -/
def boundContent (buffers : Array (List UInt8)) : Option Binding → Option Content
  | some (.buffer handle) => buffers[handle]?.map .buffer
  | some (.bytes value) => some (.value value)
  | some (.scratch _) => some .scratch
  | none => none

theorem boundBytes_eq (buffers : Array (List UInt8)) (binding : Option Binding) :
    State.boundBytes buffers binding = contentBytes (boundContent buffers binding) := by
  match binding with
  | some (.buffer handle) =>
    show buffers[handle]?.getD [] = contentBytes (buffers[handle]?.map .buffer)
    cases buffers[handle]? <;> rfl
  | some (.bytes value) => rfl
  | some (.scratch size) => rfl
  | none => rfl

/-- The contents of the arguments are those behind the bindings, and no two parameters are bound
    to one buffer. -/
structure Represents (k : KernelObject) (arity : Nat) (buffers : Array (List UInt8))
    (contents : List Content) : Prop where
  length : contents.length = arity
  content : ∀ index < arity, boundContent buffers (k.bindings.lookup index) = contents[index]?
  distinct : ∀ index < arity, ∀ other < arity, ∀ handle,
    k.bindings.lookup index = some (.buffer handle) →
    k.bindings.lookup other = some (.buffer handle) → index = other

/-- A parameter that is bound to a buffer has the contents of the buffer. -/
theorem Represents.exists_of_buffer {k : KernelObject} {arity : Nat}
    {buffers : Array (List UInt8)} {contents : List Content}
    (h : Represents k arity buffers contents) {index handle : Nat} (hindex : index < arity)
    (hbound : k.bindings.lookup index = some (.buffer handle)) :
    ∃ bytes, buffers[handle]? = some bytes ∧ contents[index]? = some (.buffer bytes) := by
  have hcontent := h.content index hindex
  rw [hbound] at hcontent
  have hlt : index < contents.length := h.length ▸ hindex
  have hget : contents[index]? = some contents[index] := List.getElem?_eq_getElem hlt
  obtain ⟨bytes, hbytes, heq⟩ := Option.map_eq_some_iff.1 (hcontent.trans hget)
  exact ⟨bytes, hbytes, by rw [hget, heq]⟩

/-- A parameter with the contents of a buffer is bound to one. -/
theorem Represents.ne_buffer {k : KernelObject} {arity : Nat} {buffers : Array (List UInt8)}
    {contents : List Content} (h : Represents k arity buffers contents) {index : Nat}
    (hindex : index < arity)
    (hbound : ∀ handle, k.bindings.lookup index ≠ some (.buffer handle)) (bytes : List UInt8) :
    contents[index]? ≠ some (.buffer bytes) := by
  intro hbuffer
  have hcontent := (h.content index hindex).trans hbuffer
  cases hlookup : k.bindings.lookup index with
  | none => simp [hlookup, boundContent] at hcontent
  | some binding =>
    cases binding with
    | buffer handle => exact hbound handle hlookup
    | bytes value => simp [hlookup, boundContent] at hcontent
    | scratch size => simp [hlookup, boundContent] at hcontent

/-- A change to the buffer of one parameter is a change to its contents and to no others. -/
theorem Represents.set {k : KernelObject} {arity : Nat} {buffers : Array (List UInt8)}
    {contents : List Content} (h : Represents k arity buffers contents) {target handle : Nat}
    (htarget : target < arity) (hbound : k.bindings.lookup target = some (.buffer handle))
    {bytes : List UInt8} (hbytes : buffers[handle]? = some bytes)
    (f : List UInt8 → List UInt8) :
    Represents k arity (buffers.modify handle f) (contents.set target (.buffer (f bytes))) := by
  refine ⟨by rw [List.length_set, h.length], fun index hindex => ?_, h.distinct⟩
  by_cases hsame : target = index
  · subst hsame
    rw [List.getElem?_set_self (h.length ▸ htarget), hbound]
    simp [boundContent, Array.getElem?_modify, hbytes]
  · rw [List.getElem?_set_ne hsame, ← h.content index hindex]
    cases hother : k.bindings.lookup index with
    | none => rfl
    | some binding =>
      cases binding with
      | bytes value => rfl
      | scratch size => rfl
      | buffer other =>
        have hne : handle ≠ other := by
          rintro rfl
          exact hsame (h.distinct target htarget index hindex handle hbound hother)
        simp [boundContent, Array.getElem?_modify, hne]

/-- Steady steps take no notice of the number of the launch. -/
theorem Step.IsSteady.takes_eq {step : Step} {arity : Nat} (h : step.IsSteady arity)
    (globalSize localSize launch : Nat) :
    State.takes step.condition globalSize localSize launch =
      State.takes step.condition globalSize localSize 0 := by
  obtain ⟨-, -, -, hlaunch, hodd⟩ := h
  simp [State.takes, hlaunch, hodd]

theorem Step.IsSteady.newByte_eq {step : Step} {arity : Nat} (h : step.IsSteady arity)
    (globalSize localSize launch : Nat) (source : Array UInt8) :
    State.newByte step globalSize localSize launch source =
      State.newByte step globalSize localSize 0 source := by
  obtain ⟨-, -, haction, -, -⟩ := h
  funext j b
  unfold State.newByte
  cases hstep : step.action <;> simp [hstep] at haction ⊢

/-- A launch that succeeds does to the buffers what it does to the contents. -/
theorem runBody_represents {k : KernelObject} {arity globalSize localSize : Nat}
    {body : List Step} (hsteady : ∀ step ∈ body, step.IsSteady arity)
    {buffers buffers' : Array (List UInt8)} {contents : List Content}
    (hrep : Represents k arity buffers contents)
    (h : State.runBody k globalSize localSize body buffers = (none, buffers')) :
    Represents k arity buffers'
      (body.foldl (fun contents step => step.onContents globalSize localSize contents)
        contents) := by
  induction body generalizing buffers contents with
  | nil =>
    cases h
    exact hrep
  | cons step body ih =>
    have hstep := hsteady step (by simp)
    have htarget := hstep.1
    have hsource := hstep.2.1
    have hrest : ∀ step ∈ body, step.IsSteady arity := fun step' hmem =>
      hsteady step' (by simp [hmem])
    rw [List.foldl_cons]
    unfold State.runBody at h
    rw [hstep.takes_eq] at h
    by_cases htakes : State.takes step.condition globalSize localSize 0
    · rw [if_pos htakes] at h
      split at h
      · cases h
      -- The step reads the same bytes on both sides.
      · have hbytes := congrArg contentBytes (hrep.content step.source hsource)
        rw [← boundBytes_eq] at hbytes
        split at h
        · next handle hbound =>
          -- The target is a buffer, and its contents are those of the buffer.
          obtain ⟨bytes, hbuffer, hget⟩ := hrep.exists_of_buffer htarget hbound
          simp only at h
          rw [hstep.newByte_eq, hbytes] at h
          rw [Step.onContents_of_buffer htakes hget]
          exact ih hrest (hrep.set htarget hbound hbuffer _) h
        · next hnone =>
          rw [Step.onContents_of_not_buffer (hrep.ne_buffer htarget hnone)]
          exact ih hrest hrep h
    · rw [if_neg htakes] at h
      rw [Step.onContents_of_not_takes htakes]
      exact ih hrest hrep h

/-- No buffer grows or shrinks in a launch. -/
theorem KernelScript.length_effect (script : KernelScript) (contents : List Content)
    (globalSize localSize index : Nat) :
    (script.effect contents globalSize localSize index).length =
      (contentBytes contents[index]?).length := by
  unfold KernelScript.effect KernelScript.onContents
  induction script.body generalizing contents with
  | nil => rfl
  | cons step body ih =>
    rw [List.foldl_cons, ih, Step.length_contentBytes_onContents]

/-! ### Calls -/

namespace State

theorem kernels_of_count {s s' : State} {kind : FaultKind} {code : Option Int}
    (h : s.count kind = (code, s')) : s'.kernels = s.kernels := by
  cases h
  rfl

theorem buffers_of_count {s s' : State} {kind : FaultKind} {code : Option Int}
    (h : s.count kind = (code, s')) : s'.buffers = s.buffers := by
  cases h
  rfl

/-- The script of a kernel. -/
def scriptOf (s : State) (kernel : Nat) : Option KernelScript :=
  s.kernels[kernel]?.map (·.script)

theorem scriptOf_congr {s s' : State} (h : s'.kernels = s.kernels) (kernel : Nat) :
    s'.scriptOf kernel = s.scriptOf kernel := by
  unfold scriptOf
  rw [h]

/-- A change to a kernel that leaves its script alone leaves all scripts alone. -/
theorem scriptOf_modify {s s₁ : State} (h : s₁.kernels = s.kernels) (other kernel : Nat)
    (f : KernelObject → KernelObject) (hf : ∀ k, (f k).script = k.script) :
    (s₁.kernels.modify other f)[kernel]?.map (·.script) = s.scriptOf kernel := by
  rw [Array.getElem?_modify, h]
  unfold scriptOf
  split
  · cases s.kernels[kernel]? with
    | none => rfl
    | some k => exact congrArg some (hf k)
  · rfl

/-- A kernel keeps its script, whatever is called. -/
theorem scriptOf_answer (c : Call) {s : State} {kernel : Nat} {script : KernelScript}
    (h : s.scriptOf kernel = some script) : (answer c s).2.scriptOf kernel = some script := by
  rw [← h]
  -- Only three calls touch the kernels: one adds a kernel without moving the others, one changes
  -- bindings, and one counts launches.
  cases c with
  | createContext device =>
    simp only [answer, createContext]
    split <;> rfl
  | createQueue device =>
    simp only [answer, createQueue]
    split <;> rfl
  | deviceGroupSize device =>
    simp only [answer, deviceGroupSize]
    split <;> rfl
  | build source options =>
    simp only [answer, build]
    split
    · rfl
    · split <;> rfl
  | kernelNames program =>
    simp only [answer, kernelNames]
    split <;> rfl
  | createKernel program name =>
    simp only [answer, createKernel]
    split
    · rfl
    · split
      · rfl
      · unfold scriptOf at h ⊢
        simp only [note, Array.getElem?_push]
        split
        · next heq => simp [heq] at h
        · rfl
  | parameterCount _ | kernelGroupSize _ | compiledGroupSize _ =>
    simp only [answer, askKernel]
    split
    · rfl
    · split <;> rfl
  | parameterType _ _ | parameterSpace _ _ | parameterConst _ _ =>
    simp only [answer, askParameter]
    split
    · rfl
    · split <;> rfl
  | createBuffer access size =>
    simp only [answer, createBuffer]
    split
    · next hcount => exact scriptOf_congr (kernels_of_count hcount) kernel
    · next hcount => exact scriptOf_congr (kernels_of_count hcount) kernel
  | write buffer bytes =>
    simp only [answer, write]
    split
    · next hcount => exact scriptOf_congr (kernels_of_count hcount) kernel
    · next hcount => exact scriptOf_congr (kernels_of_count hcount) kernel
  | read buffer size =>
    simp only [answer, read]
    split
    · next hcount => exact scriptOf_congr (kernels_of_count hcount) kernel
    · next hcount => exact scriptOf_congr (kernels_of_count hcount) kernel
  | bind other index binding =>
    simp only [answer, bind]
    split
    · next hcount => exact scriptOf_congr (kernels_of_count hcount) kernel
    · next hcount =>
      exact scriptOf_modify (kernels_of_count hcount) other kernel _ fun k => rfl
  | launch other globalSize localSize =>
    simp only [answer, launch]
    split
    · next hcount => exact scriptOf_congr (kernels_of_count hcount) kernel
    · next hcount =>
      split
      · exact scriptOf_congr (kernels_of_count hcount) kernel
      · split
        · exact scriptOf_modify (kernels_of_count hcount) other kernel _ fun k => rfl
        · exact scriptOf_modify (kernels_of_count hcount) other kernel _ fun k => rfl
  | timestamp event moment =>
    simp only [answer, timestamp]
    split
    · next hcount =>
      split
      · exact scriptOf_congr (kernels_of_count hcount) kernel
      · exact scriptOf_congr (kernels_of_count hcount) kernel
    · next hcount =>
      split <;> exact scriptOf_congr (kernels_of_count hcount) kernel

/-! ### Calls that succeed -/

theorem askKernel_eq_ok {α : Type} {s s' : State} {kernel : Nat} {function : String}
    {error : KernelScript → Option Int} {f : KernelScript → α} {a : α}
    (h : s.askKernel kernel function error f = (.ok a, s')) :
    ∃ k, s.kernels[kernel]? = some k ∧ a = f k.script := by
  unfold askKernel at h
  split at h
  · cases h
  · next k hk =>
    split at h
    · cases h
    · cases h
      exact ⟨k, hk, rfl⟩

theorem createBuffer_eq_ok {s s' : State} {access : Access} {size handle : Nat}
    (h : s.createBuffer access size = (.ok handle, s')) :
    handle = s.buffers.size ∧ s'.buffers = s.buffers.push (List.replicate size unwritten) := by
  unfold createBuffer at h
  simp only at h
  split at h
  · cases h
  · next hcount =>
    cases h
    exact ⟨rfl, buffers_of_count hcount⟩

theorem write_eq_ok {s s' : State} {buffer event : Nat} {bytes : List UInt8}
    (h : s.write buffer bytes = (.ok event, s')) :
    s'.buffers = s.buffers.setIfInBounds buffer bytes := by
  unfold write at h
  simp only at h
  split at h
  · cases h
  · next hcount =>
    cases h
    exact congrArg (·.setIfInBounds buffer bytes) (buffers_of_count hcount)

theorem read_eq_ok {s s' : State} {buffer size : Nat}
    {r : { bytes : List UInt8 // bytes.length = size } × Nat}
    (h : s.read buffer size = (.ok r, s')) :
    r.1.val = Bytes.fit size (s.buffers[buffer]?.getD []) ∧ s'.buffers = s.buffers := by
  unfold read at h
  simp only at h
  split at h
  · cases h
  · next hcount =>
    have hbuffers := buffers_of_count hcount
    cases h
    exact ⟨rfl, hbuffers⟩

theorem timestamp_eq_ok {s s' : State} {event : Nat} {moment : Moment} {t : Nat}
    (h : s.timestamp event moment = (.ok t, s')) : s'.buffers = s.buffers := by
  unfold timestamp at h
  split at h
  · split at h <;> cases h
  · next hcount =>
    cases moment <;> cases h <;> exact buffers_of_count hcount

theorem bind_eq_ok {s s' : State} {kernel index : Nat} {binding : Binding}
    (h : s.bind kernel index binding = (.ok (), s')) :
    s'.buffers = s.buffers ∧
      s'.kernels[kernel]? = s.kernels[kernel]?.map fun k =>
        { k with bindings := (index, binding) :: k.bindings.filter (·.1 != index) } := by
  unfold bind at h
  simp only at h
  split at h
  · cases h
  · next hcount =>
    have hkernels := kernels_of_count hcount
    have hbuffers := buffers_of_count hcount
    cases h
    refine ⟨hbuffers, ?_⟩
    simp only [Array.getElem?_modify, hkernels, note, if_true]

/-- A launch succeeds when no step of its kernel fails. -/
theorem launch_eq_ok {s s' : State} {kernel globalSize localSize event : Nat}
    (h : s.launch kernel globalSize localSize = (.ok event, s')) :
    ∃ k, s.kernels[kernel]? = some k ∧
      runBody k globalSize localSize k.script.body s.buffers = (none, s'.buffers) := by
  unfold launch at h
  simp only at h
  split at h
  · cases h
  · next s₁ hcount =>
    have hkernels := kernels_of_count hcount
    have hbuffers := buffers_of_count hcount
    rw [hkernels, hbuffers] at h
    simp only [note] at h
    cases hk : s.kernels[kernel]? with
    | none =>
      rw [hk] at h
      cases h
    | some k =>
      simp only [hk] at h
      refine ⟨k, rfl, ?_⟩
      split at h
      · cases h
      · next buffers hbody =>
        cases h
        exact hbody

end State

/-! ### The laws -/

theorem lookup_filter_ne {bindings : List (Nat × Binding)} {index other : Nat}
    (h : other ≠ index) :
    (bindings.filter (·.1 != index)).lookup other = bindings.lookup other := by
  induction bindings with
  | nil => rfl
  | cons entry bindings ih =>
    obtain ⟨place, old⟩ := entry
    by_cases hplace : place = index
    · subst hplace
      have hne : (other == place) = false := by simpa using h
      rw [List.filter_cons_of_neg (by simp), ih, List.lookup_cons, hne]
    · rw [List.filter_cons_of_pos (by simpa using hplace), List.lookup_cons, List.lookup_cons, ih]

/-- A new entry replaces the old one. -/
theorem lookup_replace (bindings : List (Nat × Binding)) (index other : Nat)
    (binding : Binding) :
    ((index, binding) :: bindings.filter (·.1 != index)).lookup other =
      if other = index then some binding else bindings.lookup other := by
  rw [List.lookup_cons]
  by_cases h : other = index
  · simp [h]
  · have hne : (other == index) = false := by simpa using h
    rw [hne, if_neg h]
    exact lookup_filter_ne h

/-- The simulator, as far as one of its kernels is concerned. All of its memory is writable. -/
def view (script : KernelScript) (kernel : Nat) : View State where
  Valid s := s.scriptOf kernel = some script
  cell s handle := s.buffers[handle]?.map fun bytes => ⟨bytes, true⟩
  bound s index := s.kernels[kernel]?.bind fun k => k.bindings.lookup index

theorem bound_view {s : State} {kernel : Nat} {k : KernelObject}
    (hk : s.kernels[kernel]? = some k) (script : KernelScript) (index : Nat) :
    (view script kernel).bound s index = k.bindings.lookup index := by
  simp [view, hk]

/-- What a kernel is given, seen through the view, is what is behind its bindings. -/
theorem represents_of_view {s : State} {kernel arity : Nat} {k : KernelObject}
    {script : KernelScript} {contents : List Content} (hk : s.kernels[kernel]? = some k)
    (harity : contents.length = arity)
    (hcontents : ∀ index < arity, (view script kernel).content s index = contents[index]?)
    (hdistinct : ∀ index < arity, ∀ other < arity, ∀ handle,
      (view script kernel).bound s index = some (.buffer handle) →
      (view script kernel).bound s other = some (.buffer handle) → index = other) :
    Represents k arity s.buffers contents := by
  simp only [bound_view hk] at hdistinct
  refine ⟨harity, fun index hindex => ?_, hdistinct⟩
  rw [← hcontents index hindex, View.content, bound_view hk]
  cases k.bindings.lookup index with
  | none => rfl
  | some binding =>
    cases binding with
    | buffer handle => simp [boundContent, view, Function.comp_def]
    | bytes value => rfl
    | scratch size => rfl

/-- **The simulator is faithful** to every script of steady steps. -/
theorem faithful {script : KernelScript} (kernel : Nat)
    (hsteady : ∀ step ∈ script.body, step.IsSteady script.parameters.length) :
    Faithful device kernel (view script kernel) script.parameters.length script.effect where
  valid c s h := State.scriptOf_answer c h
  parameterCount := by
    intro s n s' hs h
    change s.askKernel kernel "clGetKernelInfo" (·.countError) (·.parameters.length) = _ at h
    obtain ⟨k, hk, rfl⟩ := State.askKernel_eq_ok h
    simp only [view, State.scriptOf, hk, Option.map_some, Option.some.injEq] at hs
    rw [hs]
  createBuffer := by
    intro s access size handle s' _ h
    obtain ⟨rfl, hbuffers⟩ := State.createBuffer_eq_ok h
    simp only [view, hbuffers]
    refine ⟨by simp, ⟨_, by rw [Array.getElem?_push_size, Option.map_some], ?_⟩, ?_⟩
    · exact ⟨List.length_replicate, fun _ => rfl⟩
    · intro other hother
      rw [Array.getElem?_push, if_neg hother]
  write := by
    intro s handle c bytes event s' _ hcell _ h
    have hbuffers := State.write_eq_ok h
    obtain ⟨old, hold, rfl⟩ := Option.map_eq_some_iff.1 hcell
    obtain ⟨hlt, -⟩ := Array.getElem?_eq_some_iff.1 hold
    simp only [view, hbuffers]
    constructor
    · rw [Array.getElem?_setIfInBounds_self_of_lt hlt, Option.map_some]
    · intro other hother
      rw [Array.getElem?_setIfInBounds_ne (Ne.symm hother)]
  read := by
    intro s handle c size r s' _ hcell hlength h
    obtain ⟨hbytes, hbuffers⟩ := State.read_eq_ok h
    obtain ⟨old, hold, rfl⟩ := Option.map_eq_some_iff.1 hcell
    constructor
    · rw [hbytes, hold, Option.getD_some]
      simp only at hlength
      rw [Bytes.fit, List.take_append_of_le_length (by omega), List.take_of_length_le (by omega)]
    · simp only [view, hbuffers]
  bind := by
    intro s index binding u s' hs h
    obtain ⟨hbuffers, hkernels⟩ := State.bind_eq_ok h
    refine ⟨by simp only [view, hbuffers], ?_, ?_⟩
    · obtain ⟨k, hk, -⟩ := Option.map_eq_some_iff.1 hs
      simp only [view, hkernels, hk, Option.map_some, Option.bind_some]
      rw [lookup_replace, if_pos rfl]
    · intro other hother
      obtain ⟨k, hk, -⟩ := Option.map_eq_some_iff.1 hs
      simp only [view, hkernels, hk, Option.map_some, Option.bind_some]
      rw [lookup_replace, if_neg hother]
  timestamp := by
    intro s event moment t s' _ h
    have hbuffers := State.timestamp_eq_ok h
    simp only [view, hbuffers]
  launch := by
    intro s contents globalSize localSize event s' hs harity hcontents hdistinct h index hindex
      handle c hbound hcell _
    obtain ⟨k, hk, hbody⟩ := State.launch_eq_ok h
    have hscript : k.script = script := by
      simpa [view, State.scriptOf, hk] using hs
    subst hscript
    have hrep := represents_of_view hk harity hcontents hdistinct
    have hrep' := runBody_represents hsteady hrep hbody
    rw [bound_view hk] at hbound
    -- Before the launch and after it the buffer is found behind the same binding.
    obtain ⟨old, hold, hbefore⟩ := hrep.exists_of_buffer hindex hbound
    obtain ⟨bytes, hbytes, hafter⟩ := hrep'.exists_of_buffer hindex hbound
    -- The view shows all of its memory as writable.
    obtain rfl : c = ⟨old, true⟩ := by
      simpa [view, hold] using hcell.symm
    have hlength := k.script.length_effect contents globalSize localSize index
    have heffect : k.script.effect contents globalSize localSize index = bytes :=
      congrArg contentBytes hafter
    rw [hbefore] at hlength
    refine ⟨?_, hlength⟩
    simp only [view, hbytes, Option.map_some, heffect]

end KernelDiff.Simulator

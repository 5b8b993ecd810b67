import KernelDiff.Proofs.Device.Predictable
import KernelDiff.Proofs.Execution.Failures
import KernelDiff.Proofs.Execution.Memory
import KernelDiff.Proofs.Execution.Synthesis

namespace KernelDiff

/-!
# An execution on a predictable device

On a predictable device an execution is a function of the signature, the sizes and the source of the
values: it fails where an input cannot be made or the launch is refused, and otherwise it comes to
its inputs and the effect on them. Nothing else can stop it: every phase has a lemma that says that
it goes through on what the phase before it has left.

* `Signature.prediction` — what the execution comes to;
* `Arguments.on_upload`, `Arguments.on_bind`, `Arguments.on_readOutputs` — phases that go through;
* `Arguments.Ready` — all is in place for a launch;
* `Signature.execute_eq_prediction` — the execution comes to it.
-/

variable {σ : Type} {d : Device σ} {device kernel : Nat} {v : View σ} {k : Behaviour}

/-- The bytes of work-group memory that an argument stands for. -/
def Argument.scratchSize : Argument → Nat
  | scratch t length => t.extent length
  | _ => 0

/-- What an execution comes to on a device with that behaviour. -/
def Signature.prediction (k : Behaviour) (s : Signature) (sizes : LaunchSizes)
    (source : InputSource) : Except Failure Execution :=
  match s.inputs sizes source.generator with
  | .error e => .error e
  | .ok inputs =>
    match k.refusal (inputs.map Argument.scratchSize) (inputs.map Argument.content)
        sizes.globalSize.toNat sizes.localSize.toNat with
    | some e => .error (.device e)
    | none => .ok ⟨inputs, inputs.after k.effect sizes⟩

/-! ### Making arguments -/

namespace Parameter

/-- Memory can be had, so only the input can be missing. -/
theorem input_of_argument_error (hd : Predictable d device kernel v k) {p : Parameter}
    {sizes : LaunchSizes} {g : Generator} {b b' : Bench σ} {e : Failure} (hb : v.Valid b.device)
    (h : (p.argument d sizes g).on b = (.error e, b')) : p.input sizes g = .error e := by
  rcases argument_eq_error h with hinput | ⟨host, g', access, hcontents, hcall⟩
  · exact hinput
  · obtain ⟨handle, htells⟩ :
        ∃ handle, d.Tells b.device (.createBuffer access host.length) handle :=
      hd.createBuffer_succeeds hb
    obtain ⟨b₁, hok⟩ := htells.on_call
    rw [hok] at hcall
    cases hcall

end Parameter

namespace Signature

/-- Arguments that could not be made are inputs that there are not. -/
theorem inputs_of_arguments_error (hd : Predictable d device kernel v k) {s : Signature}
    {sizes : LaunchSizes} {g : Generator} {b b' : Bench σ} {e : Failure} (hb : v.Valid b.device)
    (h : (arguments d sizes s g).on b = (.error e, b')) : inputs sizes s g = .error e := by
  induction s generalizing g b with
  | nil => cases h
  | cons p s ih =>
    rw [inputs]
    rcases Session.on_bind_eq_error.1 h with h | ⟨⟨a, g₁⟩, b₁, ha, h⟩
    · rw [Parameter.input_of_argument_error hd hb h]
    · -- This argument is the next input, and its memory leaves the view valid for the others.
      have hmakes := Parameter.makes_of_argument ha
      have hb₁ := (Parameter.allocated_of_makes hd.toFaithful hb hmakes).valid
      rw [Parameter.input_of_makes hmakes]
      rcases Session.on_bind_eq_error.1 h with h | ⟨rest, b₂, -, h⟩
      · simp only [ih hb₁ h, Except.map]
      · cases h

end Signature

/-! ### Copying to the device -/

theorem Argument.on_upload (hd : ReliableMemory d v) {a : Argument} {b : Bench σ}
    (hb : v.Valid b.device) (hbacked : a.Backed v b.device) :
    ∃ b', (a.upload d).on b = (.ok (), b') := by
  cases a with
  | scalar value => exact ⟨b, rfl⟩
  | scratch t length => exact ⟨b, rfl⟩
  | buffer buffer =>
    obtain ⟨handle, c, hmemory, hcell, hlength, -⟩ := hbacked
    obtain ⟨event, s', hanswer, hmeasures⟩ := hd.write_succeeds hb hcell hlength.symm
    have hcall : (d.call (.write handle buffer.host)).on b = (.ok event, { b with device := s' }) :=
      d.call_eq_ok.2 ⟨s', hanswer, rfl⟩
    obtain ⟨b', hrecord⟩ := Device.Measures.on_recordEvent (b := { b with device := s' }) hmeasures
      .transferIn
    exact ⟨b', Session.on_bind_eq_ok.2 ⟨handle, b, Buffer.on_handle hmemory b,
      Session.on_bind_eq_ok.2 ⟨event, _, hcall, hrecord⟩⟩⟩

/-- Arguments with memory of their own can be copied to it. -/
theorem Arguments.on_upload (hd : ReliableMemory d v) {args : Arguments}
    {b : Bench σ} (hb : v.Valid b.device) (hbacked : ∀ a ∈ args, a.Backed v b.device)
    (hseparate : args.Separate) : ∃ b', (args.upload d).on b = (.ok (), b') := by
  unfold upload
  induction args generalizing b with
  | nil => exact ⟨b, rfl⟩
  | cons a args ih =>
    obtain ⟨hhead, htail⟩ := List.pairwise_cons.1 hseparate
    have hbacked' : ∀ a ∈ args, a.Backed v b.device := fun a' ha' => hbacked a' (by simp [ha'])
    obtain ⟨b₁, ha⟩ := Argument.on_upload hd hb (hbacked a (by simp))
    have hb₁ := (Argument.loaded_of_upload hd.toFaithfulMemory hb (hbacked a (by simp)) ha).1
    -- No two arguments share their memory, so the others can still be written.
    obtain ⟨b', hargs⟩ := ih hb₁ (Argument.backed_of_upload hd.toFaithfulMemory hb
      (hbacked a (by simp)) ha hhead hbacked') htail
    exact ⟨b', Session.on_forM_cons_eq_ok.2 ⟨b₁, ha, hargs⟩⟩

/-! ### Binding -/

namespace Parameter

/-- An argument for a parameter is bound to something that the parameter takes. -/
theorem takes_of_accepts {p : Parameter} {a : Argument} {s : σ} (ha : p.Accepts a)
    (hloaded : a.Loaded v s) :
    ∃ binding, a.binding? = some binding ∧ p.Takes v s binding := by
  cases a with
  | scalar value =>
    obtain ⟨hspace, htype⟩ := ha
    exact ⟨_, rfl, hspace, htype ▸ value.length_bytes⟩
  | scratch t length =>
    exact ⟨_, rfl, ha.1⟩
  | buffer buffer =>
    obtain ⟨handle, c, hmemory, hcell, -⟩ := hloaded
    refine ⟨.buffer handle, by simp [Argument.binding?, hmemory], ha.1, ?_⟩
    simp [hcell]

end Parameter

namespace Arguments

theorem on_bind_zipIdx (hd : Predictable d device kernel v k) {args : Arguments} {n : Nat}
    {b : Bench σ} (hb : v.Valid b.device)
    (htakes : ∀ a index, (a, index) ∈ args.zipIdx n → index < k.parameterCount ∧
      ∃ p, k.parameter index = .ok p ∧
        ∃ binding, a.binding? = some binding ∧ p.Takes v b.device binding) :
    ∃ b', Session.on ((args.zipIdx n).forM fun (a, i) => a.bind d kernel i) b = (.ok (), b') := by
  induction args generalizing n b with
  | nil => exact ⟨b, rfl⟩
  | cons a args ih =>
    obtain ⟨hindex, p, hp, binding, hbinding, hbound⟩ := htakes a n (by simp [List.zipIdx_cons])
    obtain ⟨b₁, hcall⟩ := (hd.bind_succeeds hb hindex hp hbound).on_call
    have ha : (a.bind d kernel n).on b = (.ok (), b₁) := Argument.bind_of_call hbinding hcall
    obtain ⟨hb₁, hcells, -⟩ := Argument.bound_of_bind hd.toFaithful hb ha
    obtain ⟨b', hargs⟩ := ih (n := n + 1) hb₁ fun a' index hmem => by
      obtain ⟨hindex', p', hp', binding', hbinding', hbound'⟩ :=
        htakes a' index (by simp [List.zipIdx_cons, hmem])
      -- Binding changes no memory, so all buffers are still there.
      refine ⟨hindex', p', hp', binding', hbinding', ?_⟩
      cases binding' with
      | bytes value => exact hbound'
      | scratch size => exact hbound'
      | buffer handle => exact ⟨hbound'.1, hcells ▸ hbound'.2⟩
    refine ⟨b', ?_⟩
    rw [List.zipIdx_cons]
    exact Session.on_forM_cons_eq_ok.2 ⟨b₁, ha, hargs⟩

end Arguments

/-- The parameters of a signature are those of the kernel, in their places. -/
theorem Behaviour.parameter_of_signature {s : Signature} (hs : k.signature = .ok s) :
    s.length = k.parameterCount ∧ ∀ (index : Nat) (p : Parameter), s[index]? = some p →
      k.parameter index = .ok p := by
  have hread := mapM_eq_ok_iff.1 hs
  have hlength : s.length = k.parameterCount := by
    rw [← hread.length_eq, List.length_range]
  refine ⟨hlength, fun index p hp => ?_⟩
  obtain ⟨hindex, rfl⟩ := List.getElem?_eq_some_iff.1 hp
  have hrange : index < (List.range k.parameterCount).length := by
    rw [List.length_range, ← hlength]
    exact hindex
  have hat := hread.get hrange hindex
  rwa [List.get_eq_getElem, List.getElem_range] at hat

theorem Behaviour.failure_of_signature {k : Behaviour} {e : Failure}
    (h : k.signature = .error e) : ∃ index typeName, e = .unsupportedArgument index typeName := by
  obtain ⟨-, index, -, -, -, hp⟩ := mapM_eq_error_iff.1 h
  exact ⟨index, _, failure_of_parameter hp⟩

/-- Loaded arguments for the parameters of a kernel can be bound to them. -/
theorem Arguments.on_bind (hd : Predictable d device kernel v k) {s : Signature}
    (hs : k.signature = .ok s) {args : Arguments} {b : Bench σ} (hb : v.Valid b.device)
    (haccepts : List.Forall₂ Parameter.Accepts s args)
    (hloaded : ∀ a ∈ args, a.Loaded v b.device) :
    ∃ b', (args.bind d kernel).on b = (.ok (), b') := by
  obtain ⟨hlength, hparameter⟩ := Behaviour.parameter_of_signature hs
  refine Arguments.on_bind_zipIdx hd hb fun a index hmem => ?_
  have ha : args[index]? = some a := List.mem_zipIdx_iff_getElem?.1 hmem
  obtain ⟨hindex, rfl⟩ := List.getElem?_eq_some_iff.1 ha
  have hindex' : index < s.length := haccepts.length_eq ▸ hindex
  refine ⟨hlength ▸ hindex', s[index], hparameter index _ (List.getElem?_eq_getElem hindex'), ?_⟩
  exact Parameter.takes_of_accepts (haccepts.get hindex' hindex)
    (hloaded _ (List.getElem_mem _))

/-! ### Reading back -/

theorem Argument.on_readOutput (hd : ReliableMemory d v) {a : Argument}
    {bytes : List UInt8} {b : Bench σ} (hb : v.Valid b.device)
    (hmemory : ∀ buffer, a = .buffer buffer → ∃ handle, buffer.memory = some handle)
    (hholds : a.Holds v b.device bytes) : ∃ r b', (a.readOutput d).on b = (.ok r, b') := by
  cases a with
  | scalar value => exact ⟨_, b, rfl⟩
  | scratch t length => exact ⟨_, b, rfl⟩
  | buffer buffer =>
    suffices hread : ∃ r b', (buffer.readBack d).on b = (.ok r, b') by
      obtain ⟨r, b', hread⟩ := hread
      exact ⟨_, b', Session.on_map_eq_ok.2 ⟨r, hread, rfl⟩⟩
    obtain ⟨handle, hhandle⟩ := hmemory buffer rfl
    obtain ⟨t, host, memory, readOnly⟩ := buffer
    cases readOnly with
    | true => exact ⟨_, b, Session.on_bind_eq_ok.2 ⟨handle, b, Buffer.on_handle hhandle b, rfl⟩⟩
    | false =>
      obtain ⟨handle', c, hmemory', hcell, hbytes, hlength⟩ := hholds rfl
      obtain rfl : handle = handle' := Option.some.inj (hhandle.symm.trans hmemory')
      obtain ⟨answer, s', hanswer, hmeasures⟩ := hd.read_succeeds hb hcell (hbytes ▸ hlength)
      have hcall : (d.call (.read handle host.length)).on b =
          (.ok answer, { b with device := s' }) := d.call_eq_ok.2 ⟨s', hanswer, rfl⟩
      obtain ⟨b', hrecord⟩ := Device.Measures.on_recordEvent (b := { b with device := s' })
        hmeasures .transferOut
      exact ⟨_, b', Session.on_bind_eq_ok.2 ⟨handle, b, Buffer.on_handle hhandle b,
        Session.on_bind_eq_ok.2 ⟨answer, _, hcall, Session.on_bind_eq_ok.2 ⟨(), b', hrecord, rfl⟩⟩⟩⟩

/-- Arguments with memory can be read back. -/
theorem Arguments.on_readOutputs (hd : ReliableMemory d v) {args : Arguments}
    {b : Bench σ} (hb : v.Valid b.device)
    (hmemory : ∀ buffer, .buffer buffer ∈ args → ∃ handle, buffer.memory = some handle)
    (hholds : ∀ a ∈ args, ∃ bytes, a.Holds v b.device bytes) :
    ∃ outputs b', (args.readOutputs d).on b = (.ok outputs, b') := by
  unfold readOutputs
  induction args generalizing b with
  | nil => exact ⟨[], b, rfl⟩
  | cons a args ih =>
    obtain ⟨bytes, hhead⟩ := hholds a (by simp)
    obtain ⟨r, b₁, hr⟩ := Argument.on_readOutput hd hb
      (fun buffer heq => hmemory buffer (by simp [heq])) hhead
    obtain ⟨hb₁, hcells, -⟩ := Argument.written_of_readOutput hd.toFaithfulMemory hb hhead hr
    obtain ⟨outputs, b', hrest⟩ := ih hb₁ (fun buffer hmem => hmemory buffer (by simp [hmem]))
      fun a' ha' => by
        obtain ⟨bytes', hholds'⟩ := hholds a' (by simp [ha'])
        exact ⟨bytes', hholds'.congr hcells⟩
    exact ⟨r :: outputs, b', Session.on_mapM_cons_eq_ok.2 ⟨r, b₁, outputs, hr, hrest, rfl⟩⟩

/-! ### The whole execution -/

namespace Argument

@[simp] theorem content_detached (a : Argument) : a.detached.content = a.content := by
  cases a <;> rfl

@[simp] theorem scratchSize_detached (a : Argument) : a.detached.scratchSize = a.scratchSize := by
  cases a <;> rfl

@[simp] theorem written_detached (a : Argument) (bytes : List UInt8) :
    a.detached.written bytes = a.written bytes := by
  cases a <;> rfl

end Argument

namespace Arguments

/-- What an effect leaves does not depend on where memory is. -/
theorem after_detached (effect : Effect) (sizes : LaunchSizes) (args : Arguments) :
    Arguments.after effect sizes (args.map Argument.detached) = args.after effect sizes := by
  unfold after
  rw [List.zipIdx_map, List.map_map, List.map_map]
  refine List.map_congr_left fun r _ => ?_
  simp [Function.comp_def]

/-- The arguments are in their memory and bound to their places, where the launch looks for
    them. -/
structure Ready (v : View σ) (s : σ) (args : Arguments) : Prop where
  valid : v.Valid s
  loaded : ∀ a ∈ args, a.Loaded v s
  separate : args.Separate
  bound : args.Bound v s

/-- Every buffer that is ready has memory. -/
theorem Ready.memory {s : σ} {args : Arguments} (h : args.Ready v s) {buffer : Buffer}
    (hmem : .buffer buffer ∈ args) : ∃ handle, buffer.memory = some handle :=
  (h.loaded _ hmem).memory

/-- The launch finds what its answer depends on. -/
theorem Ready.staged {s : σ} {args : Arguments} (h : args.Ready v s) :
    v.Staged s args.length (args.map Argument.scratchSize) (args.map Argument.content) where
  length_scratch := List.length_map _
  length_contents := List.length_map _
  scratchSize := by
    intro index hindex
    have ha : args[index]? = some args[index] := List.getElem?_eq_getElem hindex
    have hmem : args[index].Loaded v s := h.loaded _ (List.getElem_mem hindex)
    rw [View.scratchSize, h.bound index _ ha, List.getElem?_map, ha, Option.map_some]
    cases hkind : args[index] with
    | scalar value => rfl
    | scratch t length => rfl
    | buffer buffer =>
      rw [hkind] at hmem
      obtain ⟨handle, c, hmemory, -⟩ := hmem
      simp [Argument.binding?, hmemory, Argument.scratchSize]
  content := fun index hindex => h.bound.content h.loaded hindex
  distinct := fun index hindex other hother handle => h.bound.eq_of_buffer h.separate hindex hother

end Arguments

namespace Signature

variable {s : Signature} {sizes : LaunchSizes} {source : InputSource} {args : Arguments}
variable {b b' : Bench σ}

/-- Once there are arguments, nothing keeps them from the launch. -/
theorem ready_of_arguments (hd : Predictable d device kernel v k) (hs : k.signature = .ok s)
    (hb : v.Valid b.device) {g : Generator}
    (h : (s.arguments d sizes g).on b = (.ok args, b')) :
    ∃ b₂ b₃, (args.upload d).on b' = (.ok (), b₂) ∧ (args.bind d kernel).on b₂ = (.ok (), b₃) ∧
      args.Ready v b₃.device := by
  have halloc := allocated_of_arguments hd.toFaithful hb h
  obtain ⟨b₂, hupload⟩ := Arguments.on_upload hd.reliable halloc.valid halloc.backed halloc.separate
  obtain ⟨hb₂, hloaded, -⟩ := Arguments.loaded_of_upload hd.memory halloc.valid halloc.backed
    halloc.separate hupload
  obtain ⟨b₃, hbind⟩ := Arguments.on_bind hd hs hb₂ (accepts_of_arguments h) hloaded
  obtain ⟨hb₃, hcells, hbound⟩ := Arguments.bound_of_bind hd.toFaithful hb₂ hbind
  refine ⟨b₂, b₃, hupload, hbind, hb₃, fun a ha => ?_, halloc.separate, hbound⟩
  exact (hloaded a ha).congr fun handle _ => by rw [hcells]

theorem length_of_arguments (hs : k.signature = .ok s) {g : Generator}
    (h : (s.arguments d sizes g).on b = (.ok args, b')) : args.length = k.parameterCount := by
  rw [← (accepts_of_arguments h).length_eq, (Behaviour.parameter_of_signature hs).1]

/-- A launch that is refused is the end of an execution. -/
theorem execute_of_refused (hd : Predictable d device kernel v k) (hs : k.signature = .ok s)
    (hb : v.Valid b.device)
    (h : (s.arguments d sizes source.generator).on b = (.ok args, b')) {e : DeviceError}
    (hrefusal : k.refusal (args.map Argument.scratchSize) (args.map Argument.content)
      sizes.globalSize.toNat sizes.localSize.toNat = some e) :
    ∃ b'', (s.execute d kernel sizes source).on b = (.error (.device e), b'') := by
  obtain ⟨b₂, b₃, hupload, hbind, hready⟩ := ready_of_arguments hd hs hb h
  obtain ⟨b₄, hlaunch⟩ := hd.on_launch_refused hready.valid
    (length_of_arguments hs h ▸ hready.staged) hrefusal
  refine ⟨b₄, ?_⟩
  unfold execute
  simp only [Session.on_bind, h, hupload, hbind, hlaunch]

/-- An execution whose launch is made comes to its end. -/
theorem execute_of_launched (hd : Predictable d device kernel v k) (hs : k.signature = .ok s)
    (hb : v.Valid b.device)
    (h : (s.arguments d sizes source.generator).on b = (.ok args, b'))
    (hrefusal : k.refusal (args.map Argument.scratchSize) (args.map Argument.content)
      sizes.globalSize.toNat sizes.localSize.toNat = none) :
    ∃ outputs b'', (s.execute d kernel sizes source).on b = (.ok ⟨args, outputs⟩, b'') := by
  obtain ⟨b₂, b₃, hupload, hbind, hready⟩ := ready_of_arguments hd hs hb h
  obtain ⟨event, b₄, b₅, hlaunch, hrecord⟩ := hd.on_launch_accepted hready.valid
    (length_of_arguments hs h ▸ hready.staged) hrefusal
  obtain ⟨hb₄, hholds⟩ := Arguments.holds_of_launch hd.toFaithful (length_of_arguments hs h)
    hready.valid hready.loaded hready.separate hready.bound hlaunch
  -- Asking for the times of the launch changes no memory, so all buffers still hold its effect.
  obtain ⟨hb₅, hcells⟩ := hd.memory.recordEvent hb₄ hrecord
  have hheld : ∀ a ∈ args, ∃ bytes, a.Holds v b₅.device bytes := by
    intro a ha
    obtain ⟨index, hindex, rfl⟩ := List.getElem_of_mem ha
    have hmem : (args[index], index) ∈ args.zipIdx :=
      List.mem_zipIdx_iff_getElem?.2 (List.getElem?_eq_getElem hindex)
    exact ⟨_, (hholds _ index hmem).congr hcells⟩
  obtain ⟨outputs, b₆, hread⟩ :=
    Arguments.on_readOutputs hd.reliable hb₅ (fun _ => hready.memory) hheld
  refine ⟨outputs, b₆, ?_⟩
  unfold execute
  simp only [Session.on_bind, h, hupload, hbind, hlaunch, hrecord, hread, Session.on_pure]

/-- **Executions are predictable.** Whatever was executed before, an execution comes to its
    prediction; only where its buffers are cannot be foretold. -/
theorem execute_eq_prediction (hd : Predictable d device kernel v k) (hs : k.signature = .ok s)
    (hb : v.Valid b.device) :
    ((s.execute d kernel sizes source).on b).1.map Execution.detached =
      s.prediction k sizes source := by
  unfold prediction
  rcases h : (s.arguments d sizes source.generator).on b with ⟨⟨e⟩ | ⟨args⟩, b₁⟩
  · rw [inputs_of_arguments_error hd hb h]
    unfold execute
    simp only [Session.on_bind, h, Except.map]
  · rw [inputs_of_arguments h]
    -- What the launch depends on is the same for the inputs with their memory and without it.
    simp only [List.map_map, Function.comp_def, Argument.content_detached,
      Argument.scratchSize_detached]
    cases hrefusal : k.refusal (args.map Argument.scratchSize) (args.map Argument.content)
        sizes.globalSize.toNat sizes.localSize.toNat with
    | some e =>
      obtain ⟨b₂, hexecute⟩ := execute_of_refused hd hs hb h hrefusal
      simp only [hexecute, Except.map]
    | none =>
      obtain ⟨outputs, b₂, hexecute⟩ := execute_of_launched hd hs hb h hrefusal
      have houtputs : outputs = args.after k.effect sizes := Execution.outputs_eq hd.toFaithful
        (Behaviour.parameter_of_signature hs).1 hb hexecute
      simp only [hexecute, Except.map, Execution.detached, houtputs, Arguments.after_detached]

end Signature

end KernelDiff

import KernelDiff.Proofs.Execution.Measurement
import KernelDiff.Proofs.Execution.Outputs
import KernelDiff.Proofs.Execution.Prediction
import KernelDiff.Proofs.Simulator.Predictable

namespace KernelDiff

/-!
# Reading back what was copied

Arguments that were copied to the device and not launched read as they are on the host. There are
two ways to read them, and these differ in work-group memory only: one passes over it, the other is
stopped by it. What was read stays on the host. It has no memory on the device, so a set with a
buffer in it can neither be copied nor bound again.

* `Arguments.detached_of_readOutputs` — loaded arguments read as they are on the host;
* `Arguments.readBack_eq` — one way of reading in terms of the other;
* `Arguments.on_upload_detached`, `Arguments.fst_on_bind_detached` — what can be done with a set
  without memory;
* `Arguments.returns_of_upload` — copied arguments come back both ways.
-/

variable {σ : Type} {d : Device σ} {kernel : Nat} {v : View σ}

/-! ### Loaded arguments -/

namespace Argument

/-- The bytes of a buffer on the host. -/
def host : Argument → List UInt8
  | buffer b => b.host
  | _ => []

theorem Loaded.holds {s : σ} {a : Argument} (ha : a.Loaded v s) : a.Holds v s a.host := by
  cases a with
  | scalar value => trivial
  | scratch t length => trivial
  | buffer b =>
    obtain ⟨handle, c, hmemory, hcell, hbytes, -⟩ := ha
    exact fun _ => ⟨handle, c, hmemory, hcell, hbytes, rfl⟩

/-- An argument with its own bytes in its memory reads as it is on the host. -/
theorem written_host (a : Argument) : a.written a.host = a.detached := by
  cases a with
  | scalar value => rfl
  | scratch t length => rfl
  | buffer b =>
    obtain ⟨t, host, memory, readOnly⟩ := b
    cases readOnly <;> rfl

@[simp] theorem text_detached (a : Argument) : a.detached.text = a.text := by
  cases a <;> rfl

@[simp] theorem isBuffer_detached (a : Argument) : a.detached.isBuffer = a.isBuffer := by
  cases a <;> rfl

/-- The two ways of reading differ in work-group memory only. -/
theorem readBack_of_not_isScratch {a : Argument} (h : a.isScratch = false) :
    a.readBack d = a.readOutput d := by
  cases a with
  | scalar value => rfl
  | scratch t length => cases h
  | buffer b => rfl

theorem detached_of_not_isBuffer {a : Argument} (ha : a.isBuffer = false) : a.detached = a := by
  cases a with
  | scalar value => rfl
  | scratch t length => rfl
  | buffer b => cases ha

/-- What is not a buffer can be bound as it is. -/
theorem exists_binding_of_not_isBuffer {a : Argument} (ha : a.isBuffer = false) :
    ∃ binding, a.binding? = some binding := by
  cases a with
  | scalar value => exact ⟨_, rfl⟩
  | scratch t length => exact ⟨_, rfl⟩
  | buffer b => cases ha

end Argument

namespace Arguments

variable {args : Arguments}

theorem text_detached (args : Arguments) :
    Arguments.text (args.map Argument.detached) = args.text := by
  unfold text
  rw [List.zipIdx_map, List.map_map]
  refine congrArg String.join (List.map_congr_left fun r _ => ?_)
  simp

/-- Loaded arguments read as they are on the host, and no memory has changed. -/
theorem detached_of_readOutputs (hd : FaithfulMemory d v) {outputs : Arguments} {b b' : Bench σ}
    (hb : v.Valid b.device) (hloaded : ∀ a ∈ args, a.Loaded v b.device)
    (h : (args.readOutputs d).on b = (.ok outputs, b')) :
    v.Valid b'.device ∧ v.cell b'.device = v.cell b.device ∧
      outputs = args.map Argument.detached := by
  -- The bytes are told apart by the places of the arguments, where there is one for each.
  let bytes (index : Nat) : List UInt8 := (args[index]?.map Argument.host).getD []
  have hbytes : ∀ a index, (a, index) ∈ args.zipIdx → bytes index = a.host := by
    intro a index hmem
    simp only [bytes, List.mem_zipIdx_iff_getElem?.1 hmem, Option.map_some, Option.getD_some]
  have hholds : ∀ a index, (a, index) ∈ args.zipIdx → a.Holds v b.device (bytes index) := by
    intro a index hmem
    rw [hbytes a index hmem]
    exact (hloaded a (List.fst_mem_of_mem_zipIdx hmem)).holds
  obtain ⟨hv', hcells, rfl⟩ := outputs_of_readOutputs hd hb hholds h
  refine ⟨hv', hcells, ?_⟩
  have hfst : args.zipIdx.map (Argument.detached ∘ Prod.fst) = args.map Argument.detached := by
    rw [← List.map_map, List.zipIdx_map_fst]
  rw [← hfst]
  refine List.map_congr_left fun entry hentry => ?_
  obtain ⟨a, index⟩ := entry
  simp only [hbytes a index hentry, Argument.written_host, Function.comp_apply]

/-- Loaded arguments can be read. -/
theorem on_readOutputs_of_loaded (hd : ReliableMemory d v) {b : Bench σ} (hb : v.Valid b.device)
    (hloaded : ∀ a ∈ args, a.Loaded v b.device) :
    ∃ b', (args.readOutputs d).on b = (.ok (args.map Argument.detached), b') ∧
      v.Valid b'.device ∧ v.cell b'.device = v.cell b.device := by
  obtain ⟨outputs, b', hread⟩ := on_readOutputs hd hb (fun _ hmem => (hloaded _ hmem).memory)
    fun a ha => ⟨a.host, (hloaded a ha).holds⟩
  obtain ⟨hv', hcells, rfl⟩ := detached_of_readOutputs hd.toFaithfulMemory hb hloaded hread
  exact ⟨b', hread, hv', hcells⟩

/-! ### The two ways of reading -/

/-- The arguments in front of the first work-group memory. -/
def beforeScratch (args : Arguments) : Arguments := args.takeWhile fun a => !a.isScratch

theorem beforeScratch_of_not_hasScratch (h : args.hasScratch = false) :
    args.beforeScratch = args := by
  have hall : ∀ a ∈ args, !a.isScratch := by simpa [hasScratch] using h
  have happend : List.takeWhile _ (args ++ []) = args ++ List.takeWhile _ [] :=
    List.takeWhile_append_of_pos hall
  rwa [List.takeWhile_nil, List.append_nil] at happend

/-- One way of reading passes over work-group memory, and the other is stopped by it, once it has
    read what is in front of it. -/
theorem readBack_eq (args : Arguments) :
    args.readBack d = args.beforeScratch.readOutputs d >>= fun copies =>
      if args.hasScratch then throw .scratchNotReadable else pure copies := by
  unfold readBack readOutputs beforeScratch hasScratch
  induction args with
  | nil => rfl
  | cons a args ih =>
    cases ha : a.isScratch with
    | true =>
      cases a with
      | scalar value => cases ha
      | scratch t length => rfl
      | buffer b => cases ha
    | false =>
      -- Both ways read the argument first; what stops one of them comes behind it.
      rw [List.takeWhile_cons_of_pos (by rw [ha]; rfl), List.any_cons, ha, Bool.false_or,
        List.mapM_cons, List.mapM_cons, ih, Argument.readBack_of_not_isScratch ha]
      simp only [bind_assoc, pure_bind]
      cases args.any Argument.isScratch <;> rfl

theorem mem_of_mem_beforeScratch {a : Argument} (h : a ∈ args.beforeScratch) : a ∈ args :=
  List.takeWhile_subset _ h

/-! ### Arguments without memory -/

/-- The kernel takes all values and all work-group memory of the set in their places, whatever
    state the device is in. -/
def Taken (d : Device σ) (v : View σ) (kernel : Nat) (args : Arguments) : Prop :=
  ∀ (index : Nat) (a : Argument) (binding : Binding) (s : σ), args[index]? = some a →
    a.isBuffer = false → a.binding? = some binding → v.Valid s →
    d.Tells s (.bind kernel index binding) ()

/-- What it comes to when a set without memory is to be used on the device. -/
def detachedResult (args : Arguments) : Except Failure Unit :=
  if args.any Argument.isBuffer then .error .detachedBuffer else .ok ()

/-- Without memory a set with a buffer in it cannot be copied; the device is not asked. -/
theorem on_upload_detached (args : Arguments) (b : Bench σ) :
    (Arguments.upload d (args.map Argument.detached)).on b = (args.detachedResult, b) := by
  unfold upload detachedResult
  induction args with
  | nil => rfl
  | cons a args ih =>
    cases a with
    | scalar value => exact ih
    | scratch t length => exact ih
    | buffer buffer => rfl

theorem fst_on_bind_detached_zipIdx (hd : FaithfulMemory d v) {n : Nat} {b : Bench σ}
    (hb : v.Valid b.device)
    (htaken : ∀ a index, (a, index) ∈ args.zipIdx n → ∀ binding s, a.isBuffer = false →
      a.binding? = some binding → v.Valid s → d.Tells s (.bind kernel index binding) ()) :
    (Session.on (((args.map Argument.detached).zipIdx n).forM fun (a, i) => a.bind d kernel i)
      b).1 = args.detachedResult := by
  induction args generalizing n b with
  | nil => rfl
  | cons a args ih =>
    rw [List.map_cons, List.zipIdx_cons]
    show (Session.on (a.detached.bind d kernel n >>= fun _ =>
      ((args.map Argument.detached).zipIdx (n + 1)).forM fun (a, i) => a.bind d kernel i) b).1 = _
    cases ha : a.isBuffer with
    | true =>
      cases a with
      | scalar value => cases ha
      | scratch t length => cases ha
      | buffer buffer => rfl
    | false =>
      -- What is not a buffer is taken, so the rest of the set decides.
      obtain ⟨binding, hbinding⟩ := Argument.exists_binding_of_not_isBuffer ha
      obtain ⟨b₁, hcall⟩ :=
        (htaken a n (by simp [List.zipIdx_cons]) binding b.device ha hbinding hb).on_call
      rw [Argument.detached_of_not_isBuffer ha, Session.on_bind,
        Argument.bind_of_call hbinding hcall]
      have hrest := ih (n := n + 1) (hd.valid_call hb hcall) fun a' index hmem =>
        htaken a' index (by simp [List.zipIdx_cons, hmem])
      rw [detachedResult, List.any_cons, ha, Bool.false_or]
      exact hrest

/-- Without memory a set with a buffer in it cannot be bound. -/
theorem fst_on_bind_detached (hd : FaithfulMemory d v) (htaken : args.Taken d v kernel)
    {b : Bench σ} (hb : v.Valid b.device) :
    ((Arguments.bind d (args.map Argument.detached) kernel).on b).1 = args.detachedResult :=
  fst_on_bind_detached_zipIdx hd hb fun a index hmem binding s ha hbinding hs =>
    htaken index a binding s (List.mem_zipIdx_iff_getElem?.1 hmem) ha hbinding hs

/-! ### The round trip -/

/-- Every buffer of the set has memory of its size that is its own, as memory that was allocated for
    a buffer is. -/
structure Mirrored (v : View σ) (s : σ) (args : Arguments) : Prop where
  backed : ∀ a ∈ args, a.Backed v s
  separate : args.Separate

/-- From one bench to another a set has been read from the device, and the copy is as good as the
    set to a user, but is of no use on the device. -/
structure Returned (d : Device σ) (v : View σ) (kernel : Nat) (args : Arguments) (b : Bench σ)
    (copy : Arguments) (b' : Bench σ) : Prop where
  eq_detached : copy = args.map Argument.detached
  same : copy.same args
  text_eq : copy.text = args.text
  valid : v.Valid b'.device
  /-- Nothing has happened to the original. -/
  cell_eq : v.cell b'.device = v.cell b.device
  /-- Every buffer that kernels can write has been measured. -/
  tally_eq : b'.profile.tally =
    b.profile.tally + Pi.single .transferOut (args.countP Argument.isReturned)
  upload_eq : ∀ c : Bench σ, (copy.upload d).on c = (copy.detachedResult, c)
  bind_eq : ∀ c : Bench σ, v.Valid c.device →
    ((copy.bind d kernel).on c).1 = copy.detachedResult

theorem detachedResult_detached (args : Arguments) :
    detachedResult (args.map Argument.detached) = args.detachedResult := by
  unfold detachedResult
  rw [List.any_map]
  simp only [Function.comp_def, Argument.isBuffer_detached]

/-- Loaded arguments come back as a copy. -/
theorem returned_of_loaded (hd : ReliableMemory d v) (htaken : args.Taken d v kernel)
    {b : Bench σ} (hb : v.Valid b.device) (hloaded : ∀ a ∈ args, a.Loaded v b.device) :
    ∃ copy b', (args.readOutputs d).on b = (.ok copy, b') ∧
      Returned d v kernel args b copy b' := by
  obtain ⟨b', hread, hv', hcells⟩ := on_readOutputs_of_loaded hd hb hloaded
  refine ⟨_, b', hread, ?_⟩
  exact
    { eq_detached := rfl
      same := same_iff.2 (observations_detached args)
      text_eq := text_detached args
      valid := hv'
      cell_eq := hcells
      tally_eq := (adds_readOutputs args).tally_eq hread
      upload_eq := fun c => by rw [on_upload_detached, detachedResult_detached]
      bind_eq := fun c hc => by
        rw [fst_on_bind_detached hd.toFaithfulMemory htaken hc, detachedResult_detached] }

/-- **Copied arguments come back both ways.** Let every buffer of a set have memory of its own, on a
    device that can be trusted with it and lets no transfer fail. Then the set can be copied to the
    device. As long as nothing else is written to its memory, it reads as a copy of the set. The
    way of reading that is stopped by work-group memory does the same where there is none, and fails
    otherwise, when it has read what is in front of it. What was read holds no device memory: it can
    be copied or bound just if there is no buffer in it. -/
theorem returns_of_upload (hd : ReliableMemory d v) {b : Bench σ} (hb : v.Valid b.device)
    (hmirrored : args.Mirrored v b.device) (htaken : args.Taken d v kernel) :
    ∃ b₁, (args.upload d).on b = (.ok (), b₁) ∧ v.Valid b₁.device ∧
      b₁.profile.tally = b.profile.tally + Pi.single .transferIn (args.countP Argument.isBuffer) ∧
      ∀ c : Bench σ, v.Valid c.device →
        (∀ a ∈ args, ∀ handle, a.handle? = some handle →
          v.cell c.device handle = v.cell b₁.device handle) →
        (∃ outputs c', (args.readOutputs d).on c = (.ok outputs, c') ∧
          Returned d v kernel args c outputs c') ∧
        (args.hasScratch = false → ∃ copy c', (args.readBack d).on c = (.ok copy, c') ∧
          Returned d v kernel args c copy c') ∧
        (args.hasScratch = true → ∃ c',
          (args.readBack d).on c = (.error .scratchNotReadable, c') ∧
          v.Valid c'.device ∧ v.cell c'.device = v.cell c.device ∧
          c'.profile.tally = c.profile.tally +
            Pi.single .transferOut (args.beforeScratch.countP Argument.isReturned)) := by
  obtain ⟨b₁, hupload⟩ := on_upload hd hb hmirrored.backed hmirrored.separate
  obtain ⟨hb₁, hloaded₁, -⟩ := loaded_of_upload hd.toFaithfulMemory hb hmirrored.backed
    hmirrored.separate hupload
  refine ⟨b₁, hupload, hb₁, (adds_upload args).tally_eq hupload, fun c hc hkept => ?_⟩
  -- Only the memory of the set itself counts, and it is as the copying has left it.
  have hloaded : ∀ a ∈ args, a.Loaded v c.device :=
    fun a ha => (hloaded₁ a ha).congr (hkept a ha)
  refine ⟨returned_of_loaded hd htaken hc hloaded, fun hscratch => ?_, fun hscratch => ?_⟩
  · -- With nothing to pass over, there is no difference.
    rw [readBack_eq, beforeScratch_of_not_hasScratch hscratch, hscratch]
    simp only [Bool.false_eq_true, if_false, bind_pure]
    exact returned_of_loaded hd htaken hc hloaded
  · obtain ⟨c', hread, hc', hcells⟩ := on_readOutputs_of_loaded hd hc fun a ha =>
      hloaded a (mem_of_mem_beforeScratch ha)
    refine ⟨c', ?_, hc', hcells, (adds_readOutputs _).tally_eq hread⟩
    rw [readBack_eq, Session.on_bind, hread, hscratch]
    rfl

/-- A value, work-group memory between two buffers, and only the first of these can be written. -/
def mixedArguments : Arguments :=
  [.scalar (.ofSeed (.scalar .int) 3),
    .buffer
      { type := { kind := .short, width := .two }
        host := [1, 0, 2, 0, 3, 0, 4, 0]
        memory := some 1 },
    .scratch (.scalar .float) 4,
    .buffer { type := .scalar .uchar, host := [7, 8, 9], memory := some 0, readOnly := true }]

def idleScript : Simulator.KernelScript :=
  { name := "k", parameters := [], groupSize := 256, compiledGroupSize := (0, 0, 0)
    createError := none, countError := none, limitsError := none, body := [] }

/-- A bench with memory for the buffers, which holds something else. -/
def mixedBench : Bench Simulator.State where
  device :=
    { (Simulator.soloBench idleScript).device with
      buffers := #[List.replicate 3 0xcd, List.replicate 8 0xcd] }
  profile := .empty

theorem returns_of_upload_mixed :
    ∃ b outputs b' b'', (mixedArguments.upload Simulator.calm).on mixedBench = (.ok (), b) ∧
      (mixedArguments.readOutputs Simulator.calm).on b = (.ok outputs, b') ∧
      outputs.same mixedArguments ∧
      (outputs.upload Simulator.calm).on b' = (.error .detachedBuffer, b') ∧
      (mixedArguments.readBack Simulator.calm).on b' = (.error .scratchNotReadable, b'') ∧
      b''.profile.tally = Pi.single .transferIn 2 + Pi.single .transferOut 2 := by
  let x := Simulator.soloSite idleScript
  have hreliable : ReliableMemory Simulator.calm (x.view idleScript 0) :=
    (Simulator.calm_predictable x (by decide) 0).reliable
  have hvalid : (x.view idleScript 0).Valid mixedBench.device := ⟨rfl, rfl, rfl, rfl⟩
  have hmirrored : mixedArguments.Mirrored (x.view idleScript 0) mixedBench.device := by
    refine ⟨?_, by simp [mixedArguments, Separate, Argument.handle?]⟩
    simp only [mixedArguments, List.forall_mem_cons]
    refine ⟨trivial, ⟨1, _, rfl, rfl, rfl, fun _ => rfl⟩, trivial,
      ⟨0, _, rfl, rfl, rfl, fun _ => rfl⟩, by simp⟩
  have htaken : mixedArguments.Taken Simulator.calm (x.view idleScript 0) 0 :=
    fun _ _ _ _ _ _ _ _ => ⟨_, rfl⟩
  obtain ⟨b, hupload, hb, htally, hreads⟩ := returns_of_upload hreliable hvalid hmirrored htaken
  obtain ⟨⟨outputs, b', hread, hcopy⟩, -, -⟩ := hreads b hb fun _ _ _ _ => rfl
  obtain ⟨-, -, hstopped⟩ := hreads b' hcopy.valid fun _ _ handle _ => congrFun hcopy.cell_eq handle
  obtain ⟨b'', hreadBack, -, -, htally'⟩ := hstopped (by decide)
  have hbuffers : outputs.detachedResult = .error .detachedBuffer := by
    rw [hcopy.eq_detached]
    rfl
  refine ⟨b, outputs, b', b'', hupload, hread, hcopy.same, ?_, hreadBack, ?_⟩
  · rw [hcopy.upload_eq, hbuffers]
  · have hin : mixedArguments.countP Argument.isBuffer = 2 := rfl
    have hout : mixedArguments.countP Argument.isReturned = 1 := rfl
    have hbefore : mixedArguments.beforeScratch.countP Argument.isReturned = 1 := rfl
    have hempty : mixedBench.profile.tally = 0 := Profile.tally_empty
    rw [htally', hcopy.tally_eq, htally, hin, hout, hbefore, hempty, zero_add, add_assoc,
      ← Pi.single_add]

end Arguments

end KernelDiff

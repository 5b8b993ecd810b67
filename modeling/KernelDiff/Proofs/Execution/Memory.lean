import KernelDiff.Proofs.Device.Faithful
import KernelDiff.Proofs.Execution.Inputs

namespace KernelDiff

/-!
# An execution on a faithful device

On a faithful device the outputs of an execution are its inputs with the effect of the launch in
the place of every writable buffer: a function of the inputs and the sizes, whatever was executed
before. Each phase of an execution has a lemma that says what it does to the memory of the
arguments and that it leaves all other memory alone.

* `Signature.allocated_of_arguments` — new arguments have memory of their own;
* `Arguments.loaded_of_upload` — copied arguments hold their bytes;
* `Arguments.bound_of_bind` — bound arguments are found in their places;
* `Arguments.outputs_of_readOutputs` — arguments read as the bytes that they hold;
* `Execution.outputs_eq` — the outputs of an execution;
* `Execution.observations_eq` — executions that start alike come to the same.
-/

variable {σ : Type} {d : Device σ} {kernel arity : Nat} {v : View σ} {effect : Effect}

namespace Argument

/-- What a kernel is given for the argument. -/
def content : Argument → Content
  | scalar v => .value v.bytes
  | scratch .. => .scratch
  | buffer b => .buffer b.host

/-- The handle of the memory of a buffer. -/
def handle? : Argument → Option Nat
  | buffer b => b.memory
  | _ => none

/-- What a parameter is bound to by the argument. -/
def binding? : Argument → Option Binding
  | scalar v => some (.bytes v.bytes)
  | scratch t length => some (.scratch (t.extent length))
  | buffer b => b.memory.map .buffer

/-- The argument as it reads when there are those bytes in its memory. -/
def written (bytes : List UInt8) : Argument → Argument
  | buffer b =>
    if b.readOnly then .buffer { b with memory := none }
    else .buffer { type := b.type, host := bytes }
  | a => a

/-- A buffer has memory of its size, which kernels can write unless the buffer is not to be
    written. -/
def Backed (v : View σ) (s : σ) : Argument → Prop
  | buffer b => ∃ handle c, b.memory = some handle ∧ v.cell s handle = some c ∧
      c.bytes.length = b.host.length ∧ (b.readOnly = false → c.writable)
  | _ => True

/-- A buffer has its bytes in its memory. -/
def Loaded (v : View σ) (s : σ) : Argument → Prop
  | buffer b => ∃ handle c, b.memory = some handle ∧ v.cell s handle = some c ∧
      c.bytes = b.host ∧ (b.readOnly = false → c.writable)
  | _ => True

/-- A buffer that is to be written has those bytes in its memory, as many as it had before. -/
def Holds (v : View σ) (s : σ) (bytes : List UInt8) : Argument → Prop
  | buffer b => b.readOnly = false → ∃ handle c, b.memory = some handle ∧
      v.cell s handle = some c ∧ c.bytes = bytes ∧ bytes.length = b.host.length
  | _ => True

/-- Only the memory of the argument itself counts. -/
theorem Backed.congr {s s' : σ} {a : Argument} (ha : a.Backed v s)
    (h : ∀ handle, a.handle? = some handle → v.cell s' handle = v.cell s handle) :
    a.Backed v s' := by
  cases a with
  | scalar value => trivial
  | scratch t length => trivial
  | buffer b =>
    obtain ⟨handle, c, hmemory, hcell, hlength, hwritable⟩ := ha
    exact ⟨handle, c, hmemory, (h handle hmemory).trans hcell, hlength, hwritable⟩

theorem Loaded.congr {s s' : σ} {a : Argument} (ha : a.Loaded v s)
    (h : ∀ handle, a.handle? = some handle → v.cell s' handle = v.cell s handle) :
    a.Loaded v s' := by
  cases a with
  | scalar value => trivial
  | scratch t length => trivial
  | buffer b =>
    obtain ⟨handle, c, hmemory, hcell, hbytes, hwritable⟩ := ha
    exact ⟨handle, c, hmemory, (h handle hmemory).trans hcell, hbytes, hwritable⟩

theorem Holds.congr {s s' : σ} {a : Argument} {bytes : List UInt8} (ha : a.Holds v s bytes)
    (h : v.cell s' = v.cell s) : a.Holds v s' bytes := by
  cases a with
  | scalar value => trivial
  | scratch t length => trivial
  | buffer b =>
    unfold Holds at ha ⊢
    rwa [h]

/-- A loaded buffer has memory. -/
theorem Loaded.memory {s : σ} {b : Buffer} (hb : (Argument.buffer b).Loaded v s) :
    ∃ handle, b.memory = some handle := by
  obtain ⟨handle, c, hmemory, -⟩ := hb
  exact ⟨handle, hmemory⟩

/-- A parameter that is bound to a loaded argument gives its contents to the kernel. -/
theorem Loaded.content {s : σ} {a : Argument} {index : Nat} (ha : a.Loaded v s)
    (hbound : v.bound s index = a.binding?) : v.content s index = some a.content := by
  unfold View.content
  rw [hbound]
  cases a with
  | scalar value => rfl
  | scratch t length => rfl
  | buffer b =>
    obtain ⟨handle, c, hmemory, hcell, hbytes, -⟩ := ha
    simp only [binding?, hmemory, Option.map_some, hcell, Argument.content, hbytes]

end Argument

namespace Arguments

/-- No two arguments have the same memory. -/
def Separate (args : Arguments) : Prop :=
  args.Pairwise fun a a' => ∀ handle, a.handle? = some handle → a'.handle? ≠ some handle

/-- Memory belongs to one place only. -/
theorem Separate.eq_of_handle? {args : Arguments} (h : args.Separate) {i j : Nat}
    {a a' : Argument} {handle : Nat} (hi : args[i]? = some a) (hj : args[j]? = some a')
    (ha : a.handle? = some handle) (ha' : a'.handle? = some handle) : i = j := by
  obtain ⟨hi', rfl⟩ := List.getElem?_eq_some_iff.1 hi
  obtain ⟨hj', rfl⟩ := List.getElem?_eq_some_iff.1 hj
  have hpairs := List.pairwise_iff_getElem.1 h
  rcases Nat.lt_trichotomy i j with hlt | heq | hgt
  · exact absurd ha' (hpairs i j hi' hj' hlt handle ha)
  · exact heq
  · exact absurd ha (hpairs j i hj' hi' hgt handle ha')

end Arguments

/-! ### Allocation -/

/-- The arguments have memory of their own, and nothing has happened to other memory. -/
structure Allocated (v : View σ) (s s' : σ) (args : Arguments) : Prop where
  valid : v.Valid s'
  backed : ∀ a ∈ args, a.Backed v s'
  separate : args.Separate
  fresh : ∀ a ∈ args, ∀ handle, a.handle? = some handle → v.cell s handle = none
  other : ∀ handle, v.cell s handle ≠ none → v.cell s' handle = v.cell s handle

namespace Parameter

/-- An argument is made with memory of its own. -/
theorem allocated_of_makes (hd : Faithful d kernel v arity effect) {p : Parameter}
    {sizes : LaunchSizes} {g g' : Generator} {b b' : Bench σ} {a : Argument}
    (hb : v.Valid b.device) (h : p.Makes d sizes g b a g' b') :
    Allocated v b.device b'.device [a] := by
  cases h with
  | buffer space contents created =>
    have hvalid := hd.valid_call hb created
    obtain ⟨s', hanswer, rfl⟩ := d.call_eq_ok.1 created
    obtain ⟨hfresh, ⟨c, hcell, hlength, hwritable⟩, hother⟩ := hd.createBuffer hb hanswer
    refine ⟨hvalid, ?_, by simp [Arguments.Separate], ?_, ?_⟩
    · simp only [List.mem_singleton, forall_eq]
      refine ⟨_, c, rfl, hcell, hlength, fun hreadOnly => hwritable ?_⟩
      simp only at hreadOnly
      simp [access, hreadOnly]
    · simp only [List.mem_singleton, forall_eq]
      rintro handle' hhandle
      cases hhandle
      exact hfresh
    · intro handle' hexists
      refine hother handle' ?_
      rintro rfl
      exact hexists hfresh
  | scratch space =>
    exact ⟨hb, by simp [Argument.Backed], by simp [Arguments.Separate],
      by simp [Argument.handle?], fun _ _ => rfl⟩
  | scalar space value =>
    exact ⟨hb, by simp [Argument.Backed], by simp [Arguments.Separate],
      by simp [Argument.handle?], fun _ _ => rfl⟩

end Parameter

/-- What was allocated first is still there afterwards, and no memory is allocated twice. -/
theorem Allocated.cons {s s₁ s' : σ} {a : Argument} {args : Arguments}
    (ha : Allocated v s s₁ [a]) (hargs : Allocated v s₁ s' args) :
    Allocated v s s' (a :: args) := by
  have hbacked : a.Backed v s₁ := ha.backed a (by simp)
  -- The memory of the first argument is in use when the others are made.
  have hexists : ∀ handle, a.handle? = some handle → v.cell s₁ handle ≠ none := by
    intro handle hhandle
    cases a with
    | scalar value => cases hhandle
    | scratch t length => cases hhandle
    | buffer b =>
      obtain ⟨handle', c, hmemory, hcell, -⟩ := hbacked
      cases hmemory.symm.trans hhandle
      simp [hcell]
  refine ⟨hargs.valid, ?_, ?_, ?_, ?_⟩
  · intro a' ha'
    rcases List.mem_cons.1 ha' with rfl | hmem
    · exact hbacked.congr fun handle hhandle => hargs.other handle (hexists handle hhandle)
    · exact hargs.backed a' hmem
  · refine List.pairwise_cons.2 ⟨fun a' ha' handle hhandle hhandle' => ?_, hargs.separate⟩
    exact hexists handle hhandle (hargs.fresh a' ha' handle hhandle')
  · intro a' ha' handle hhandle
    rcases List.mem_cons.1 ha' with rfl | hmem
    · exact ha.fresh _ (by simp) handle hhandle
    · -- Memory that exists before is not given out again.
      cases hcell : v.cell s handle with
      | none => rfl
      | some c =>
        have hkept := ha.other handle (by simp [hcell])
        rw [hargs.fresh a' hmem handle hhandle, hcell] at hkept
        cases hkept
  · intro handle hcell
    have hkept := ha.other handle hcell
    rw [hargs.other handle (by rwa [hkept]), hkept]

namespace Signature

/-- New arguments have memory of their own. -/
theorem allocated_of_arguments (hd : Faithful d kernel v arity effect) {s : Signature}
    {sizes : LaunchSizes} {g : Generator} {b b' : Bench σ} {args : Arguments}
    (hb : v.Valid b.device) (h : (arguments d sizes s g).on b = (.ok args, b')) :
    Allocated v b.device b'.device args := by
  induction s generalizing g b args with
  | nil =>
    obtain ⟨rfl, rfl⟩ := arguments_nil_eq_ok h
    exact ⟨hb, by simp, List.Pairwise.nil, by simp, fun _ _ => rfl⟩
  | cons p s ih =>
    obtain ⟨a, g₁, b₁, rest, hmakes, hrest, rfl⟩ := arguments_cons_eq_ok h
    have hhead := Parameter.allocated_of_makes hd hb hmakes
    exact hhead.cons (ih hhead.valid hrest)

end Signature

/-! ### Copying to the device -/

/-- A copied argument has its bytes in its memory, and nothing has happened to other memory. -/
theorem Argument.loaded_of_upload (hd : FaithfulMemory d v) {a : Argument}
    {b b' : Bench σ} (hb : v.Valid b.device) (hbacked : a.Backed v b.device)
    (h : (a.upload d).on b = (.ok (), b')) :
    v.Valid b'.device ∧ a.Loaded v b'.device ∧
      ∀ handle, a.handle? ≠ some handle → v.cell b'.device handle = v.cell b.device handle := by
  cases a with
  | scalar value =>
    cases h
    exact ⟨hb, trivial, fun _ _ => rfl⟩
  | scratch t length =>
    cases h
    exact ⟨hb, trivial, fun _ _ => rfl⟩
  | buffer buffer =>
    obtain ⟨handle, c, hmemory, hcell, hlength, hwritable⟩ := hbacked
    obtain ⟨handle', b₁, hhandle, hwrite⟩ := Session.on_bind_eq_ok.1 h
    obtain ⟨hmemory', rfl⟩ := Buffer.handle_eq_ok hhandle
    obtain rfl : handle = handle' := Option.some.inj (hmemory.symm.trans hmemory')
    obtain ⟨event, b₂, hcall, hrecord⟩ := Session.on_bind_eq_ok.1 hwrite
    have hv₂ := hd.valid_call hb hcall
    obtain ⟨hv', hcells⟩ := hd.recordEvent hv₂ hrecord
    obtain ⟨s₂, hanswer, rfl⟩ := d.call_eq_ok.1 hcall
    obtain ⟨hfilled, hother⟩ := hd.write hb hcell hlength.symm hanswer
    refine ⟨hv', ⟨handle, { c with bytes := buffer.host }, hmemory, ?_, rfl, hwritable⟩, ?_⟩
    · rw [hcells]
      exact hfilled
    · intro other hother'
      rw [hcells]
      refine hother other ?_
      rintro rfl
      exact hother' hmemory

/-- Arguments with other memory are still backed when an argument has been copied. -/
theorem Argument.backed_of_upload (hd : FaithfulMemory d v) {a : Argument}
    {args : Arguments} {b b' : Bench σ} (hb : v.Valid b.device) (hbacked : a.Backed v b.device)
    (h : (a.upload d).on b = (.ok (), b'))
    (hseparate : ∀ a' ∈ args, ∀ handle, a.handle? = some handle → a'.handle? ≠ some handle)
    (hargs : ∀ a' ∈ args, a'.Backed v b.device) : ∀ a' ∈ args, a'.Backed v b'.device := by
  obtain ⟨-, -, hkept⟩ := Argument.loaded_of_upload hd hb hbacked h
  intro a' ha'
  have hbacked' : a'.Backed v b.device := hargs a' ha'
  refine hbacked'.congr fun handle hhandle => hkept handle fun hsame => ?_
  exact hseparate a' ha' handle hsame hhandle

namespace Arguments

/-- Copied arguments have their bytes in their memory, and nothing has happened to other memory. -/
theorem loaded_of_upload (hd : FaithfulMemory d v) {args : Arguments}
    {b b' : Bench σ} (hb : v.Valid b.device) (hbacked : ∀ a ∈ args, a.Backed v b.device)
    (hseparate : args.Separate) (h : (args.upload d).on b = (.ok (), b')) :
    v.Valid b'.device ∧ (∀ a ∈ args, a.Loaded v b'.device) ∧
      ∀ handle, (∀ a ∈ args, a.handle? ≠ some handle) →
        v.cell b'.device handle = v.cell b.device handle := by
  unfold upload at h
  induction args generalizing b with
  | nil =>
    cases h
    exact ⟨hb, by simp, fun _ _ => rfl⟩
  | cons a args ih =>
    obtain ⟨b₁, ha, hargs⟩ := Session.on_forM_cons_eq_ok.1 h
    obtain ⟨hhead, htail⟩ := List.pairwise_cons.1 hseparate
    obtain ⟨hv₁, hloaded, hkept⟩ := Argument.loaded_of_upload hd hb (hbacked a (by simp)) ha
    have hbacked₁ : ∀ a ∈ args, a.Backed v b₁.device :=
      Argument.backed_of_upload hd hb (hbacked a (by simp)) ha hhead
        fun a' ha' => hbacked a' (by simp [ha'])
    obtain ⟨hv', hloaded', hkept'⟩ := ih hv₁ hbacked₁ htail hargs
    refine ⟨hv', ?_, ?_⟩
    · intro a' ha'
      rcases List.mem_cons.1 ha' with rfl | hmem
      · exact hloaded.congr fun handle hhandle => hkept' handle fun a'' ha'' =>
          hhead a'' ha'' handle hhandle
      · exact hloaded' a' hmem
    · intro handle hnone
      rw [hkept' handle fun a' ha' => hnone a' (by simp [ha']), hkept handle (hnone a (by simp))]

end Arguments

/-! ### Binding -/

/-- The three kinds of argument differ only in what is bound. -/
theorem Argument.call_of_bind {a : Argument} {index : Nat} {b b' : Bench σ}
    (h : (a.bind d kernel index).on b = (.ok (), b')) :
    ∃ binding, a.binding? = some binding ∧
      (d.call (.bind kernel index binding)).on b = (.ok (), b') := by
  cases a with
  | scalar value => exact ⟨_, rfl, h⟩
  | scratch t length => exact ⟨_, rfl, h⟩
  | buffer buffer =>
    obtain ⟨handle, b₁, hhandle, hcall⟩ := Session.on_bind_eq_ok.1 h
    obtain ⟨hmemory, rfl⟩ := Buffer.handle_eq_ok hhandle
    exact ⟨.buffer handle, by simp [Argument.binding?, hmemory], hcall⟩

/-- What is bound decides, so an argument is bound when the call for it succeeds. -/
theorem Argument.bind_of_call {a : Argument} {index : Nat} {binding : Binding} {b b' : Bench σ}
    (hbinding : a.binding? = some binding)
    (h : (d.call (.bind kernel index binding)).on b = (.ok (), b')) :
    (a.bind d kernel index).on b = (.ok (), b') := by
  cases a with
  | scalar value =>
    cases hbinding
    exact h
  | scratch t length =>
    cases hbinding
    exact h
  | buffer buffer =>
    obtain ⟨handle, hmemory, rfl⟩ := Option.map_eq_some_iff.1 hbinding
    exact Session.on_bind_eq_ok.2 ⟨handle, b, Buffer.on_handle hmemory b, h⟩

/-- A bound argument is found in its place, and no memory and no other place has changed. -/
theorem Argument.bound_of_bind (hd : Faithful d kernel v arity effect) {a : Argument}
    {index : Nat} {b b' : Bench σ} (hb : v.Valid b.device)
    (h : (a.bind d kernel index).on b = (.ok (), b')) :
    v.Valid b'.device ∧ v.cell b'.device = v.cell b.device ∧
      v.bound b'.device index = a.binding? ∧
      ∀ other, other ≠ index → v.bound b'.device other = v.bound b.device other := by
  obtain ⟨binding, hbinding, hcall⟩ := Argument.call_of_bind h
  have hv' := hd.valid_call hb hcall
  obtain ⟨s', hanswer, rfl⟩ := d.call_eq_ok.1 hcall
  obtain ⟨hcells, hbound, hother⟩ := hd.bind hb hanswer
  exact ⟨hv', hcells, hbound.trans hbinding.symm, hother⟩

namespace Arguments

/-- Bound arguments are found in their places, and no memory has changed. -/
theorem bound_of_bind_zipIdx (hd : Faithful d kernel v arity effect) {args : Arguments}
    {n : Nat} {b b' : Bench σ} (hb : v.Valid b.device)
    (h : Session.on ((args.zipIdx n).forM fun (a, i) => a.bind d kernel i) b = (.ok (), b')) :
    v.Valid b'.device ∧ v.cell b'.device = v.cell b.device ∧
      (∀ index < n, v.bound b'.device index = v.bound b.device index) ∧
      ∀ a index, (a, index) ∈ args.zipIdx n → v.bound b'.device index = a.binding? := by
  induction args generalizing n b with
  | nil =>
    cases h
    exact ⟨hb, rfl, fun _ _ => rfl, by simp⟩
  | cons a args ih =>
    rw [List.zipIdx_cons] at h
    obtain ⟨b₁, ha, hargs⟩ := Session.on_forM_cons_eq_ok.1 h
    obtain ⟨hv₁, hcells, hbound, hother⟩ := Argument.bound_of_bind hd hb ha
    obtain ⟨hv', hcells', hbefore, hafter⟩ := ih hv₁ hargs
    refine ⟨hv', hcells'.trans hcells, ?_, ?_⟩
    · intro index hindex
      rw [hbefore index (by omega), hother index (by omega)]
    · intro a' index hmem
      rw [List.zipIdx_cons] at hmem
      rcases List.mem_cons.1 hmem with heq | hmem
      · cases heq
        rw [hbefore n (by omega), hbound]
      · exact hafter a' index hmem

/-- Every argument is bound to the parameter in its place. -/
def Bound (v : View σ) (s : σ) (args : Arguments) : Prop :=
  ∀ (index : Nat) (a : Argument), args[index]? = some a → v.bound s index = a.binding?

theorem bound_of_bind (hd : Faithful d kernel v arity effect) {args : Arguments} {b b' : Bench σ}
    (hb : v.Valid b.device) (h : (args.bind d kernel).on b = (.ok (), b')) :
    v.Valid b'.device ∧ v.cell b'.device = v.cell b.device ∧ args.Bound v b'.device := by
  obtain ⟨hv', hcells, -, hbound⟩ := bound_of_bind_zipIdx hd hb h
  refine ⟨hv', hcells, fun index a ha => hbound a index ?_⟩
  exact List.mem_zipIdx_iff_getElem?.2 ha

/-- Where loaded arguments are bound, the kernel is given their contents. -/
theorem Bound.content {s : σ} {args : Arguments} (hbound : args.Bound v s)
    (hloaded : ∀ a ∈ args, a.Loaded v s) {index : Nat} (hindex : index < args.length) :
    v.content s index = (args.map Argument.content)[index]? := by
  have ha : args[index]? = some args[index] := List.getElem?_eq_getElem hindex
  rw [List.getElem?_map, ha, Option.map_some]
  exact (hloaded _ (List.getElem_mem hindex)).content (hbound index _ ha)

/-- Behind a parameter that is bound to a buffer there is an argument with this memory. -/
theorem Bound.exists_of_buffer {s : σ} {args : Arguments} (hbound : args.Bound v s)
    {index handle : Nat} (hindex : index < args.length)
    (h : v.bound s index = some (.buffer handle)) :
    ∃ a, args[index]? = some a ∧ a.handle? = some handle := by
  have ha : args[index]? = some args[index] := List.getElem?_eq_getElem hindex
  refine ⟨_, ha, ?_⟩
  rw [hbound index _ ha] at h
  cases hkind : args[index] with
  | scalar value =>
    rw [hkind] at h
    cases h
  | scratch t length =>
    rw [hkind] at h
    cases h
  | buffer buffer =>
    rw [hkind] at h
    obtain ⟨handle', hmemory, heq⟩ := Option.map_eq_some_iff.1 h
    cases heq
    exact hmemory

/-- Separate arguments are bound to separate buffers. -/
theorem Bound.eq_of_buffer {s : σ} {args : Arguments} (hbound : args.Bound v s)
    (hseparate : args.Separate) {index other handle : Nat} (hindex : index < args.length)
    (hother : other < args.length) (h : v.bound s index = some (.buffer handle))
    (h' : v.bound s other = some (.buffer handle)) : index = other := by
  obtain ⟨a, ha, hhandle⟩ := hbound.exists_of_buffer hindex h
  obtain ⟨a', ha', hhandle'⟩ := hbound.exists_of_buffer hother h'
  exact hseparate.eq_of_handle? ha ha' hhandle hhandle'

/-! ### The launch -/

/-- A launch leaves its effect in the buffers that are to be written. -/
theorem holds_of_launch (hd : Faithful d kernel v arity effect) {args : Arguments}
    {globalSize localSize event : Nat} {b b' : Bench σ} (harity : args.length = arity)
    (hb : v.Valid b.device) (hloaded : ∀ a ∈ args, a.Loaded v b.device)
    (hseparate : args.Separate) (hbound : args.Bound v b.device)
    (h : (d.call (.launch kernel globalSize localSize)).on b = (.ok event, b')) :
    v.Valid b'.device ∧ ∀ a index, (a, index) ∈ args.zipIdx →
      a.Holds v b'.device (effect (args.map Argument.content) globalSize localSize index) := by
  subst harity
  have hv' := hd.valid_call hb h
  obtain ⟨s', hanswer, rfl⟩ := d.call_eq_ok.1 h
  refine ⟨hv', fun a index hmem => ?_⟩
  have ha : args[index]? = some a := List.mem_zipIdx_iff_getElem?.1 hmem
  obtain ⟨hindex, -⟩ := List.getElem?_eq_some_iff.1 ha
  cases a with
  | scalar value => trivial
  | scratch t length => trivial
  | buffer buffer =>
    intro hreadOnly
    obtain ⟨handle, c, hmemory, hcell, hbytes, hwritable⟩ :=
      hloaded _ (List.mem_of_getElem? ha)
    have hbuffer : v.bound b.device index = some (.buffer handle) := by
      rw [hbound index _ ha, Argument.binding?, hmemory, Option.map_some]
    -- What the law of launches asks for: every parameter has contents, and no two share a buffer.
    have hcontents : ∀ index < args.length,
        v.content b.device index = (args.map Argument.content)[index]? :=
      fun index hindex => hbound.content hloaded hindex
    have hdistinct : ∀ index < args.length, ∀ other < args.length, ∀ handle,
        v.bound b.device index = some (.buffer handle) →
        v.bound b.device other = some (.buffer handle) → index = other :=
      fun index hindex other hother handle => hbound.eq_of_buffer hseparate hindex hother
    obtain ⟨hwritten, hlength⟩ := hd.launch hb (List.length_map _) hcontents hdistinct hanswer
      index hindex handle c hbuffer hcell (hwritable hreadOnly)
    exact ⟨handle, _, hmemory, hwritten, rfl, by rw [hlength, hbytes]⟩

end Arguments

/-! ### Reading back -/

/-- An argument reads as the bytes that are in its memory, and no memory has changed. -/
theorem Argument.written_of_readOutput (hd : FaithfulMemory d v) {a r : Argument}
    {bytes : List UInt8} {b b' : Bench σ} (hb : v.Valid b.device)
    (hholds : a.Holds v b.device bytes) (h : (a.readOutput d).on b = (.ok r, b')) :
    v.Valid b'.device ∧ v.cell b'.device = v.cell b.device ∧ r = a.written bytes := by
  cases a with
  | scalar value =>
    cases h
    exact ⟨hb, rfl, rfl⟩
  | scratch t length =>
    cases h
    exact ⟨hb, rfl, rfl⟩
  | buffer buffer =>
    obtain ⟨read, hread, rfl⟩ := Session.on_map_eq_ok.1 h
    obtain ⟨handle, b₁, hhandle, hrest⟩ := Session.on_bind_eq_ok.1 hread
    obtain ⟨hmemory, rfl⟩ := Buffer.handle_eq_ok hhandle
    obtain ⟨t, host, memory, readOnly⟩ := buffer
    cases readOnly with
    | true =>
      cases hrest
      exact ⟨hb, rfl, rfl⟩
    | false =>
      obtain ⟨handle', c, hmemory', hcell, hbytes, hlength⟩ := hholds rfl
      obtain rfl : handle = handle' := Option.some.inj (hmemory.symm.trans hmemory')
      obtain ⟨answer, b₂, hcall, hmeasured⟩ := Session.on_bind_eq_ok.1 hrest
      obtain ⟨_, b₃, hrecord, hreturn⟩ := Session.on_bind_eq_ok.1 hmeasured
      cases hreturn
      have hv₂ := hd.valid_call hb hcall
      obtain ⟨hv₃, hcells₃⟩ := hd.recordEvent hv₂ hrecord
      obtain ⟨s₂, hanswer, rfl⟩ := d.call_eq_ok.1 hcall
      obtain ⟨hanswered, hcells₂⟩ := hd.read hb hcell (hbytes ▸ hlength) hanswer
      refine ⟨hv₃, hcells₃.trans hcells₂, ?_⟩
      simp [Argument.written, hanswered, hbytes]

namespace Arguments

/-- Arguments read as the bytes that are in their memory, and no memory has changed. -/
theorem outputs_of_readOutputs (hd : FaithfulMemory d v) {args outputs : Arguments}
    {f : Nat → List UInt8} {n : Nat} {b b' : Bench σ} (hb : v.Valid b.device)
    (hholds : ∀ a index, (a, index) ∈ args.zipIdx n → a.Holds v b.device (f index))
    (h : (args.readOutputs d).on b = (.ok outputs, b')) :
    v.Valid b'.device ∧ v.cell b'.device = v.cell b.device ∧
      outputs = (args.zipIdx n).map fun (a, index) => a.written (f index) := by
  unfold readOutputs at h
  induction args generalizing n b outputs with
  | nil =>
    cases h
    exact ⟨hb, rfl, rfl⟩
  | cons a args ih =>
    obtain ⟨r, b₁, rest, hr, hrest, rfl⟩ := Session.on_mapM_cons_eq_ok.1 h
    have hhead : a.Holds v b.device (f n) := hholds a n (by simp [List.zipIdx_cons])
    obtain ⟨hv₁, hcells, rfl⟩ := Argument.written_of_readOutput hd hb hhead hr
    -- Reading changes no memory, so what follows still holds its bytes.
    have hholds₁ : ∀ a index, (a, index) ∈ args.zipIdx (n + 1) →
        a.Holds v b₁.device (f index) := by
      intro a' index hmem
      exact (hholds a' index (by simp [List.zipIdx_cons, hmem])).congr hcells
    obtain ⟨hv', hcells', rfl⟩ := ih hv₁ hholds₁ hrest
    exact ⟨hv', hcells'.trans hcells, by rw [List.zipIdx_cons, List.map_cons]⟩

/-- The arguments as they read after a launch. -/
def after (effect : Effect) (sizes : LaunchSizes) (args : Arguments) : Arguments :=
  args.zipIdx.map fun (a, index) =>
    a.written
      (effect (args.map Argument.content) sizes.globalSize.toNat sizes.localSize.toNat index)

end Arguments

/-! ### Arguments that are alike -/

namespace Argument

theorem Alike.content {a a' : Argument} (h : a.Alike a') : a.content = a'.content := by
  cases h <;> rfl

theorem Alike.written {a a' : Argument} (h : a.Alike a') (bytes : List UInt8) :
    (a.written bytes).Alike (a'.written bytes) := by
  cases h with
  | scalar value => exact .scalar value
  | scratch t length length' => exact .scratch t length length'
  | buffer t host memory memory' readOnly =>
    cases readOnly with
    | true => exact .buffer ..
    | false => exact .buffer ..

end Argument

namespace Arguments

theorem contents_of_alike {args args' : Arguments} (h : List.Forall₂ Argument.Alike args args') :
    args.map Argument.content = args'.map Argument.content := by
  induction h with
  | nil => rfl
  | cons hhead _ ih => rw [List.map_cons, List.map_cons, hhead.content, ih]

theorem alike_written {args args' : Arguments} (h : List.Forall₂ Argument.Alike args args')
    (f : Nat → List UInt8) (n : Nat) :
    List.Forall₂ Argument.Alike ((args.zipIdx n).map fun (a, index) => a.written (f index))
      ((args'.zipIdx n).map fun (a, index) => a.written (f index)) := by
  induction h generalizing n with
  | nil => exact .nil
  | cons hhead _ ih =>
    rw [List.zipIdx_cons, List.zipIdx_cons, List.map_cons, List.map_cons]
    exact .cons (hhead.written (f n)) (ih (n + 1))

/-- Arguments that are alike are alike after launches over as many work items, in groups of one
    size or where the size of a group does not count. -/
theorem alike_after {args args' : Arguments} {sizes sizes' : LaunchSizes}
    (h : List.Forall₂ Argument.Alike args args') (hsizes : sizes.globalSize = sizes'.globalSize)
    (hgroups : sizes.localSize = sizes'.localSize ∨ effect.LocalBlind) :
    List.Forall₂ Argument.Alike (args.after effect sizes) (args'.after effect sizes') := by
  have heffect : ∀ contents index,
      effect contents sizes.globalSize.toNat sizes.localSize.toNat index =
        effect contents sizes'.globalSize.toNat sizes'.localSize.toNat index := by
    intro contents index
    -- The group size is the same, or it does not count.
    rcases hgroups with hlocal | hblind
    · rw [hsizes, hlocal]
    · rw [hsizes, hblind]
  unfold after
  simp only [contents_of_alike h, heffect]
  exact alike_written h _ 0

end Arguments

/-! ### The whole execution -/

namespace Execution

variable {s : Signature} {sizes sizes' : LaunchSizes} {source : InputSource}
variable {b b' c c' : Bench σ} {e e' : Execution}

/-- **The outputs of an execution.** On a faithful device they are the inputs with the effect of
    the launch in the place of every writable buffer. -/
theorem outputs_eq (hd : Faithful d kernel v arity effect) (harity : s.length = arity)
    (hb : v.Valid b.device) (h : (s.execute d kernel sizes source).on b = (.ok e, b')) :
    e.outputs = e.inputs.after effect sizes := by
  have hlength : e.inputs.length = arity := by
    rw [← (accepts h).length_eq, harity]
  obtain ⟨phases⟩ := Signature.phases_of_execute h
  have halloc := Signature.allocated_of_arguments hd hb phases.arguments
  obtain ⟨hv₂, hloaded₂, -⟩ := Arguments.loaded_of_upload hd.memory halloc.valid halloc.backed
    halloc.separate phases.upload
  obtain ⟨hv₃, hcells₃, hbound⟩ := Arguments.bound_of_bind hd hv₂ phases.bind
  have hloaded₃ : ∀ a ∈ e.inputs, a.Loaded v phases.bound.device := fun a ha =>
    (hloaded₂ a ha).congr fun handle _ => by rw [hcells₃]
  obtain ⟨hv₄, hholds₄⟩ := Arguments.holds_of_launch hd hlength hv₃ hloaded₃ halloc.separate
    hbound phases.launch
  obtain ⟨hv₅, hcells₅⟩ := hd.memory.recordEvent hv₄ phases.measure
  refine (Arguments.outputs_of_readOutputs hd.memory hv₅ ?_ phases.readOutputs).2.2
  intro a index hmem
  exact (hholds₄ a index hmem).congr hcells₅

/-- **Executions that start alike come to the same.** Over one number of work items and from one
    source, nothing that a user can observe tells two executions on a faithful device apart. -/
theorem observations_eq (hd : Faithful d kernel v arity effect) (harity : s.length = arity)
    (hsizes : sizes.globalSize = sizes'.globalSize)
    (hgroups : sizes.localSize = sizes'.localSize ∨ effect.LocalBlind) (hb : v.Valid b.device)
    (hc : v.Valid c.device) (h : (s.execute d kernel sizes source).on b = (.ok e, b'))
    (h' : (s.execute d kernel sizes' source).on c = (.ok e', c')) :
    e.outputs.observations = e'.outputs.observations := by
  rw [outputs_eq hd harity hb h, outputs_eq hd harity hc h']
  have hinputs := alike_inputs hsizes h h'
  exact Arguments.observations_of_alike (Arguments.alike_after hinputs hsizes hgroups)

end Execution

end KernelDiff

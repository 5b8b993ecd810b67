import KernelDiff.Proofs.Argument.Equality
import KernelDiff.Proofs.Execution.Synthesis

namespace KernelDiff

/-!
# What a kernel can change

Of the arguments that are read back only the writable buffers come from the device. Scalars and
buffers that kernels cannot write are carried over from the inputs, and of work-group memory
nothing is known. So a comparison of outputs is two comparisons in one: of what was written, and
of the inputs that were carried over.

* `Signature.isConst_of_query` — constant memory is never writable;
* `Signature.SameWritten`, `Signature.SameCarried` — the two comparisons;
* `Execution.same_outputs_iff` — together they are the comparison of the outputs.
-/

variable {σ : Type} {d : Device σ}

/-- What stands in one place of related lists is related. -/
theorem exists_of_forall₂ {α β : Type} {R : α → β → Prop} {l : List α} {l' : List β}
    (h : List.Forall₂ R l l') {n : Nat} {x : α} (hx : l[n]? = some x) :
    ∃ y, l'[n]? = some y ∧ R x y := by
  induction h generalizing n with
  | nil => simp at hx
  | @cons x' y' l l' hhead _ ih =>
    cases n with
    | zero =>
      cases hx
      exact ⟨y', rfl, hhead⟩
    | succ n => exact ih hx

/-! ### Constant memory -/

namespace Parameter

theorem isConst_of_resolve {index : Nat} {typeName : String} {space : AddressSpace}
    {p : Parameter} (h : resolve index typeName space = .ok p) (hspace : p.space = .constant) :
    p.isConst := by
  unfold resolve at h
  simp only at h
  split at h
  · split at h
    · cases h
      simp only at hspace
      simp [hspace]
    · cases h
  · cases h

theorem isConst_of_query {kernel index : Nat} {b b' : Bench σ} {p : Parameter}
    (h : (query d kernel index).on b = (.ok p, b')) (hspace : p.space = .constant) :
    p.isConst := by
  obtain ⟨typeName, b₁, -, h⟩ := Session.on_bind_eq_ok.1 h
  obtain ⟨space, b₂, -, h⟩ := Session.on_bind_eq_ok.1 h
  obtain ⟨qualified, b₃, -, h⟩ := Session.on_bind_eq_ok.1 h
  obtain ⟨resolved, b₄, hresolved, h⟩ := Session.on_bind_eq_ok.1 h
  cases h
  have hconst := isConst_of_resolve (Session.on_ofExcept_eq_ok.1 hresolved).1 hspace
  simp [hconst]

end Parameter

namespace Signature

theorem isConst_of_mapM_query {kernel : Nat} {indices : List Nat} {b b' : Bench σ}
    {s : Signature} (h : Session.on (indices.mapM (Parameter.query d kernel)) b = (.ok s, b')) :
    ∀ p ∈ s, p.space = .constant → p.isConst := by
  induction indices generalizing s b with
  | nil =>
    cases h
    simp
  | cons index indices ih =>
    obtain ⟨p, b₁, rest, hp, hrest, rfl⟩ := Session.on_mapM_cons_eq_ok.1 h
    intro q hq
    rcases List.mem_cons.1 hq with rfl | hmem
    · exact Parameter.isConst_of_query hp
    · exact ih hrest q hmem

/-- What a device reports as constant memory is taken for a buffer that kernels cannot write. -/
theorem isConst_of_query {kernel : Nat} {b b' : Bench σ} {s : Signature}
    (h : (query d kernel).on b = (.ok s, b')) :
    ∀ p ∈ s, p.space = .constant → p.isConst := by
  obtain ⟨count, b₁, -, hparameters⟩ := Session.on_bind_eq_ok.1 h
  exact isConst_of_mapM_query hparameters

end Signature

/-! ### One argument -/

/-- Where the memory of an argument is cannot be observed. -/
@[simp] theorem Argument.observation_detached (a : Argument) :
    a.detached.observation = a.observation := by
  cases a <;> rfl

theorem Arguments.observations_detached (args : Arguments) :
    Arguments.observations (args.map Argument.detached) = args.observations := by
  rw [observations, List.map_map]
  exact List.map_congr_left fun a _ => a.observation_detached

/-- Nothing tells inputs apart that are equal up to the places of their buffers. -/
theorem Execution.observations_inputs_detached (e : Execution) :
    e.detached.inputs.observations = e.inputs.observations :=
  Arguments.observations_detached e.inputs

namespace Parameter

variable {p : Parameter}

/-- The value of the parameter stays on the host: it is a scalar, or a buffer that kernels cannot
    write. -/
def isCarried (p : Parameter) : Bool := p.takesInput && !p.isWritable

/-- A writable parameter takes a buffer, which is read back as one of as many bytes. -/
theorem buffer_of_isWritable {a r : Argument} (hp : p.isWritable) (ha : p.Accepts a)
    (hr : a.ReadsAs r) :
    ∃ b : Buffer, r = .buffer b ∧ b.type = p.type ∧ p.type.size ∣ b.host.length := by
  have hspace : p.space = .global ∧ p.isConst = false := by
    simpa [isWritable] using hp
  cases hr with
  | scalar v => simp [Accepts, hspace.1] at ha
  | scratch t length => simp [Accepts, hspace.1] at ha
  | readOnly t host memory =>
    obtain ⟨-, rfl, hconst, hdvd⟩ := ha
    exact ⟨_, rfl, rfl, hdvd⟩
  | written t host bytes memory hlength =>
    obtain ⟨-, rfl, hconst, hdvd⟩ := ha
    exact ⟨_, rfl, rfl, hlength ▸ hdvd⟩

/-- What kernels cannot write reads as it was on the host. -/
theorem eq_detached_of_not_isWritable {a r : Argument} (hp : p.isWritable = false)
    (hconstant : p.space = .constant → p.isConst) (ha : p.Accepts a) (hr : a.ReadsAs r) :
    r = a.detached := by
  cases hr with
  | scalar v => rfl
  | scratch t length => rfl
  | readOnly t host memory => rfl
  | written t host bytes memory hlength =>
    -- Only global memory can be written, and the parameter is not qualified.
    obtain ⟨hspace, -, hconst, -⟩ := ha
    simp only at hconst
    rcases hspace with hglobal | hconst'
    · simp [isWritable, hglobal, ← hconst] at hp
    · simp [hconstant hconst'] at hconst

/-- Nothing happens to what kernels cannot write. -/
theorem observation_of_not_isWritable {a r : Argument} (hp : p.isWritable = false)
    (hconstant : p.space = .constant → p.isConst) (ha : p.Accepts a) (hr : a.ReadsAs r) :
    r.observation = a.observation := by
  rw [eq_detached_of_not_isWritable hp hconstant ha hr, Argument.observation_detached]

/-- Work-group memory for one parameter is always the same. -/
theorem observation_of_scratch {a : Argument} (hp : p.takesInput = false) (ha : p.Accepts a) :
    a.observation = .scratch p.type := by
  have hspace : p.space = .workGroup := by
    simpa [takesInput] using hp
  cases a with
  | scalar v => simp [Accepts, hspace] at ha
  | scratch t length =>
    obtain ⟨-, rfl⟩ := ha
    rfl
  | buffer b => simp [Accepts, hspace] at ha

/-- An argument reads as the same in two executions when what was written is the same, or what was
    carried over. -/
theorem observation_eq_iff {a a' r r' : Argument} (hconstant : p.space = .constant → p.isConst)
    (ha : p.Accepts a) (hr : a.ReadsAs r) (ha' : p.Accepts a') (hr' : a'.ReadsAs r') :
    r.observation = r'.observation ↔
      (p.isWritable → ∀ x y, r = .buffer x → r' = .buffer y → x.host = y.host) ∧
        (p.isCarried → a.same a') := by
  by_cases hwritable : p.isWritable
  · -- Equal elements are equal bytes, since all buffers consist of whole elements.
    obtain ⟨x, rfl, htype, hdvd⟩ := buffer_of_isWritable hwritable ha hr
    obtain ⟨y, rfl, htype', hdvd'⟩ := buffer_of_isWritable hwritable ha' hr'
    have hsame := Buffer.same_iff_host (htype ▸ hdvd) (htype' ▸ hdvd')
    rw [← Argument.same_iff, Argument.same, hsame]
    simp [isCarried, hwritable, htype, htype']
  · have hnot : p.isWritable = false := by simpa using hwritable
    rw [observation_of_not_isWritable hnot hconstant ha hr,
      observation_of_not_isWritable hnot hconstant ha' hr', Argument.same_iff]
    cases hinput : p.takesInput with
    | true => simp [isCarried, hnot, hinput]
    | false =>
      simp [isCarried, hnot, hinput, observation_of_scratch hinput ha,
        observation_of_scratch hinput ha']

end Parameter

/-! ### All arguments -/

namespace Signature

/-- The writable buffers hold the same bytes. -/
def SameWritten (s : Signature) (a b : Arguments) : Prop :=
  ∀ (n : Nat) (p : Parameter) (x y : Buffer), s[n]? = some p → p.isWritable →
    a[n]? = some (.buffer x) → b[n]? = some (.buffer y) → x.host = y.host

/-- The scalars and the buffers that kernels cannot write are the same. -/
def SameCarried (s : Signature) (a b : Arguments) : Prop :=
  ∀ (n : Nat) (p : Parameter) (x y : Argument), s[n]? = some p → p.isCarried →
    a[n]? = some x → b[n]? = some y → x.same y

/-- Lists with one argument for each parameter are the same when they are in every place. -/
theorem same_iff_getElem? {s : Signature} {a b : Arguments} (ha : a.length = s.length)
    (hb : b.length = s.length) :
    a.same b ↔ ∀ (n : Nat) (p : Parameter) (x y : Argument), s[n]? = some p → a[n]? = some x →
      b[n]? = some y → x.observation = y.observation := by
  rw [Arguments.same_iff]
  unfold Arguments.observations
  constructor
  · intro h n p x y _ hx hy
    have hn : (a.map Argument.observation)[n]? = (b.map Argument.observation)[n]? := by rw [h]
    rw [List.getElem?_map, List.getElem?_map, hx, hy] at hn
    exact Option.some.inj hn
  · intro h
    refine List.ext_getElem (by simp [ha, hb]) fun n hn hn' => ?_
    rw [List.getElem_map, List.getElem_map]
    have hs : n < s.length := by simpa [ha] using hn
    exact h n s[n] _ _ (List.getElem?_eq_getElem hs) (List.getElem?_eq_getElem (ha ▸ hs))
      (List.getElem?_eq_getElem (hb ▸ hs))

end Signature

namespace Execution

variable {kernel kernel' : Nat} {s : Signature} {sizes sizes' : LaunchSizes}
variable {source source' : InputSource} {b b' c c' : Bench σ} {e e' : Execution}

theorem length_outputs (h : (s.execute d kernel sizes source).on b = (.ok e, b')) :
    e.outputs.length = s.length := by
  rw [(accepts h).length_eq, (readsAs h).length_eq]

/-- For every parameter there is an argument, before the launch and after it. -/
theorem exists_of_parameter (h : (s.execute d kernel sizes source).on b = (.ok e, b')) {n : Nat}
    {p : Parameter} (hp : s[n]? = some p) :
    ∃ a r, e.inputs[n]? = some a ∧ e.outputs[n]? = some r ∧ p.Accepts a ∧ a.ReadsAs r := by
  obtain ⟨a, ha, haccepts⟩ := exists_of_forall₂ (accepts h) hp
  obtain ⟨r, hr, hreads⟩ := exists_of_forall₂ (readsAs h) ha
  exact ⟨a, r, ha, hr, haccepts, hreads⟩

/-- In the place of a parameter the outputs of two executions are the same when what was written
    is the same, or what was carried over. -/
theorem observation_outputs_eq_iff (hconstant : ∀ p ∈ s, p.space = .constant → p.isConst)
    (h : (s.execute d kernel sizes source).on b = (.ok e, b'))
    (h' : (s.execute d kernel' sizes' source').on c = (.ok e', c')) {n : Nat} {p : Parameter}
    {x x' y y' : Argument} (hp : s[n]? = some p) (hx : e.inputs[n]? = some x)
    (hy : e.outputs[n]? = some y) (hx' : e'.inputs[n]? = some x')
    (hy' : e'.outputs[n]? = some y') :
    y.observation = y'.observation ↔
      (p.isWritable → ∀ u w, y = .buffer u → y' = .buffer w → u.host = w.host) ∧
        (p.isCarried → x.same x') := by
  obtain ⟨a, r, ha, hr, haccepts, hreads⟩ := exists_of_parameter h hp
  obtain ⟨a', r', ha', hr', haccepts', hreads'⟩ := exists_of_parameter h' hp
  obtain rfl : x = a := Option.some.inj (hx.symm.trans ha)
  obtain rfl : y = r := Option.some.inj (hy.symm.trans hr)
  obtain rfl : x' = a' := Option.some.inj (hx'.symm.trans ha')
  obtain rfl : y' = r' := Option.some.inj (hy'.symm.trans hr')
  exact Parameter.observation_eq_iff (hconstant p (List.mem_of_getElem? hp)) haccepts hreads
    haccepts' hreads'

/-- **Outputs are compared twice over.** Those of two executions are the same exactly when the
    writable buffers hold the same bytes and the scalars and the other buffers were the same
    before. -/
theorem same_outputs_iff (hconstant : ∀ p ∈ s, p.space = .constant → p.isConst)
    (h : (s.execute d kernel sizes source).on b = (.ok e, b'))
    (h' : (s.execute d kernel' sizes' source').on c = (.ok e', c')) :
    e.outputs.same e'.outputs ↔
      s.SameWritten e.outputs e'.outputs ∧ s.SameCarried e.inputs e'.inputs := by
  rw [Signature.same_iff_getElem? (length_outputs h) (length_outputs h')]
  constructor
  · intro hsame
    constructor
    · intro n p x y hp hwritable hx hy
      obtain ⟨a, -, ha, -⟩ := exists_of_parameter h hp
      obtain ⟨a', -, ha', -⟩ := exists_of_parameter h' hp
      have hplace := hsame n p _ _ hp hx hy
      rw [observation_outputs_eq_iff hconstant h h' hp ha hx ha' hy] at hplace
      exact hplace.1 hwritable x y rfl rfl
    · intro n p x y hp hcarried hx hy
      obtain ⟨_, r, -, hr, -⟩ := exists_of_parameter h hp
      obtain ⟨_, r', -, hr', -⟩ := exists_of_parameter h' hp
      have hplace := hsame n p _ _ hp hr hr'
      rw [observation_outputs_eq_iff hconstant h h' hp hx hr hy hr'] at hplace
      exact hplace.2 hcarried
  · rintro ⟨hwritten, hcarried⟩ n p r r' hp hr hr'
    obtain ⟨a, -, ha, -⟩ := exists_of_parameter h hp
    obtain ⟨a', -, ha', -⟩ := exists_of_parameter h' hp
    rw [observation_outputs_eq_iff hconstant h h' hp ha hr ha' hr']
    constructor
    · rintro hwritable x y rfl rfl
      exact hwritten n p x y hp hwritable hr hr'
    · intro hp'
      exact hcarried n p a a' hp hp' ha ha'

end Execution

end KernelDiff

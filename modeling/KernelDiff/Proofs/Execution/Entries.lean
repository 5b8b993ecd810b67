import KernelDiff.Proofs.Execution.Replay

namespace KernelDiff

/-!
# The entries of a caller and the parameters

A caller gives one entry for each parameter that takes a value. The entries are counted before any
value is made, and they are handed out one by one while the values are made. The two go together:
each parameter gets the entry in its place, and none is left over or missing.

* `Parameter.Reads`, `Parameter.Offends`, `Parameter.Holds` — what an entry says to a parameter;
* `FirstOffence` — the first entry that cannot be read;
* `Signature.Filled` — arguments that hold the entries for their parameters;
* `Signature.inputsFrom_of_reads`, `Signature.inputsFrom_of_firstOffence` — the values as a
  function of the entries.
-/

/-! ### One entry -/

namespace Parameter

/-- The entry can be read as a value for the parameter: a single text for what is passed by value,
    and any number of texts for a buffer, each of them the text of an element. -/
structure Reads (p : Parameter) (entry : List String) : Prop where
  single : p.space = .workItem → entry.length = 1
  parsed : ∀ text ∈ entry, ∃ bytes, Element.parse p.type text = .ok bytes

/-- The text for which an entry cannot be read: all its texts with blanks between where there
    should be a single one, and else the first that is not the text of an element. -/
inductive Offends (p : Parameter) : List String → String → Prop
  | number {entry : List String} (space : p.space = .workItem) (length_ne : entry.length ≠ 1) :
      Offends p entry (" ".intercalate entry)
  | element {before after : List String} {text : String}
      (single : p.space = .workItem → (before ++ text :: after).length = 1)
      (parsed : ∀ s ∈ before, ∃ bytes, Element.parse p.type s = .ok bytes)
      (unreadable : ∀ bytes, Element.parse p.type text ≠ .ok bytes) :
      Offends p (before ++ text :: after) text

/-- The argument holds what the entry says: the value of its text, or the elements of its texts in
    order and behind them zero elements up to one for each work item. -/
inductive Holds (p : Parameter) (sizes : LaunchSizes) : List String → Argument → Prop
  | scalar {text : String} {v : Value} (space : p.space = .workItem) (type_eq : v.type = p.type)
      (parsed : Element.parse p.type text = .ok v.bytes) : Holds p sizes [text] (.scalar v)
  | buffer {entry : List String} {b : Buffer} {elements : List (List UInt8)}
      (space : p.space = .global ∨ p.space = .constant) (type_eq : b.type = p.type)
      (readOnly_eq : b.readOnly = p.isConst) (whole : b.type.size ∣ b.host.length)
      (parsed : List.Forall₂ (fun text element => Element.parse p.type text = .ok element)
        entry elements)
      (length_eq : b.length = max sizes.globalSize.toNat entry.length)
      (elements_eq : b.elements = elements ++
        List.replicate (sizes.globalSize.toNat - entry.length) (List.replicate p.type.size 0)) :
      Holds p sizes entry (.buffer b)

theorem takesInput_iff {p : Parameter} : p.takesInput ↔ p.space ≠ .workGroup := by
  simp [takesInput]

end Parameter

namespace Value

/-- A value is read where its element is. -/
theorem parse_eq_ok_iff {t : ElementType} {s : String} {v : Value} :
    parse t s = .ok v ↔ v.type = t ∧ Element.parse t s = .ok v.bytes := by
  unfold parse Element.parse
  constructor
  · intro h
    split at h
    · next bytes hbytes =>
      cases h
      simp [hbytes]
    · cases h
  · rintro ⟨rfl, h⟩
    split
    · next bytes hbytes =>
      simp only [hbytes, Except.ok.injEq] at h
      subst h
      rfl
    · next hnone =>
      rw [hnone] at h
      cases h

theorem parse_eq_error_iff {t : ElementType} {s : String} {e : Failure} :
    parse t s = .error e ↔ Element.parse t s = .error e := by
  unfold parse Element.parse
  split
  · next hbytes => simp [hbytes]
  · next hnone => simp [hnone]

end Value

/-- The failure of an element names its text and its type. -/
theorem Element.parse_eq_error_of_unreadable {t : ElementType} {s : String}
    (h : ∀ bytes, parse t s ≠ .ok bytes) : parse t s = .error (.unreadableValue s t.name) := by
  cases hs : ofText? t s.toList with
  | some bytes => exact absurd (by rw [parse, hs]) (h bytes)
  | none => rw [parse, hs]

namespace Generator

variable {t : ElementType} {entry : List String} {length : Nat}

/-- The elements of an entry are read, and zero elements make up the rest. -/
theorem ofEntry_of_parsed {elements : List (List UInt8)}
    (h : List.Forall₂ (fun text element => Element.parse t text = .ok element) entry elements) :
    ofEntry t entry length = .ok (elements ++
      List.replicate (length - entry.length) (List.replicate t.size 0)).flatten := by
  have hzero : (Value.zero t).bytes = List.replicate t.size 0 := Element.ofSeed_zero t
  unfold ofEntry
  rw [mapM_eq_ok_iff.2 h, hzero]
  rfl

/-- The first text that is not that of an element is named. -/
theorem ofEntry_of_unreadable {before after : List String} {text : String}
    (hbefore : ∀ s ∈ before, ∃ bytes, Element.parse t s = .ok bytes)
    (htext : ∀ bytes, Element.parse t text ≠ .ok bytes) :
    ofEntry t (before ++ text :: after) length = .error (.unreadableValue text t.name) := by
  have herror : (before ++ text :: after).mapM (Element.parse t) =
      .error (.unreadableValue text t.name) :=
    mapM_eq_error_iff.2
      ⟨before, text, after, rfl, hbefore, Element.parse_eq_error_of_unreadable htext⟩
  unfold ofEntry
  rw [herror]
  rfl

/-- A value is not made from an entry with another number of texts. -/
theorem scalar_of_length_ne {pending : List (List String)} {provided : Nat}
    (h : entry.length ≠ 1) :
    scalar t (.ofEntries (entry :: pending) provided) =
      (.error (.unreadableValue (" ".intercalate entry) t.name), .ofEntries pending provided) := by
  match entry, h with
  | [], _ => rfl
  | _ :: _ :: _, _ => rfl

end Generator

namespace Parameter

variable {p : Parameter} {sizes : LaunchSizes} {entry : List String} {text : String}
  {pending : List (List String)} {provided : Nat}

/-- An entry can be read, or there is a text for which it cannot. -/
theorem reads_or_offends (p : Parameter) (entry : List String) :
    p.Reads entry ∨ ∃ text, p.Offends entry text := by
  by_cases hsingle : p.space = .workItem → entry.length = 1
  · cases hread : entry.mapM (Element.parse p.type) with
    | ok elements => exact .inl ⟨hsingle, exists_mapM_eq_ok_iff.1 ⟨elements, hread⟩⟩
    | error e =>
      obtain ⟨before, text, after, rfl, hbefore, htext⟩ := mapM_eq_error_iff.1 hread
      refine .inr ⟨text, .element hsingle hbefore fun bytes hbytes => ?_⟩
      rw [htext] at hbytes
      cases hbytes
  · obtain ⟨hspace, hlength⟩ := Classical.not_imp.1 hsingle
    exact .inr ⟨_, .number hspace hlength⟩

/-- A buffer takes the entry in front where all its texts are those of elements. -/
theorem exists_input_of_parsed (hspace : p.space = .global ∨ p.space = .constant)
    (hparsed : ∀ text ∈ entry, ∃ bytes, Element.parse p.type text = .ok bytes) :
    ∃ a, p.input sizes (.ofEntries (entry :: pending) provided) =
        .ok (a, .ofEntries pending provided) ∧ p.Holds sizes entry a := by
  obtain ⟨elements, helements⟩ := exists_mapM_eq_ok_iff.2 hparsed
  have hread := mapM_eq_ok_iff.1 helements
  let filled := elements ++
    List.replicate (sizes.globalSize.toNat - entry.length) (List.replicate p.type.size 0)
  -- Elements that were read and elements that fill up have the size of the type.
  have hsize : ∀ element ∈ filled, element.length = p.type.size := by
    refine List.forall_mem_append.2 ⟨Element.length_of_mem_parsed hread, fun element hmem => ?_⟩
    rw [List.eq_of_mem_replicate hmem, List.length_replicate]
  let b : Buffer := { type := p.type, host := filled.flatten, readOnly := p.isConst }
  have hcut : b.elements = filled := Bytes.wholePieces_flatten p.type.size_pos hsize
  have hlength : b.length = max sizes.globalSize.toNat entry.length := by
    rw [← b.length_elements, hcut, List.length_append, List.length_replicate, ← hread.length_eq]
    omega
  refine ⟨.buffer b, ?_, .buffer hspace rfl rfl ?_ hread hlength hcut⟩
  · rw [input_of_buffer hspace, Generator.contents_ofEntries, Generator.ofEntry_of_parsed hread]
  · exact ⟨_, by rw [Generator.length_flatten_of_forall hsize, Nat.mul_comm]⟩

/-- A parameter takes the entry in front where it can be read, and leaves the others. -/
theorem exists_input_of_reads (hp : p.takesInput) (h : p.Reads entry) :
    ∃ a, p.input sizes (.ofEntries (entry :: pending) provided) =
        .ok (a, .ofEntries pending provided) ∧ p.Holds sizes entry a := by
  cases hspace : p.space with
  | global => exact exists_input_of_parsed (.inl hspace) h.parsed
  | constant => exact exists_input_of_parsed (.inr hspace) h.parsed
  | workGroup => exact absurd hspace (takesInput_iff.1 hp)
  | workItem =>
    obtain ⟨text, rfl⟩ := List.length_eq_one_iff.1 (h.single hspace)
    obtain ⟨bytes, hbytes⟩ := h.parsed text (by simp)
    let v : Value := ⟨p.type, bytes, Element.length_of_parse hbytes⟩
    have hv : Value.parse p.type text = .ok v := Value.parse_eq_ok_iff.2 ⟨rfl, hbytes⟩
    refine ⟨.scalar v, ?_, .scalar hspace rfl hbytes⟩
    rw [input_of_scalar hspace, Generator.scalar_ofEntries, hv]

/-- Where the entry in front cannot be read, the failure names the text for which it cannot. -/
theorem input_of_offends (hp : p.takesInput) (h : p.Offends entry text) :
    p.input sizes (.ofEntries (entry :: pending) provided) =
      .error (.unreadableValue text p.type.name) := by
  have hbuffer (hspace : p.space = .global ∨ p.space = .constant)
      (hentry : Generator.ofEntry p.type entry sizes.globalSize.toNat =
        .error (.unreadableValue text p.type.name)) :
      p.input sizes (.ofEntries (entry :: pending) provided) =
        .error (.unreadableValue text p.type.name) := by
    rw [input_of_buffer hspace, Generator.contents_ofEntries, hentry]
  cases h with
  | number space length_ne => rw [input_of_scalar space, Generator.scalar_of_length_ne length_ne]
  | @element before after text single parsed unreadable =>
    cases hspace : p.space with
    | global => exact hbuffer (.inl hspace) (Generator.ofEntry_of_unreadable parsed unreadable)
    | constant => exact hbuffer (.inr hspace) (Generator.ofEntry_of_unreadable parsed unreadable)
    | workGroup => exact absurd hspace (takesInput_iff.1 hp)
    | workItem =>
      -- The text is the only one.
      have hlength := single hspace
      rw [List.length_append, List.length_cons] at hlength
      obtain rfl : before = [] := List.eq_nil_of_length_eq_zero (by omega)
      obtain rfl : after = [] := List.eq_nil_of_length_eq_zero (by omega)
      rw [input_of_scalar hspace, List.nil_append, Generator.scalar_ofEntries,
        Value.parse_eq_error_iff.2 (Element.parse_eq_error_of_unreadable unreadable)]

end Parameter

/-! ### All entries -/

/-- The first of the entries for some parameters that cannot be read: its parameter, and the text
    for which it cannot. -/
inductive FirstOffence : List Parameter → List (List String) → Parameter → String → Prop
  | here {p : Parameter} {ps : List Parameter} {entry : List String}
      {entries : List (List String)} {text : String} (offends : p.Offends entry text) :
      FirstOffence (p :: ps) (entry :: entries) p text
  | later {p q : Parameter} {ps : List Parameter} {entry : List String}
      {entries : List (List String)} {text : String} (reads : p.Reads entry)
      (first : FirstOffence ps entries q text) :
      FirstOffence (p :: ps) (entry :: entries) q text

/-- All entries can be read, or there is a first one that cannot. -/
theorem reads_or_firstOffence {ps : List Parameter} {entries : List (List String)}
    (h : entries.length = ps.length) :
    List.Forall₂ Parameter.Reads ps entries ∨ ∃ p text, FirstOffence ps entries p text := by
  induction ps generalizing entries with
  | nil =>
    rw [List.eq_nil_of_length_eq_zero h]
    exact .inl .nil
  | cons p ps ih =>
    obtain ⟨entry, entries, rfl⟩ := List.exists_cons_of_length_eq_add_one h
    rcases p.reads_or_offends entry with hreads | ⟨text, hoffends⟩
    · rcases ih (Nat.succ_inj.1 h) with hrest | ⟨q, text, hfirst⟩
      · exact .inl (.cons hreads hrest)
      · exact .inr ⟨q, text, .later hreads hfirst⟩
    · exact .inr ⟨p, text, .here hoffends⟩

namespace Signature

/-- The parameters that a caller gives a value for, in order. -/
def inputParameters (s : Signature) : List Parameter := s.filter Parameter.takesInput

theorem length_inputParameters (s : Signature) : s.inputParameters.length = s.inputCount :=
  List.countP_eq_length_filter.symm

/-- Arguments for all parameters. One that takes a value holds the entry with its number among
    those that do, and work-group memory has one element for each item of a group. -/
structure Filled (s : Signature) (sizes : LaunchSizes) (entries : List (List String))
    (args : Arguments) : Prop where
  length_eq : args.length = s.length
  input : ∀ (n : Nat) (p : Parameter) (a : Argument), s[n]? = some p → args[n]? = some a →
    p.takesInput → ∃ entry, entries[inputCount (s.take n)]? = some entry ∧ p.Holds sizes entry a
  scratch : ∀ (n : Nat) (p : Parameter) (a : Argument), s[n]? = some p → args[n]? = some a →
    p.space = .workGroup → a = .scratch p.type sizes.localSize.toNat

variable {p : Parameter} {s : Signature} {sizes : LaunchSizes} {entry : List String}
  {entries : List (List String)} {args : Arguments} {a : Argument} {provided : Nat} {text : String}

theorem filled_nil : Filled [] sizes entries [] :=
  ⟨rfl, by simp, by simp⟩

/-- The first parameter takes the first entry. -/
theorem Filled.cons_input (h : s.Filled sizes entries args) (hp : p.takesInput)
    (ha : p.Holds sizes entry a) : Filled (p :: s) sizes (entry :: entries) (a :: args) := by
  refine ⟨congrArg (· + 1) h.length_eq, fun n q x hq hx hinput => ?_, fun n q x hq hx hspace => ?_⟩
  · cases n with
    | zero =>
      cases hq
      cases hx
      exact ⟨entry, rfl, ha⟩
    | succ n =>
      have hcount : inputCount ((p :: s).take (n + 1)) = inputCount (s.take n) + 1 :=
        List.countP_cons_of_pos hp
      rw [hcount]
      exact h.input n q x hq hx hinput
  · cases n with
    | zero =>
      cases hq
      exact absurd hspace (Parameter.takesInput_iff.1 hp)
    | succ n => exact h.scratch n q x hq hx hspace

/-- Work-group memory leaves the entries to the parameters behind it. -/
theorem Filled.cons_scratch (h : s.Filled sizes entries args) (hp : p.space = .workGroup) :
    Filled (p :: s) sizes entries (.scratch p.type sizes.localSize.toNat :: args) := by
  have hnone : ¬p.takesInput := fun hinput => Parameter.takesInput_iff.1 hinput hp
  refine ⟨congrArg (· + 1) h.length_eq, fun n q x hq hx hinput => ?_, fun n q x hq hx hspace => ?_⟩
  · cases n with
    | zero =>
      cases hq
      exact absurd hinput hnone
    | succ n =>
      have hcount : inputCount ((p :: s).take (n + 1)) = inputCount (s.take n) :=
        List.countP_cons_of_neg hnone
      rw [hcount]
      exact h.input n q x hq hx hinput
  · cases n with
    | zero =>
      cases hq
      cases hx
      rfl
    | succ n => exact h.scratch n q x hq hx hspace

/-- Where all entries can be read there are values, and no entry is left. -/
theorem inputsFrom_of_reads (h : List.Forall₂ Parameter.Reads s.inputParameters entries) :
    ∃ args, inputsFrom sizes s (.ofEntries entries provided) = .ok (args, .ofEntries [] provided) ∧
      s.Filled sizes entries args := by
  induction s generalizing entries with
  | nil =>
    cases h
    exact ⟨[], rfl, filled_nil⟩
  | cons p s ih =>
    by_cases hp : p.takesInput
    · rw [inputParameters, List.filter_cons_of_pos hp] at h
      cases h with
      | cons hreads hrest =>
        obtain ⟨a, ha, hholds⟩ := Parameter.exists_input_of_reads hp hreads
        obtain ⟨args, hargs, hfilled⟩ := ih hrest
        refine ⟨a :: args, ?_, hfilled.cons_input hp hholds⟩
        rw [inputsFrom, ha]
        simp only [hargs, Except.map]
    · rw [inputParameters, List.filter_cons_of_neg hp] at h
      have hspace : p.space = .workGroup := by simpa [Parameter.takesInput_iff] using hp
      obtain ⟨args, hargs, hfilled⟩ := ih h
      refine ⟨_, ?_, hfilled.cons_scratch hspace⟩
      rw [inputsFrom, Parameter.input_of_scratch hspace]
      simp only [hargs, Except.map]

/-- Where an entry cannot be read, the failure names the first text for which one cannot. -/
theorem inputsFrom_of_firstOffence (h : FirstOffence s.inputParameters entries p text) :
    inputsFrom sizes s (.ofEntries entries provided) =
      .error (.unreadableValue text p.type.name) := by
  induction s generalizing entries with
  | nil => cases h
  | cons q s ih =>
    by_cases hq : q.takesInput
    · rw [inputParameters, List.filter_cons_of_pos hq] at h
      cases h with
      | here offends => rw [inputsFrom, Parameter.input_of_offends hq offends]
      | later reads first =>
        obtain ⟨a, ha, -⟩ := Parameter.exists_input_of_reads hq reads
        rw [inputsFrom, ha]
        simp only [ih first, Except.map]
    · rw [inputParameters, List.filter_cons_of_neg hq] at h
      have hspace : q.space = .workGroup := by simpa [Parameter.takesInput_iff] using hq
      rw [inputsFrom, Parameter.input_of_scratch hspace]
      simp only [ih h, Except.map]

end Signature

end KernelDiff

import KernelDiff.Instance
import KernelDiff.Proofs.Json.Members

namespace KernelDiff

/-!
# Reading an instance ignores how it is presented

An instance is read from the fields of an object by their names. Neither the order of the members
nor the white space between tokens is looked at, and members with other names are passed over
whatever they hold. A field that is left out is at its default, if it has one, and no field may
stand twice.

* `Instance.ReadFrom` — what the fields of an instance say;
* `Instance.parse?_object_iff` — the objects that instances are read from;
* `Instance.load_presentation` — other presentations of the text of an instance.
-/

namespace Instance

/-! ### The fields of an instance -/

/-- The fields say what the instance is, each by its name. -/
structure ReadFrom (fields : List (String × Json)) (i : Instance) : Prop where
  source : Json.required? fields "opencl_src" Json.string? = some i.source
  buildOptions : Json.optional? fields "build_opts" "" Json.string? = some i.buildOptions
  device : Json.optional? fields "device" (.index 0) DeviceSelector.ofJson? = some i.device
  matrix : Json.required? fields "dynamic_params" (Json.list? LaunchSizes.ofJson?) = some i.matrix
  policy : Json.optional? fields "value_policy" .standard ValuePolicy.ofJson? = some i.policy
  checkSensitivity :
    Json.optional? fields "check_input_sensitivity" true Json.bool? = some i.checkSensitivity
  inputs : Json.optional? fields "inputs" none
    (Json.orNull? (Json.list? (Json.list? Json.string?))) = some i.inputs

theorem ofJson?_eq_some_iff {v : Json} {i : Instance} :
    ofJson? v = some i ↔ ∃ fields, v.record? fieldNames = some fields ∧ ReadFrom fields i := by
  simp only [ofJson?, Option.bind_eq_bind, Option.bind_eq_some_iff, Option.pure_def]
  constructor
  · rintro ⟨fields, hrecord, _, hsource, _, hoptions, _, hdevice, _, hmatrix, _, hpolicy, _, hcheck,
      _, hinputs, hi⟩
    cases hi
    exact ⟨fields, hrecord, hsource, hoptions, hdevice, hmatrix, hpolicy, hcheck, hinputs⟩
  · rintro ⟨fields, hrecord, h⟩
    exact ⟨fields, hrecord, _, h.source, _, h.buildOptions, _, h.device, _, h.matrix, _, h.policy,
      _, h.checkSensitivity, _, h.inputs, rfl⟩

/-- The names of the fields that have a default. -/
def defaultNames : List String :=
  ["build_opts", "device", "value_policy", "check_input_sensitivity", "inputs"]

/-- The instance with the field of a name at its default. -/
def atDefault (i : Instance) (name : String) : Instance where
  source := i.source
  buildOptions := if name = "build_opts" then "" else i.buildOptions
  device := if name = "device" then .index 0 else i.device
  matrix := i.matrix
  policy := if name = "value_policy" then .standard else i.policy
  checkSensitivity := if name = "check_input_sensitivity" then true else i.checkSensitivity
  inputs := if name = "inputs" then none else i.inputs

variable {fields fields' : List (String × Json)} {i i' : Instance} {name : String}

/-- Fields that are looked up alike say the same. -/
theorem ReadFrom.congr (h : ReadFrom fields i)
    (hlookup : ∀ n, fields'.lookup n = fields.lookup n) : ReadFrom fields' i where
  source := (Json.required?_of_lookup (hlookup _)).trans h.source
  buildOptions := (Json.optional?_of_lookup (hlookup _)).trans h.buildOptions
  device := (Json.optional?_of_lookup (hlookup _)).trans h.device
  matrix := (Json.required?_of_lookup (hlookup _)).trans h.matrix
  policy := (Json.optional?_of_lookup (hlookup _)).trans h.policy
  checkSensitivity := (Json.optional?_of_lookup (hlookup _)).trans h.checkSensitivity
  inputs := (Json.optional?_of_lookup (hlookup _)).trans h.inputs

/-- Without the field of a name that has a default, an instance has it there. -/
theorem ReadFrom.leaveOut (h : ReadFrom fields i) (hmissing : fields'.lookup name = none)
    (hothers : ∀ n, n ≠ name → fields'.lookup n = fields.lookup n) (hname : name ∈ defaultNames) :
    ReadFrom fields' (i.atDefault name) := by
  have hoptional {α : Type} {n : String} {missing x : α} {read : Json → Option α}
      (hx : Json.optional? fields n missing read = some x) :
      Json.optional? fields' n missing read = some (if name = n then missing else x) := by
    by_cases hn : name = n
    · subst hn
      rw [if_pos rfl, Json.optional?_of_missing hmissing]
    · rw [if_neg hn, Json.optional?_of_lookup (hothers n (Ne.symm hn)), hx]
  have hsource : "opencl_src" ≠ name := by
    rintro rfl
    exact absurd hname (by decide)
  have hmatrix : "dynamic_params" ≠ name := by
    rintro rfl
    exact absurd hname (by decide)
  exact {
    source := (Json.required?_of_lookup (hothers _ hsource)).trans h.source
    buildOptions := hoptional h.buildOptions
    device := hoptional h.device
    matrix := (Json.required?_of_lookup (hothers _ hmatrix)).trans h.matrix
    policy := hoptional h.policy
    checkSensitivity := hoptional h.checkSensitivity
    inputs := hoptional h.inputs }

/-- Without its source or its sizes there is no instance. -/
theorem not_readFrom_of_missing (hname : name = "opencl_src" ∨ name = "dynamic_params")
    (hmissing : fields.lookup name = none) : ¬ReadFrom fields i := by
  intro h
  rcases hname with rfl | rfl
  · have hsource := h.source
    rw [Json.required?, hmissing] at hsource
    cases hsource
  · have hmatrix := h.matrix
    rw [Json.required?, hmissing] at hmatrix
    cases hmatrix

/-! ### The objects that instances are read from -/

/-- The members say what the instance is: all their names are texts, and none of its fields stands
    twice. -/
structure SaidBy (members : List (JsonText × Json)) (i : Instance) : Prop where
  isText : ∀ m ∈ members, m.1.isSome
  nodup : ((Json.known fieldNames members).map (·.1)).Nodup
  readFrom : ReadFrom (Json.known fieldNames members) i

/-- **An instance is read from the object whose members say it.** -/
theorem parse?_object_iff {s : String} {members : List (JsonText × Json)}
    (hobject : Json.parse? s = some (.object members)) :
    parse? s = some i ↔ SaidBy members i := by
  rw [parse?, hobject, Option.bind_some, ofJson?_eq_some_iff]
  constructor
  · rintro ⟨fields, hrecord, hread⟩
    obtain ⟨hsome, rfl, hnodup⟩ := Json.record?_object_iff.1 hrecord
    exact ⟨hsome, hnodup, hread⟩
  · rintro ⟨hsome, hnodup, hread⟩
    exact ⟨_, Json.record?_object_iff.2 ⟨hsome, rfl, hnodup⟩, hread⟩

variable {members members' extra left right : List (JsonText × Json)} {v w : Json}

/-- The order of the members and members with other names do not count. -/
theorem SaidBy.perm (h : SaidBy members i)
    (hextra : ∀ m ∈ extra, ∃ n, m.1 = some n ∧ n ∉ fieldNames)
    (hperm : members'.Perm (members ++ extra)) : SaidBy members' i := by
  have hknown : (Json.known fieldNames members').Perm (Json.known fieldNames members) := by
    have happend := Json.known_perm fieldNames hperm
    rw [Json.known_append, Json.known_eq_nil hextra, List.append_nil] at happend
    exact happend
  refine ⟨fun m hm => ?_, (hknown.map _).nodup_iff.2 h.nodup,
    h.readFrom.congr fun n => Json.lookup_of_perm h.nodup hknown⟩
  rcases List.mem_append.1 (hperm.mem_iff.1 hm) with hm | hm
  · exact h.isText m hm
  · obtain ⟨n, hn, _⟩ := hextra m hm
    rw [hn]
    rfl

/-- The known members around one that is left out. -/
theorem known_leaveOut (hname : name ∈ fieldNames) :
    Json.known fieldNames (left ++ (some name, v) :: right) =
      Json.known fieldNames left ++ (name, v) :: Json.known fieldNames right := by
  rw [Json.known_append, Json.known_cons_of_mem hname]

/-- A member with a default may be left out. -/
theorem SaidBy.leaveOut (h : SaidBy (left ++ (some name, v) :: right) i)
    (hname : name ∈ defaultNames) : SaidBy (left ++ right) (i.atDefault name) := by
  have hfield : name ∈ fieldNames := by
    have hall : ∀ n ∈ defaultNames, n ∈ fieldNames := by decide
    exact hall name hname
  obtain ⟨htext, hnodup, hread⟩ := h
  rw [known_leaveOut hfield] at hnodup hread
  have hsub : (left ++ right).Sublist (left ++ (some name, v) :: right) :=
    (List.Sublist.refl left).append (List.sublist_cons_self _ right)
  refine ⟨fun m hm => htext m (hsub.subset hm), ?_, ?_⟩
  · have hfields := (List.Sublist.refl (Json.known fieldNames left)).append
      (List.sublist_cons_self (name, v) (Json.known fieldNames right))
    rw [Json.known_append]
    exact hnodup.sublist (hfields.map _)
  · rw [Json.known_append]
    exact hread.leaveOut (Json.lookup_leaveOut_self hnodup)
      (fun n hn => Json.lookup_leaveOut_of_ne hn) hname

/-- Source and sizes may not be left out. -/
theorem not_saidBy_leaveOut (h : SaidBy (left ++ (some name, v) :: right) i)
    (hname : name = "opencl_src" ∨ name = "dynamic_params") : ¬SaidBy (left ++ right) i' := by
  have hfield : name ∈ fieldNames := by
    rcases hname with rfl | rfl <;> decide
  intro h'
  have hnodup := h.nodup
  have hread := h'.readFrom
  rw [known_leaveOut hfield] at hnodup
  rw [Json.known_append] at hread
  exact not_readFrom_of_missing hname (Json.lookup_leaveOut_self hnodup) hread

/-- No field may stand twice. -/
theorem not_saidBy_of_repeated (hm : (some name, v) ∈ members) (hname : name ∈ fieldNames)
    (hperm : members'.Perm ((some name, w) :: members)) : ¬SaidBy members' i := by
  intro h
  have hknown := Json.known_perm fieldNames hperm
  rw [Json.known_cons_of_mem hname] at hknown
  have hnodup := (hknown.map (·.1)).nodup_iff.1 h.nodup
  rw [List.map_cons, List.nodup_cons] at hnodup
  refine hnodup.1 (List.mem_map.2 ⟨(name, v), List.mem_filterMap.2 ⟨_, hm, ?_⟩, rfl⟩)
  simp [hname]

/-! ### Other presentations of a text -/

variable {reason : String → String} {s : String} {ms : List Json.WrittenMember}

theorem load_eq_ok_iff : load reason s = .ok i ↔ parse? s = some i := by
  unfold load
  cases parse? s <;> simp

theorem load_eq_error (h : ∀ i, parse? s ≠ some i) :
    load reason s = .error (.config (reason s)) := by
  rw [load, Option.eq_none_iff_forall_ne_some.2 h]

/-- A written object holds the instance that its members say. -/
theorem parse?_of_writes (h : Json.Writes ms s) :
    parse? s = some i ↔ SaidBy (ms.map (·.content)) i :=
  parse?_object_iff (Json.parse?_eq_object_iff.2 ⟨ms, h, rfl⟩)

/-- **Reading an instance ignores how it is presented.** Every object that holds an instance is
    written as members with white space between the tokens. It may be written with any other white
    space, with its members in any order, and with any members more whose names are unknown. A
    member with a default may be left out, which puts the field there. Leaving out the source or the
    sizes, or repeating a known member, is a failure. -/
theorem load_presentation (reason : String → String) {s : String}
    (hobject : Json.parse? s = some (.object members)) (hload : load reason s = .ok i) :
    (∃ ms, Json.Writes ms s) ∧ ∀ ms, Json.Writes ms s →
      (∀ ms' extra s', (∀ m ∈ extra, ∃ n, m.name = some n ∧ n ∉ fieldNames) →
        ms'.Perm (ms ++ extra) → Json.Writes ms' s' → load reason s' = .ok i) ∧
      (∀ left m right name s', ms = left ++ m :: right → m.name = some name →
        Json.Writes (left ++ right) s' →
          (name ∈ defaultNames → load reason s' = .ok (i.atDefault name)) ∧
          (name = "opencl_src" ∨ name = "dynamic_params" →
            load reason s' = .error (.config (reason s')))) ∧
      (∀ m ∈ ms, ∀ m' ms' name s', m.name = some name → m'.name = some name → name ∈ fieldNames →
        ms'.Perm (m' :: ms) → Json.Writes ms' s' →
          load reason s' = .error (.config (reason s'))) := by
  obtain ⟨written, hwritten, _⟩ := Json.parse?_eq_object_iff.1 hobject
  refine ⟨⟨written, hwritten⟩, fun ms hms => ?_⟩
  have hsaid := (parse?_of_writes hms).1 (load_eq_ok_iff.1 hload)
  refine ⟨?_, ?_, ?_⟩
  · -- In another order, with other white space and with unknown members among them.
    intro ms' extra s' hextra hperm hms'
    have hcontents := hperm.map (·.content)
    rw [List.map_append] at hcontents
    refine load_eq_ok_iff.2 ((parse?_of_writes hms').2 (hsaid.perm ?_ hcontents))
    intro m hm
    obtain ⟨e, he, rfl⟩ := List.mem_map.1 hm
    exact hextra e he
  · -- Without one of the members.
    rintro left m right name s' rfl hname hms'
    have hcontent : m.content = (some name, m.value) := by
      rw [Json.WrittenMember.content, hname]
    rw [List.map_append, List.map_cons, hcontent] at hsaid
    refine ⟨fun hdefault => ?_, fun hrequired => load_eq_error fun i' h' => ?_⟩
    · rw [load_eq_ok_iff, parse?_of_writes hms', List.map_append]
      exact hsaid.leaveOut hdefault
    · rw [parse?_of_writes hms', List.map_append] at h'
      exact not_saidBy_leaveOut hsaid hrequired h'
  · -- With a known member once more, anywhere and with any value.
    intro m hm m' ms' name s' hname hname' hfield hperm hms'
    have hmem : (some name, m.value) ∈ ms.map (·.content) := by
      rw [← hname]
      exact List.mem_map.2 ⟨m, hm, rfl⟩
    have hcontents : (ms'.map (·.content)).Perm ((some name, m'.value) :: ms.map (·.content)) := by
      rw [← hname']
      exact hperm.map (·.content)
    refine load_eq_error fun i' h' => ?_
    exact not_saidBy_of_repeated hmem hfield hcontents ((parse?_of_writes hms').1 h')

/-- A source, as it is written. -/
def writtenSource : Json.WrittenMember where
  name := some "opencl_src"
  value := .string "A"
  key := "\"opencl_src\"".toList
  lexemes := ["\"A\"".toList]
  key_spells := Json.Spells.plain (s := "opencl_src".toList) (by decide)
  value_spells := .cons (Json.Spells.plain (s := ['A']) (by decide)) .nil

/-- Sizes, as they are written. -/
def writtenSizes : Json.WrittenMember where
  name := some "dynamic_params"
  value := .array []
  key := "\"dynamic_params\"".toList
  lexemes := [['['], [']']]
  key_spells := Json.Spells.plain (s := "dynamic_params".toList) (by decide)
  value_spells := .cons .openArray (.cons .closeArray .nil)

/-- A member that no instance has. -/
def writtenOther : Json.WrittenMember where
  name := some "note"
  value := .null
  key := "\"note\"".toList
  lexemes := ["null".toList]
  key_spells := Json.Spells.plain (s := "note".toList) (by decide)
  value_spells := .cons (.word .null) .nil

/-- An instance with its members in another order, and with one more; without its sizes; and with
    two sources. -/
theorem load_presentation_bare :
    load id "\x7b\"opencl_src\":\"A\",\"dynamic_params\":[]\x7d" = .ok { source := "A" } ∧
    load id "\x7b\n\"dynamic_params\":[],\"note\":null,\"opencl_src\":\"A\"\x7d" =
      .ok { source := "A" } ∧
    load id "\x7b\"opencl_src\":\"A\"\x7d" =
      .error (.config "\x7b\"opencl_src\":\"A\"\x7d") ∧
    load id "\x7b\"opencl_src\":\"A\",\"opencl_src\":\"A\",\"dynamic_params\":[]\x7d" =
      .error (.config
        "\x7b\"opencl_src\":\"A\",\"opencl_src\":\"A\",\"dynamic_params\":[]\x7d") := by
  have hwrites : Json.Writes [writtenSource, writtenSizes]
      "\x7b\"opencl_src\":\"A\",\"dynamic_params\":[]\x7d" := Json.laid_flatten _
  have hobject := Json.parse?_eq_object_iff.2 ⟨_, hwrites, rfl⟩
  have hload : load id "\x7b\"opencl_src\":\"A\",\"dynamic_params\":[]\x7d" =
      .ok { source := "A" } := by
    rw [load_eq_ok_iff, parse?_of_writes hwrites]
    exact ⟨by decide, by decide, rfl, rfl, rfl, rfl, rfl, rfl, rfl⟩
  obtain ⟨hsame, hleft, hrepeated⟩ := (load_presentation id hobject hload).2 _ hwrites
  refine ⟨hload, hsame [writtenSizes, writtenOther, writtenSource] [writtenOther] _ ?_ ?_ ?_,
    (hleft [writtenSource] writtenSizes [] "dynamic_params" _ rfl rfl ?_).2 (.inr rfl),
    hrepeated writtenSource ?_ writtenSource [writtenSource, writtenSource, writtenSizes]
      "opencl_src" _ rfl rfl ?_ ?_ ?_⟩
  · intro m hm
    rw [List.mem_singleton.1 hm]
    exact ⟨"note", rfl, by decide⟩
  · exact @List.perm_append_comm _ [writtenSizes, writtenOther] [writtenSource]
  · exact .lexeme (.space rfl (Json.laid_flatten _))
  · exact Json.laid_flatten _
  · exact List.mem_cons_self
  · decide
  · exact .refl _
  · exact Json.laid_flatten _

end Instance

end KernelDiff

import KernelDiff.Proofs.CommandLine.Arguments

namespace KernelDiff.CommandLine

/-!
# What settings make of options

Options gather what settings say, in order. Values of an option are put behind those that were given
before, and an option that may be given once is set by the only setting that says it.

* `valuesOf`, `GivesSizes` — the values that settings give for an option;
* `setAll_gathers` — what every setting adds is there in the end;
* `Asks`, `parse_eq_drive_iff_asks` — the arguments that ask for driving an input.
-/

/-- The value that a setting gives for an option. -/
def Setting.valueOf (option : ValueOption) : Setting → List String
  | .value given text => if given = option then [text] else []
  | _ => []

/-- The input that a setting names. -/
def Setting.inputs : Setting → List String
  | .input text => [text]
  | _ => []

/-- The values that are given for an option, in order. -/
def valuesOf (option : ValueOption) (ss : List Setting) : List String :=
  ss.flatMap (·.valueOf option)

/-- The sizes that are given for an option, in order. -/
def GivesSizes (option : ValueOption) (ss : List Setting) (sizes : List UInt64) : Prop :=
  (valuesOf option ss).map (fun text => Text.word64? text.toList) = sizes.map some

variable {o o' : Options} {s : Setting} {ss : List Setting} {args : List String}

/-! ### One setting -/

/-- What one setting makes of options. -/
inductive Sets (o : Options) : Setting → Options → Prop
  | globalSize {text : String} {n : UInt64} (reads : Text.word64? text.toList = some n) :
      Sets o (.value .globalSize text) { o with globalSizes := o.globalSizes ++ [n] }
  | localSize {text : String} {n : UInt64} (reads : Text.word64? text.toList = some n) :
      Sets o (.value .localSize text) { o with localSizes := o.localSizes ++ [n] }
  | values {text : String} : Sets o (.value .input text) { o with inputs := o.inputs ++ [text] }
  | buildOptions {text : String} (unset : o.buildOptions = none) :
      Sets o (.value .buildOptions text) { o with buildOptions := some text }
  | device {text : String} (unset : o.device = none) :
      Sets o (.value .device text) { o with device := some text }
  | seed {text : String} {n : Int64} (reads : Text.int64? text.toList = some n)
      (unset : o.seed = none) : Sets o (.value .seed text) { o with seed := some n }
  | random (unset : o.random = false) : Sets o (.flag .random) { o with random := true }
  | noInputCheck (unset : o.noInputCheck = false) :
      Sets o (.flag .noInputCheck) { o with noInputCheck := true }
  | json (unset : o.json = false) : Sets o (.flag .json) { o with json := true }
  | listDevices (unset : o.listDevices = false) :
      Sets o (.flag .listDevices) { o with listDevices := true }
  | verbose (unset : o.verbose = false) : Sets o (.flag .verbose) { o with verbose := true }
  | version : Sets o (.flag .version) o
  | help : Sets o (.flag .help) o
  | input {text : String} (unset : o.input = none) :
      Sets o (.input text) { o with input := some text }

theorem once_eq_some {α : Type} {old : Option α} {new : α} {set : α → Options}
    (h : Options.once old new set = some o) : old = none ∧ set new = o := by
  cases old with
  | none => exact ⟨rfl, Option.some.inj h⟩
  | some _ => cases h

theorem sets_of_setValue {option : ValueOption} {text : String}
    (h : o.setValue option text = some o') : Sets o (.value option text) o' := by
  cases option with
  | globalSize =>
    obtain ⟨n, hn, rfl⟩ := Option.map_eq_some_iff.1 h
    exact .globalSize hn
  | localSize =>
    obtain ⟨n, hn, rfl⟩ := Option.map_eq_some_iff.1 h
    exact .localSize hn
  | input =>
    cases h
    exact .values
  | buildOptions =>
    simp only [Options.setValue] at h
    obtain ⟨hunset, rfl⟩ := once_eq_some h
    exact .buildOptions hunset
  | device =>
    simp only [Options.setValue] at h
    obtain ⟨hunset, rfl⟩ := once_eq_some h
    exact .device hunset
  | seed =>
    obtain ⟨n, hn, honce⟩ := Option.bind_eq_some_iff.1 h
    obtain ⟨hunset, rfl⟩ := once_eq_some honce
    exact .seed hn hunset

theorem sets_of_setFlag {f : Flag} (h : o.setFlag f = some o') : Sets o (.flag f) o' := by
  have hunset {b : Bool} {made : Options} (hb : (if b then none else some made) = some o') :
      b = false ∧ made = o' := by
    cases b with
    | false => exact ⟨rfl, Option.some.inj hb⟩
    | true => cases hb
  cases f with
  | random =>
    obtain ⟨hb, rfl⟩ := hunset h
    exact .random hb
  | noInputCheck =>
    obtain ⟨hb, rfl⟩ := hunset h
    exact .noInputCheck hb
  | json =>
    obtain ⟨hb, rfl⟩ := hunset h
    exact .json hb
  | listDevices =>
    obtain ⟨hb, rfl⟩ := hunset h
    exact .listDevices hb
  | verbose =>
    obtain ⟨hb, rfl⟩ := hunset h
    exact .verbose hb
  | version =>
    cases h
    exact .version
  | help =>
    cases h
    exact .help

/-- **What a setting makes of options**, if it may be made. -/
theorem sets_of_set (h : o.set s = some o') : Sets o s o' := by
  cases s with
  | value option text => exact sets_of_setValue h
  | flag f => exact sets_of_setFlag h
  | input text =>
    simp only [Options.set, Options.setInput] at h
    obtain ⟨hunset, rfl⟩ := once_eq_some h
    exact .input hunset

/-! ### All settings -/

/-- What one setting does and what the settings behind it do are put together along them. -/
theorem setAll_induction {motive : Options → List Setting → Options → Prop}
    (nil : ∀ o, motive o [] o)
    (cons : ∀ {o s next ss o'}, Sets o s next → motive next ss o' → motive o (s :: ss) o')
    (h : o.setAll ss = some o') : motive o ss o' := by
  induction ss generalizing o with
  | nil =>
    cases h
    exact nil _
  | cons s ss ih =>
    rw [Options.setAll_cons] at h
    obtain ⟨next, hnext, hrest⟩ := Option.bind_eq_some_iff.1 h
    exact cons (sets_of_set hnext) (ih hrest)

/-- What every setting adds to a part of the options is there when all are made. -/
theorem setAll_gathers {α : Type} (part : Options → List α) (added : Setting → List α)
    (hset : ∀ {o s o'}, Sets o s o' → part o' = part o ++ added s) (h : o.setAll ss = some o') :
    part o' = part o ++ ss.flatMap added := by
  apply setAll_induction (motive := fun o ss o' => part o' = part o ++ ss.flatMap added) _ _ h
  · intro o
    rw [List.flatMap_nil, List.append_nil]
  · intro o s next ss o' hnext hrest
    rw [hrest, hset hnext, List.flatMap_cons, List.append_assoc]

/-- A flag is up when all settings are made if it was before, or if one of them is the flag. -/
theorem setAll_flag (raised : Options → Bool) (f : Flag)
    (hset : ∀ {o s o'}, Sets o s o' → (raised o' ↔ raised o ∨ .flag f = s))
    (h : o.setAll ss = some o') : raised o' ↔ raised o ∨ .flag f ∈ ss := by
  apply setAll_induction (motive := fun o ss o' => raised o' ↔ raised o ∨ .flag f ∈ ss) _ _ h
  · intro o
    simp
  · intro o s next ss o' hnext hrest
    rw [hrest, hset hnext, List.mem_cons, or_assoc]

section

variable (h : ({} : Options).setAll ss = some o)
include h

theorem givesSizes_of_gathers (option : ValueOption) (sizes : Options → List UInt64)
    (hnone : sizes {} = [])
    (hset : ∀ {o s o'}, Sets o s o' → (sizes o').map some =
      (sizes o).map some ++ (s.valueOf option).map fun text => Text.word64? text.toList) :
    GivesSizes option ss (sizes o) := by
  have hgathers := setAll_gathers (fun o => (sizes o).map some) _ hset h
  rw [hnone, List.map_nil, List.nil_append] at hgathers
  rw [GivesSizes, valuesOf, List.map_flatMap]
  exact hgathers.symm

theorem givesSizes_globalSizes : GivesSizes .globalSize ss o.globalSizes :=
  givesSizes_of_gathers h .globalSize Options.globalSizes rfl
    fun hset => by cases hset <;> simp_all [Setting.valueOf]

theorem givesSizes_localSizes : GivesSizes .localSize ss o.localSizes :=
  givesSizes_of_gathers h .localSize Options.localSizes rfl
    fun hset => by cases hset <;> simp_all [Setting.valueOf]

theorem inputs_eq_valuesOf : o.inputs = valuesOf .input ss :=
  setAll_gathers Options.inputs (fun s => s.valueOf .input)
    (fun hset => by cases hset <;> simp [Setting.valueOf]) h

theorem input_toList_eq : o.input.toList = ss.flatMap Setting.inputs :=
  setAll_gathers (fun o => o.input.toList) Setting.inputs
    (fun hset => by cases hset <;> simp_all [Setting.inputs]) h

theorem input_eq_some_iff {name : String} : o.input = some name ↔ .input name ∈ ss := by
  have hmem : .input name ∈ ss ↔ name ∈ o.input.toList := by
    rw [input_toList_eq h, List.mem_flatMap]
    constructor
    · exact fun hname => ⟨_, hname, List.mem_singleton.2 rfl⟩
    · rintro ⟨s, hs, hname⟩
      cases s with
      | input text =>
        rw [List.mem_singleton.1 hname]
        exact hs
      | value option text | flag f => cases hname
  rw [hmem, Option.mem_toList]

theorem json_iff : o.json ↔ .flag .json ∈ ss := by
  have hflag := setAll_flag Options.json .json (fun hset => by cases hset <;> simp_all) h
  rw [hflag]
  simp

theorem listDevices_iff : o.listDevices ↔ .flag .listDevices ∈ ss := by
  have hflag := setAll_flag Options.listDevices .listDevices
    (fun hset => by cases hset <;> simp_all) h
  rw [hflag]
  simp

end

/-! ### Driving an input -/

/-- The arguments say settings that ask for driving the input of a name, and not for the list of
    devices. -/
structure Asks (args : List String) (ss : List Setting) (o : Options) (name : String) : Prop where
  said : Says args ss
  made : ({} : Options).setAll ss = some o
  input : .input name ∈ ss
  unlisted : .flag .listDevices ∉ ss

/-- **The arguments that ask for driving an input** are those that are taken so. -/
theorem parse_eq_drive_iff_asks :
    (parse args = some (.drive o) ∧ o.listDevices = false) ↔ ∃ ss name, Asks args ss o name := by
  constructor
  · rintro ⟨hparse, hlist⟩
    obtain ⟨ss, said, made, hinput⟩ := parse_eq_drive_iff.1 hparse
    have hsome := hinput.resolve_right (by rw [hlist]; exact Bool.false_ne_true)
    obtain ⟨name, hname⟩ := Option.isSome_iff_exists.1 hsome
    refine ⟨ss, name, said, made, (input_eq_some_iff made).1 hname, fun hmem => ?_⟩
    rw [(listDevices_iff made).2 hmem] at hlist
    cases hlist
  · rintro ⟨ss, name, said, made, hinput, hunlisted⟩
    have hname := (input_eq_some_iff made).2 hinput
    refine ⟨parse_eq_drive_iff.2 ⟨ss, said, made, .inl (by rw [hname]; rfl)⟩, ?_⟩
    exact Bool.eq_false_iff.2 fun hlist => hunlisted ((listDevices_iff made).1 hlist)

end KernelDiff.CommandLine

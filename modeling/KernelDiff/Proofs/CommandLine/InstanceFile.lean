import KernelDiff.CommandLine.Run
import KernelDiff.Proofs.CommandLine.Settings
import KernelDiff.Proofs.Instance.RoundTrip
import KernelDiff.Proofs.Text.Blank
import KernelDiff.Simulator.Machine
import Mathlib.Data.List.ProdSigma

namespace KernelDiff.CommandLine

/-!
# Options and instance files say the same

A source is driven with the instance that the options make of it, and an instance file with the
instance that it holds. Nothing but the instance and the way to report goes into a run, so a source
and the file with its instance are driven to the same end.

* `IsJoined`, `splitValues_of_isJoined` — the pieces of the values of an input option;
* `Follows`, `Asks.load?_source` — the instance for a source;
* `outcome`, `status_drive` — the outcome of an instance, and the exit status;
* `run_file_eq_run` — a source and the file with its instance.
-/

/-! ### Values between semicolons -/

/-- The text is made of the pieces, with semicolons between them and none in them. -/
structure IsJoined (text : String) (pieces : List String) : Prop where
  ne_nil : pieces ≠ []
  plain : ∀ p ∈ pieces, ';' ∉ p.toList
  text_eq : text = ";".intercalate pieces

/-- A text without the blanks around it. -/
def trimmed (text : String) : String :=
  String.ofList (Text.trim text.toList)

variable {text : String} {pieces : List String}

theorem not_mem_of_mem_splitOn {sep : Char} {s p : List Char} (h : p ∈ s.splitOn sep) :
    sep ∉ p := by
  induction s generalizing p with
  | nil =>
    rw [List.splitOn_nil, List.mem_singleton] at h
    rw [h]
    exact List.not_mem_nil
  | cons c s ih =>
    rw [List.splitOn_cons_eq_if_modifyHead] at h
    split_ifs at h with hc
    · rcases List.mem_cons.1 h with rfl | h
      · exact List.not_mem_nil
      · exact ih h
    · -- The character goes to the first piece.
      obtain ⟨first, rest, hsplit⟩ := List.exists_cons_of_ne_nil (List.splitOn_ne_nil sep s)
      rw [hsplit] at h ih
      rcases List.mem_cons.1 h with rfl | h
      · have hfirst := ih List.mem_cons_self
        have hne : sep ≠ c := fun heq => hc (beq_iff_eq.2 heq.symm)
        simp [hne, hfirst]
      · exact ih (List.mem_cons_of_mem first h)

theorem exists_isJoined (text : String) : ∃ pieces, IsJoined text pieces := by
  refine ⟨(text.toList.splitOn ';').map String.ofList, ?_, ?_, ?_⟩
  · simp
  · intro p hp
    obtain ⟨piece, hpiece, rfl⟩ := List.mem_map.1 hp
    rw [String.toList_ofList]
    exact not_mem_of_mem_splitOn hpiece
  · have hmap : String.toList ∘ String.ofList = id := funext fun _ => String.toList_ofList
    rw [← String.toList_inj, String.toList_intercalate, List.map_map, hmap, List.map_id]
    exact (List.intercalate_splitOn _).symm

/-- **The values of an input option are its pieces**, trimmed, without the empty ones. -/
theorem splitValues_of_isJoined (h : IsJoined text pieces) :
    splitValues text = (pieces.map trimmed).filter (· ≠ "") := by
  obtain ⟨hne, hplain, rfl⟩ := h
  have hsplit : (";".intercalate pieces).toList.splitOn ';' = pieces.map String.toList := by
    rw [String.toList_intercalate]
    refine List.splitOn_intercalate ';' ?_ (by simpa using hne)
    simpa using hplain
  rw [splitValues, Text.trimmedPieces, hsplit, List.map_map, List.filter_map, List.filter_map,
    List.map_map]
  have hkept : (fun w : List Char => !w.isEmpty) ∘ Text.trim ∘ String.toList =
      (fun w : String => decide (w ≠ "")) ∘ trimmed := by
    funext p
    cases hp : Text.trim p.toList <;> simp [trimmed, hp]
  rw [hkept]
  rfl

theorem exists_pieces (texts : List String) : ∃ pieces, List.Forall₂ IsJoined texts pieces ∧
    texts.map splitValues = pieces.map fun ps => (ps.map trimmed).filter (· ≠ "") := by
  induction texts with
  | nil => exact ⟨[], .nil, rfl⟩
  | cons text texts ih =>
    obtain ⟨first, hfirst⟩ := exists_isJoined text
    obtain ⟨rest, hrest, heq⟩ := ih
    refine ⟨first :: rest, .cons hfirst hrest, ?_⟩
    rw [List.map_cons, List.map_cons, splitValues_of_isJoined hfirst, heq]

/-- Pieces that are trimmed and not empty are given back. -/
theorem splitValues_intercalate
    (h : ∀ p ∈ pieces, p ≠ "" ∧ trimmed p = p ∧ ';' ∉ p.toList) :
    splitValues (";".intercalate pieces) = pieces := by
  by_cases hne : pieces = []
  · subst hne
    rfl
  have hmap : pieces.map trimmed = pieces := by
    refine (List.map_congr_left fun p hp => (h p hp).2.1).trans (List.map_id _)
  have hfilter : pieces.filter (· ≠ "") = pieces :=
    List.filter_eq_self.2 fun p hp => decide_eq_true (h p hp).1
  rw [splitValues_of_isJoined ⟨hne, fun p hp => (h p hp).2.2, rfl⟩, hmap, hfilter]

/-! ### The instance for a source -/

/-- What is given, or a value to fall back on where nothing is. -/
def orDefault (missing : α) (given : List α) : List α :=
  if given = [] then [missing] else given

/-- The instance has the sizes and the inputs that settings give: all pairs of sizes, with global
    sizes first, and a list for each value of an input option. -/
structure Follows (ss : List Setting) (i : Instance) : Prop where
  matrix : ∃ globals locals, GivesSizes .globalSize ss globals ∧ GivesSizes .localSize ss locals ∧
    i.matrix = ((orDefault 8 globals).product (orDefault 1 locals)).map fun p => ⟨p.1, p.2⟩
  inputs_eq_none_iff : i.inputs = none ↔ valuesOf .input ss = []
  inputs : ∀ lists, i.inputs = some lists →
    ∃ pieces, List.Forall₂ IsJoined (valuesOf .input ss) pieces ∧
      lists = pieces.map fun ps => (ps.map trimmed).filter (· ≠ "")

variable {args : List String} {ss : List Setting} {o o' : Options} {name : String}

theorem Asks.inputName_eq (h : Asks args ss o name) : o.inputName = name := by
  rw [Options.inputName, (input_eq_some_iff h.made).2 h.input, Option.getD_some]

theorem Asks.isInstanceFile_iff (h : Asks args ss o name) :
    o.isInstanceFile ↔ ".json".toList <:+ name.toList := by
  rw [Options.isInstanceFile, h.inputName_eq, List.isSuffixOf_iff_suffix]

theorem matrix_eq (o : Options) : o.matrix =
    ((orDefault 8 o.globalSizes).product (orDefault 1 o.localSizes)).map
      fun p => ⟨p.1, p.2⟩ := by
  have hdefault (missing : UInt64) (given : List UInt64) :
      (if given.isEmpty then [missing] else given) = orDefault missing given := by
    cases given <;> rfl
  simp only [Options.matrix, hdefault, List.product, List.map_flatMap, List.map_map]
  rfl

/-- The instance for a source has what the settings give. -/
theorem follows_ofSource (h : ({} : Options).setAll ss = some o) (source : String) :
    Follows ss (o.ofSource source) := by
  have hgiven := inputs_eq_valuesOf h
  have hinputs : (o.ofSource source).inputs =
      if o.inputs.isEmpty then none else some (o.inputs.map splitValues) := rfl
  rw [hgiven] at hinputs
  refine ⟨⟨o.globalSizes, o.localSizes, givesSizes_globalSizes h, givesSizes_localSizes h,
    matrix_eq o⟩, ?_, fun lists hlists => ?_⟩
  · rw [hinputs]
    cases valuesOf .input ss <;> simp
  · rw [hinputs] at hlists
    split_ifs at hlists
    cases hlists
    exact exists_pieces _

theorem Asks.load?_source (h : Asks args ss o name) (hsource : ¬".json".toList <:+ name.toList)
    (source : String) : o.load? source = some (o.ofSource source) :=
  if_neg fun hfile => hsource (h.isInstanceFile_iff.1 hfile)

theorem Asks.load?_text (h : Asks args ss o name) (hfile : ".json".toList <:+ name.toList)
    (i : Instance) : o.load? i.text = some i := by
  rw [Options.load?, if_pos (h.isInstanceFile_iff.2 hfile), Instance.parse?, Instance.text,
    Json.parse?_pretty, Option.bind_some, Instance.ofJson?_toJson]

/-! ### Runs -/

variable {σ : Type}

/-- What comes of an instance: the outcome of the run, or why there is none. -/
def outcome (d : Device σ) (platforms : Platforms) (i : Instance) (s : σ) :
    Except Failure Verdict :=
  match (platforms.connect d i.device).on ⟨s, .empty⟩ with
  | (.error e, _) => .error e
  | (.ok env, b) => (i.run d env 0 0 b.device).result.map (·.verdict)

/-- The exit status after an outcome. -/
def statusOf : Except Failure Verdict → Nat
  | .ok v => if v = .pass then 0 else 2
  | .error _ => 1

theorem statusOf_eq_zero_iff {r : Except Failure Verdict} : statusOf r = 0 ↔ r = .ok .pass := by
  cases r with
  | error e => simp [statusOf]
  | ok v => by_cases hv : v = .pass <;> simp [statusOf, hv]

theorem statusOf_eq_two_iff {r : Except Failure Verdict} :
    statusOf r = 2 ↔ ∃ v, r = .ok v ∧ v ≠ .pass := by
  cases r with
  | error e => simp [statusOf]
  | ok v => by_cases hv : v = .pass <;> simp [statusOf, hv]

theorem statusOf_eq_one_iff {r : Except Failure Verdict} : statusOf r = 1 ↔ ∃ e, r = .error e := by
  cases r with
  | error e => simp [statusOf]
  | ok v => by_cases hv : v = .pass <;> simp [statusOf, hv]

theorem status_drive (o : Options) (d : Device σ) (platforms : Platforms) (i : Instance) (s : σ) :
    (o.drive d platforms i s).status = statusOf (outcome d platforms i s) := by
  unfold Options.drive outcome
  cases hconnect : (platforms.connect d i.device).on ⟨s, .empty⟩ with
  | mk result b =>
    cases result with
    | error e => rfl
    | ok env =>
      dsimp only
      cases (i.run d env 0 0 b.device).result with
      | error e => rfl
      | ok r => simp [statusOf, ProgramResult.isPass, Except.map]

/-- Of the options only the way to report goes into a run. -/
theorem drive_congr (h : o'.json = o.json) (d : Device σ) (platforms : Platforms) (i : Instance)
    (s : σ) : o'.drive d platforms i s = o.drive d platforms i s := by
  unfold Options.drive
  rw [h]

/-- A run drives the instance that is loaded from the input. -/
theorem Asks.run_eq (h : Asks args ss o name) {contents : String} {i : Instance}
    (hload : o.load? contents = some i) (d : Device σ) (platforms : Platforms)
    {read : String → Option String} (hread : read name = some contents) (s : σ) :
    run d platforms read args s = o.drive d platforms i s := by
  obtain ⟨hparse, hlist⟩ := parse_eq_drive_iff_asks.2 ⟨ss, name, h⟩
  simp [run, hparse, Options.run, hlist, h.inputName_eq, hread, hload]

/-- **A source and the file with its instance are driven to the same end.** The instance for a
    source has all pairs of the given sizes and the pieces of the given inputs, from which pieces
    without semicolons come back. Whatever the device does, driving the source ends as driving the
    file does that holds the instance, and the exit status tells the outcome. -/
theorem run_file_eq_run (h : Asks args ss o name) (hsource : ¬".json".toList <:+ name.toList)
    (source : String) :
    ∃ i, o.load? source = some i ∧ Follows ss i ∧
      (∀ pieces : List String, (∀ p ∈ pieces, p ≠ "" ∧ trimmed p = p ∧ ';' ∉ p.toList) →
        splitValues (";".intercalate pieces) = pieces) ∧
      ∀ (d : Device σ) (platforms : Platforms) (s : σ) (read : String → Option String),
        read name = some source →
          (∀ args' ss' o' file read', Asks args' ss' o' file → ".json".toList <:+ file.toList →
            (.flag .json ∈ ss' ↔ .flag .json ∈ ss) → read' file = some i.text →
              run d platforms read' args' s = run d platforms read args s) ∧
          ((run d platforms read args s).status = 0 ↔ outcome d platforms i s = .ok .pass) ∧
          ((run d platforms read args s).status = 2 ↔
            ∃ v, outcome d platforms i s = .ok v ∧ v ≠ .pass) ∧
          ((run d platforms read args s).status = 1 ↔
            ∃ e, outcome d platforms i s = .error e) := by
  have hload := h.load?_source hsource source
  refine ⟨o.ofSource source, hload, follows_ofSource h.made source,
    fun pieces => splitValues_intercalate, fun d platforms s read hread => ?_⟩
  have hrun := h.run_eq hload d platforms hread s
  rw [hrun, status_drive]
  refine ⟨?_, statusOf_eq_zero_iff, statusOf_eq_two_iff, statusOf_eq_one_iff⟩
  -- The file holds the instance, so both runs drive it, and they report alike.
  intro args' ss' o' file read' h' hfile hjson hread'
  have hsame : o'.json = o.json := by
    rw [Bool.eq_iff_iff, json_iff h'.made, json_iff h.made, hjson]
  rw [h'.run_eq (h'.load?_text hfile _) d platforms hread' s, drive_congr hsame]

/-- Arguments with two pairs of sizes and an input. -/
def pairArguments : List String :=
  ["pairs.cl", "--gsize=4", "-l1", "-l", "2", "--input", "1; 2"]

/-- The options that they make. -/
def pairOptions : Options where
  input := some "pairs.cl"
  globalSizes := [4]
  localSizes := [1, 2]
  inputs := ["1; 2"]

theorem asks_pairs : Asks pairArguments
    [.input "pairs.cl", .value .globalSize "4", .value .localSize "1", .value .localSize "2",
      .value .input "1; 2"] pairOptions "pairs.cl" where
  said := by
    have hinput : Says ["--input", "1; 2"] [.value .input "1; 2"] :=
      @Says.valueBehind "input" "1; 2" .input _ _ (by decide) rfl .nil
    have hsecond : Says ("-l" :: "2" :: _) (.value .localSize "2" :: _) :=
      @Says.shortBehind ['l'] .localSize "2" _ _ _ (.needs (by decide)) (by decide) hinput
    have hfirst : Says ("-l1" :: _) (.value .localSize "1" :: _) :=
      @Says.short ['l', '1'] _ _ _ (.value (by decide) (.direct (by decide)))
        (List.cons_ne_nil _ _) hsecond
    have hglobal : Says ("--gsize=4" :: _) (.value .globalSize "4" :: _) :=
      @Says.value "gsize" "4" .globalSize _ _ (by decide) hfirst
    exact .input (.inr (by decide)) hglobal
  made := by decide
  input := by decide
  unlisted := by decide

theorem asks_pairsFile : Asks ["pairs.json"] [.input "pairs.json"]
    { input := some "pairs.json" } "pairs.json" where
  said := .input (.inr (by decide)) .nil
  made := by decide
  input := by decide
  unlisted := by decide

/-- A run on a simulated device, whatever the input is called. -/
def simulatedRun (contents : String) (args : List String) : Ending Simulator.State :=
  run Simulator.device (Simulator.names Simulator.standardPlatforms) (fun _ => some contents) args
    (Simulator.start .plain Simulator.standardPlatforms)

/-- A source that no compiler takes, and the file with its instance. -/
theorem run_file_eq_run_pairs :
    ∃ i, pairOptions.load? "" = some i ∧ i.matrix = [⟨4, 1⟩, ⟨4, 2⟩] ∧
      i.inputs = some [["1", "2"]] ∧
      simulatedRun i.text ["pairs.json"] = simulatedRun "" pairArguments ∧
      (simulatedRun "" pairArguments).status = 2 := by
  obtain ⟨i, hload, _, _, hruns⟩ := run_file_eq_run asks_pairs (by decide) ""
  obtain ⟨hfile, _, htwo, _⟩ := hruns Simulator.device (Simulator.names Simulator.standardPlatforms)
    (Simulator.start .plain Simulator.standardPlatforms) (fun _ => some "") rfl
  have hi : pairOptions.ofSource "" = i := Option.some.inj hload
  subst hi
  refine ⟨_, hload, by decide, by decide, hfile _ _ _ _ (fun _ => some _) asks_pairsFile
    (by decide) (by decide) rfl, htwo.2 ⟨.compilationFailure, ?_, by decide⟩⟩
  decide +kernel

end KernelDiff.CommandLine

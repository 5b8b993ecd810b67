import KernelDiff.CommandLine.Options
import Mathlib.Data.List.TakeWhile

namespace KernelDiff.CommandLine

/-!
# The arguments that are taken

Arguments spell settings: the value of an option, an option without one, or an input. There are
several spellings of each, and short names may share an argument. The arguments that ask for a run
are those that spell settings, each of which may be made in turn.

* `Setting`, `Options.setAll` — settings, and what they make of options;
* `Shares`, `Says` — what short names behind one dash say, and what arguments say;
* `Says.takeArguments_eq` — the settings are made that the arguments say;
* `parse_eq_drive_iff` — the arguments that ask for a run.
-/

/-! ### Settings -/

/-- What arguments may say. -/
inductive Setting
  /-- The value of an option. -/
  | value (option : ValueOption) (text : String)
  /-- An option without a value. -/
  | flag (f : Flag)
  /-- The input. -/
  | input (text : String)
  deriving DecidableEq

/-- Make a setting. -/
def Options.set (o : Options) : Setting → Option Options
  | .value option text => o.setValue option text
  | .flag f => o.setFlag f
  | .input text => o.setInput text

/-- Make settings in turn. -/
def Options.setAll (o : Options) (ss : List Setting) : Option Options :=
  ss.foldlM Options.set o

theorem Options.setAll_cons (o : Options) (s : Setting) (ss : List Setting) :
    o.setAll (s :: ss) = (o.set s).bind (·.setAll ss) :=
  rfl

theorem Options.setAll_append (o : Options) (ss ss' : List Setting) :
    o.setAll (ss ++ ss') = (o.setAll ss).bind (·.setAll ss') :=
  List.foldlM_append

/-! ### What arguments say -/

/-- The options without a value that do not ask for something else. -/
def Flag.IsSwitch (f : Flag) : Prop :=
  f ≠ .version ∧ f ≠ .help

/-- A value directly behind a short name, maybe behind an equals sign. -/
inductive Attached : List Char → String → Prop
  | equals {value : List Char} : Attached ('=' :: value) (String.ofList value)
  | direct {c : Char} {value : List Char} (ne_equals : c ≠ '=') :
      Attached (c :: value) (String.ofList (c :: value))

/-- What short names behind one dash say, and the option that still needs its value. -/
inductive Shares : List Char → List Setting → Option ValueOption → Prop
  | nil : Shares [] [] none
  | flag {c : Char} {cs : List Char} {f : Flag} {ss : List Setting} {pending : Option ValueOption}
      (named : shortNames.lookup c = some (.flag f)) (isSwitch : f.IsSwitch)
      (rest : Shares cs ss pending) : Shares (c :: cs) (.flag f :: ss) pending
  | value {c : Char} {value : List Char} {option : ValueOption} {text : String}
      (named : shortNames.lookup c = some (.value option)) (attached : Attached value text) :
      Shares (c :: value) [.value option text] none
  | needs {c : Char} {option : ValueOption} (named : shortNames.lookup c = some (.value option)) :
      Shares [c] [] (some option)

/-- A text that does not look like an option. -/
def IsInput (text : String) : Prop :=
  text = "-" ∨ text.toList.head? ≠ some '-'

/-- What arguments say. -/
inductive Says : List String → List Setting → Prop
  | nil : Says [] []
  | input {text : String} {args : List String} {ss : List Setting} (isInput : IsInput text)
      (rest : Says args ss) : Says (text :: args) (.input text :: ss)
  /-- Behind two dashes everything is an input. -/
  | inputs {texts : List String} : Says ("--" :: texts) (texts.map .input)
  | flag {name : String} {f : Flag} {args : List String} {ss : List Setting}
      (named : longNames.lookup name = some (.flag f)) (isSwitch : f.IsSwitch)
      (rest : Says args ss) : Says (("--" ++ name) :: args) (.flag f :: ss)
  | value {name text : String} {option : ValueOption} {args : List String} {ss : List Setting}
      (named : longNames.lookup name = some (.value option)) (rest : Says args ss) :
      Says (("--" ++ name ++ "=" ++ text) :: args) (.value option text :: ss)
  | valueBehind {name text : String} {option : ValueOption} {args : List String}
      {ss : List Setting} (named : longNames.lookup name = some (.value option))
      (isValue : isValueOf option text) (rest : Says args ss) :
      Says (("--" ++ name) :: text :: args) (.value option text :: ss)
  | short {names : List Char} {args : List String} {ss ss' : List Setting}
      (shares : Shares names ss none) (ne_nil : names ≠ []) (rest : Says args ss') :
      Says (String.ofList ('-' :: names) :: args) (ss ++ ss')
  | shortBehind {names : List Char} {option : ValueOption} {text : String} {args : List String}
      {ss ss' : List Setting} (shares : Shares names ss (some option))
      (isValue : isValueOf option text) (rest : Says args ss') :
      Says (String.ofList ('-' :: names) :: text :: args) (ss ++ .value option text :: ss')

variable {o o' : Options} {names : List Char} {args : List String} {ss : List Setting}
  {option : ValueOption}

/-! ### Short names behind one dash -/

/-- Where short names lead that make the options and may leave one without its value. -/
def Cluster.ofOptions (made : Option Options) (pending : Option ValueOption) : Cluster :=
  match made, pending with
  | none, _ => .decided none
  | some o, none => .done o
  | some o, some option => .needs o option

theorem cluster_flag {c : Char} {f : Flag} (named : shortNames.lookup c = some (.flag f))
    (isSwitch : f.IsSwitch) (o : Options) (cs : List Char) :
    cluster o (c :: cs) = match o.setFlag f with
      | none => .decided none
      | some o => cluster o cs := by
  cases f with
  | version => exact absurd rfl isSwitch.1
  | help => exact absurd rfl isSwitch.2
  | random | noInputCheck | json | listDevices | verbose =>
    simp only [cluster, named]
    cases o.setFlag _ <;> rfl

theorem cluster_value {c : Char} {value : List Char} {text : String}
    (named : shortNames.lookup c = some (.value option)) (attached : Attached value text)
    (o : Options) : cluster o (c :: value) = .ofOptions (o.setValue option text) none := by
  cases attached with
  | equals =>
    simp only [cluster, named]
    cases o.setValue option _ <;> rfl
  | @direct d value ne_equals =>
    rw [cluster, named]
    dsimp only
    split
    · next heq => cases heq
    · next heq =>
      cases heq
      exact absurd rfl ne_equals
    · cases o.setValue option _ <;> rfl

/-- Short names are taken as what they say. -/
theorem Shares.cluster_eq {pending : Option ValueOption} (h : Shares names ss pending)
    (o : Options) : cluster o names = .ofOptions (o.setAll ss) pending := by
  induction h generalizing o with
  | nil => rfl
  | @flag _ _ f _ _ named isSwitch _ ih =>
    rw [cluster_flag named isSwitch, Options.setAll_cons, Options.set]
    cases o.setFlag f with
    | none => rfl
    | some o' => exact ih o'
  | @value _ _ option text named attached =>
    rw [cluster_value named attached, Options.setAll_cons, Options.set]
    cases o.setValue option text <;> rfl
  | needs named => simp [cluster, named, Options.setAll, Cluster.ofOptions]

/-- Short names that say nothing decide, and ask for no run. -/
theorem exists_shares_or_decided (o : Options) (names : List Char) :
    (∃ ss pending, Shares names ss pending) ∨
      ∃ r, cluster o names = .decided r ∧ ∀ o', r ≠ some (.drive o') := by
  induction names generalizing o with
  | nil => exact .inl ⟨[], none, .nil⟩
  | cons c cs ih =>
    cases named : shortNames.lookup c with
    | none => exact .inr ⟨none, by simp [cluster, named], by simp⟩
    | some any =>
      cases any with
      | flag f =>
        by_cases hversion : f = .version
        · subst hversion
          exact .inr ⟨some .version, by simp [cluster, named], by simp⟩
        by_cases hhelp : f = .help
        · subst hhelp
          exact .inr ⟨some .help, by simp [cluster, named], by simp⟩
        rw [cluster_flag named ⟨hversion, hhelp⟩]
        cases o.setFlag f with
        | none => exact .inr ⟨none, rfl, by simp⟩
        | some o' =>
          rcases ih o' with ⟨ss, pending, shares⟩ | hdecided
          · exact .inl ⟨_, _, .flag named ⟨hversion, hhelp⟩ shares⟩
          · exact .inr hdecided
      | value option =>
        left
        match cs with
        | [] => exact ⟨_, _, .needs named⟩
        | d :: value =>
          by_cases hd : d = '='
          · subst hd
            exact ⟨_, _, .value named .equals⟩
          · exact ⟨_, _, .value named (.direct hd)⟩

/-! ### Long names -/

theorem splitLong_of_not_mem {name : List Char} (h : '=' ∉ name) :
    splitLong name = (String.ofList name, none) := by
  have hdrop : name.dropWhile (· != '=') = [] := by
    refine List.dropWhile_eq_nil_iff.2 fun c hc => bne_iff_ne.2 ?_
    rintro rfl
    exact h hc
  rw [splitLong, hdrop]

theorem splitLong_append {name : List Char} (h : '=' ∉ name) (value : List Char) :
    splitLong (name ++ '=' :: value) = (String.ofList name, some (String.ofList value)) := by
  have hname : ∀ c ∈ name, (c != '=') = true := by
    intro c hc
    refine bne_iff_ne.2 ?_
    rintro rfl
    exact h hc
  have hdrop : (name ++ '=' :: value).dropWhile (· != '=') = '=' :: value := by
    rw [List.dropWhile_append_of_pos hname]
    rfl
  have htake : (name ++ '=' :: value).takeWhile (· != '=') = name := by
    rw [List.takeWhile_append_of_pos hname]
    simp
  rw [splitLong, hdrop, htake]

/-- No option has an equals sign in its name, or no name at all. -/
theorem not_mem_of_longNames {name : String} {any : AnyOption}
    (h : longNames.lookup name = some any) : '=' ∉ name.toList ∧ name.toList ≠ [] := by
  obtain ⟨before, after, heq, _⟩ := List.lookup_eq_some_iff.1 h
  have hmem : (name, any) ∈ longNames := by
    rw [heq]
    simp
  have hall : ∀ named ∈ longNames, '=' ∉ named.1.toList ∧ named.1.toList ≠ [] := by decide
  exact hall _ hmem

/-! ### Arguments one by one -/

theorem takeArguments_input {text : String} (h : IsInput text) (o : Options) (args : List String) :
    takeArguments o none (text :: args) = (o.setInput text).bind (takeArguments · none args) := by
  rcases h with rfl | hdash
  · rfl
  · rw [takeArguments]
    dsimp only
    split
    · rfl
    · next heq => exact absurd (by rw [heq]; rfl) hdash
    · next heq => exact absurd (by rw [heq]; rfl) hdash
    · next heq => exact absurd (by rw [heq]; rfl) hdash
    · rfl

theorem takeInputs_eq (o : Options) (texts : List String) :
    takeInputs o texts = (o.setAll (texts.map .input)).bind Options.finish := by
  induction texts generalizing o with
  | nil => rfl
  | cons text texts ih =>
    rw [takeInputs, List.map_cons, Options.setAll_cons, Options.set]
    cases o.setInput text with
    | none => rfl
    | some o' => exact ih o'

/-- What an argument with a long name leads to. -/
def takeLong (o : Options) (args : List String) (name : String) (value? : Option String) :
    Option Request :=
  match longNames.lookup name, value? with
  | some (.flag .version), none => some .version
  | some (.flag .help), none => some .help
  | some (.flag f), none => (o.setFlag f).bind fun o => takeArguments o none args
  | some (.value option), some value =>
    (o.setValue option value).bind fun o => takeArguments o none args
  | some (.value option), none => takeArguments o (some option) args
  | _, _ => none

theorem takeLong_flag {name : String} {f : Flag} (named : longNames.lookup name = some (.flag f))
    (isSwitch : f.IsSwitch) (o : Options) (args : List String) :
    takeLong o args name none = (o.setFlag f).bind (takeArguments · none args) := by
  cases f with
  | version => exact absurd rfl isSwitch.1
  | help => exact absurd rfl isSwitch.2
  | random | noInputCheck | json | listDevices | verbose => simp only [takeLong, named]

theorem takeLong_value {name : String} (named : longNames.lookup name = some (.value option))
    (o : Options) (args : List String) (text : String) :
    takeLong o args name (some text) =
      (o.setValue option text).bind (takeArguments · none args) := by
  simp only [takeLong, named]

theorem takeLong_valueBehind {name : String}
    (named : longNames.lookup name = some (.value option)) (o : Options) (args : List String) :
    takeLong o args name none = takeArguments o (some option) args := by
  simp only [takeLong, named]

theorem takeArguments_value {text : String} (isValue : isValueOf option text) (o : Options)
    (args : List String) : takeArguments o (some option) (text :: args) =
      (o.setValue option text).bind (takeArguments · none args) :=
  if_pos isValue

theorem takeArguments_long {arg : String} {name : List Char}
    (harg : arg.toList = '-' :: '-' :: name) (hne : name ≠ []) (o : Options) (args : List String) :
    takeArguments o none (arg :: args) =
      takeLong o args (splitLong name).1 (splitLong name).2 := by
  obtain ⟨c, name, rfl⟩ := List.exists_cons_of_ne_nil hne
  rw [takeArguments]
  simp only [harg]
  rfl

theorem takeArguments_short {arg : String} {c : Char} {cs : List Char}
    (harg : arg.toList = '-' :: c :: cs) (hne : c ≠ '-') (o : Options) (args : List String) :
    takeArguments o none (arg :: args) = match cluster o (c :: cs) with
      | .done o => takeArguments o none args
      | .needs o option => takeArguments o (some option) args
      | .decided r => r := by
  rw [takeArguments]
  simp only [harg]
  split
  · next heq => cases heq
  · next heq =>
    cases heq
    exact absurd rfl hne
  · next heq =>
    cases heq
    exact absurd rfl hne
  · next heq =>
    cases heq
    rfl
  · next hnone => exact absurd rfl (hnone _)

/-! ### All arguments -/

theorem toList_long (name : String) : ("--" ++ name).toList = '-' :: '-' :: name.toList := by
  rw [String.toList_append]
  rfl

theorem toList_longValue (name text : String) : ("--" ++ name ++ "=" ++ text).toList =
    '-' :: '-' :: (name.toList ++ '=' :: text.toList) := by
  rw [String.toList_append, String.toList_append, toList_long, List.append_assoc]
  rfl

theorem Shares.ne_dash {c : Char} {pending : Option ValueOption}
    (h : Shares (c :: names) ss pending) : c ≠ '-' := by
  rintro rfl
  have hdash : shortNames.lookup '-' = none := by decide
  cases h with
  | flag named | value named | needs named =>
    rw [hdash] at named
    cases named

/-- A setting in front of others that are made. -/
theorem bind_takeArguments
    (h : ∀ o, takeArguments o none args = (o.setAll ss).bind Options.finish) (o : Options)
    (s : Setting) : (o.set s).bind (takeArguments · none args) =
      (o.setAll (s :: ss)).bind Options.finish := by
  rw [Options.setAll_cons, Option.bind_assoc]
  apply congrArg
  ext1 next
  exact h next

/-- **The settings are made that the arguments say.** -/
theorem Says.takeArguments_eq (h : Says args ss) (o : Options) :
    takeArguments o none args = (o.setAll ss).bind Options.finish := by
  induction h generalizing o with
  | nil => rfl
  | input isInput _ ih =>
    rw [takeArguments_input isInput]
    exact bind_takeArguments ih o (.input _)
  | inputs => exact takeInputs_eq o _
  | @flag name f args ss named isSwitch _ ih =>
    obtain ⟨hequals, hne⟩ := not_mem_of_longNames named
    rw [takeArguments_long (toList_long name) hne, splitLong_of_not_mem hequals,
      String.ofList_toList, takeLong_flag named isSwitch]
    exact bind_takeArguments ih o (.flag f)
  | @value name text option args ss named _ ih =>
    obtain ⟨hequals, hne⟩ := not_mem_of_longNames named
    rw [takeArguments_long (toList_longValue name text) (by simp), splitLong_append hequals,
      String.ofList_toList, String.ofList_toList, takeLong_value named]
    exact bind_takeArguments ih o (.value option text)
  | @valueBehind name text option args ss named isValue _ ih =>
    obtain ⟨hequals, hne⟩ := not_mem_of_longNames named
    rw [takeArguments_long (toList_long name) hne, splitLong_of_not_mem hequals,
      String.ofList_toList, takeLong_valueBehind named, takeArguments_value isValue]
    exact bind_takeArguments ih o (.value option text)
  | @short names args ss ss' shares ne_nil _ ih =>
    obtain ⟨c, cs, rfl⟩ := List.exists_cons_of_ne_nil ne_nil
    rw [takeArguments_short String.toList_ofList shares.ne_dash, shares.cluster_eq,
      Options.setAll_append]
    cases o.setAll ss with
    | none => rfl
    | some o' => exact ih o'
  | @shortBehind names option text args ss ss' shares isValue _ ih =>
    have ne_nil : names ≠ [] := by
      rintro rfl
      cases shares
    obtain ⟨c, cs, rfl⟩ := List.exists_cons_of_ne_nil ne_nil
    rw [takeArguments_short String.toList_ofList shares.ne_dash, shares.cluster_eq,
      Options.setAll_append]
    cases o.setAll ss with
    | none => rfl
    | some o' =>
      -- The last of the short names has its value in the next argument.
      show takeArguments o' (some option) (text :: args) =
        (o'.setAll (.value option text :: ss')).bind _
      rw [takeArguments_value isValue]
      exact bind_takeArguments ih o' (.value option text)

/-- If the arguments ask for a run they say something, also where an option still needs its
    value. -/
def Understood (args : List String) (o' : Options) : Prop :=
  ∀ o : Options, (takeArguments o none args = some (.drive o') → ∃ ss, Says args ss) ∧
    ∀ option, takeArguments o (some option) args = some (.drive o') →
      ∃ text rest ss, args = text :: rest ∧ isValueOf option text ∧ Says rest ss

/-- What stands behind a setting is understood where the setting is made. -/
theorem Understood.of_bind (h : Understood args o') {made : Option Options}
    (htake : made.bind (takeArguments · none args) = some (.drive o')) : ∃ ss, Says args ss := by
  obtain ⟨next, _, hrest⟩ := Option.bind_eq_some_iff.1 htake
  exact (h next).1 hrest

/-- A long name with its value in front of others. -/
theorem Understood.longValue (h : Understood args o') {name text : String}
    (htake : takeLong o args name (some text) = some (.drive o')) :
    ∃ ss, Says (("--" ++ name ++ "=" ++ text) :: args) ss := by
  cases named : longNames.lookup name with
  | none => simp [takeLong, named] at htake
  | some any =>
    cases any with
    | flag f => simp [takeLong, named] at htake
    | value option =>
      rw [takeLong_value named] at htake
      obtain ⟨ss, said⟩ := h.of_bind htake
      exact ⟨_, .value named said⟩

/-- A long name without a value in front of others. -/
theorem Understood.longName (h : Understood args o') {name : String}
    (htake : takeLong o args name none = some (.drive o')) :
    ∃ ss, Says (("--" ++ name) :: args) ss := by
  cases named : longNames.lookup name with
  | none => simp [takeLong, named] at htake
  | some any =>
    cases any with
    | flag f =>
      by_cases hversion : f = .version
      · subst hversion
        simp [takeLong, named] at htake
      by_cases hhelp : f = .help
      · subst hhelp
        simp [takeLong, named] at htake
      rw [takeLong_flag named ⟨hversion, hhelp⟩] at htake
      obtain ⟨ss, said⟩ := h.of_bind htake
      exact ⟨_, .flag named ⟨hversion, hhelp⟩ said⟩
    | value option =>
      rw [takeLong_valueBehind named] at htake
      obtain ⟨text, rest, ss, rfl, isValue, said⟩ := (h o).2 option htake
      exact ⟨_, .valueBehind named isValue said⟩

/-- An argument with a long name in front of others. -/
theorem Understood.long (h : Understood args o') {arg : String} {name : List Char}
    (harg : arg.toList = '-' :: '-' :: name) (hne : name ≠ [])
    (htake : takeArguments o none (arg :: args) = some (.drive o')) :
    ∃ ss, Says (arg :: args) ss := by
  rw [takeArguments_long harg hne] at htake
  by_cases hequals : '=' ∈ name
  · obtain ⟨before, value, rfl, hbefore⟩ := List.eq_append_cons_of_mem hequals
    have harg : arg = "--" ++ String.ofList before ++ "=" ++ String.ofList value := by
      rw [← String.toList_inj, harg, toList_longValue, String.toList_ofList, String.toList_ofList]
    rw [splitLong_append hbefore] at htake
    rw [harg]
    exact h.longValue htake
  · have harg : arg = "--" ++ String.ofList name := by
      rw [← String.toList_inj, toList_long, String.toList_ofList, harg]
    rw [splitLong_of_not_mem hequals] at htake
    rw [harg]
    exact h.longName htake

/-- An argument with short names in front of others. -/
theorem Understood.short (h : Understood args o') {arg : String} {c : Char} {cs : List Char}
    (harg : arg.toList = '-' :: c :: cs) (hne : c ≠ '-')
    (htake : takeArguments o none (arg :: args) = some (.drive o')) :
    ∃ ss, Says (arg :: args) ss := by
  rw [takeArguments_short harg hne] at htake
  have harg : arg = String.ofList ('-' :: c :: cs) := by
    rw [← harg, String.ofList_toList]
  subst harg
  rcases exists_shares_or_decided o (c :: cs) with ⟨ss, pending, shares⟩ | ⟨r, hdecided, hr⟩
  · rw [shares.cluster_eq] at htake
    cases hmade : o.setAll ss with
    | none =>
      rw [hmade] at htake
      cases htake
    | some next =>
      rw [hmade] at htake
      cases pending with
      | none =>
        obtain ⟨ss', said⟩ := (h next).1 htake
        exact ⟨_, .short shares (List.cons_ne_nil c cs) said⟩
      | some option =>
        obtain ⟨text, rest, ss', rfl, isValue, said⟩ := (h next).2 option htake
        exact ⟨_, .shortBehind shares isValue said⟩
  · rw [hdecided] at htake
    exact absurd htake (hr o')

theorem exists_toList_of_not_isInput {arg : String} (h : ¬IsInput arg) :
    ∃ c cs, arg.toList = '-' :: c :: cs := by
  obtain ⟨hdash, hhead⟩ := not_or.1 h
  obtain ⟨cs, harg⟩ := List.head?_eq_some_iff.1 (not_not.1 hhead)
  have hne : cs ≠ [] := by
    rintro rfl
    exact hdash (String.toList_inj.1 harg)
  obtain ⟨c, cs, rfl⟩ := List.exists_cons_of_ne_nil hne
  exact ⟨c, cs, harg⟩

theorem understood (args : List String) (o' : Options) : Understood args o' := by
  -- The two parts go together: the value of an option may stand in the next argument, and behind
  -- it any argument may stand.
  induction args with
  | nil => exact fun o => ⟨fun _ => ⟨[], .nil⟩, fun _ h => nomatch h⟩
  | cons arg args ih =>
    refine fun o => ⟨fun h => ?_, fun option h => ?_⟩
    · by_cases hinput : IsInput arg
      · rw [takeArguments_input hinput] at h
        obtain ⟨ss, said⟩ := ih.of_bind h
        exact ⟨_, .input hinput said⟩
      · obtain ⟨c, cs, harg⟩ := exists_toList_of_not_isInput hinput
        by_cases hc : c = '-'
        · subst hc
          by_cases hcs : cs = []
          · subst hcs
            obtain rfl : arg = "--" := String.toList_inj.1 harg
            exact ⟨_, .inputs⟩
          · exact ih.long harg hcs h
        · exact ih.short harg hc h
    · rw [takeArguments] at h
      split_ifs at h with isValue
      obtain ⟨ss, said⟩ := ih.of_bind h
      exact ⟨arg, args, ss, rfl, isValue, said⟩

/-- **The arguments that ask for a run** are those that say settings which may be made in turn, and
    which name an input or ask for the list of devices. -/
theorem parse_eq_drive_iff : parse args = some (.drive o) ↔
    ∃ ss, Says args ss ∧ ({} : Options).setAll ss = some o ∧
      (o.input.isSome ∨ o.listDevices) := by
  have hfinish (made : Option Options) : made.bind Options.finish = some (.drive o) ↔
      made = some o ∧ (o.input.isSome ∨ o.listDevices) := by
    cases made with
    | none => simp
    | some o' =>
      rw [Option.bind_some, Options.finish]
      split_ifs with hinput <;> constructor
      · intro h
        cases h
        exact ⟨rfl, by simpa using hinput⟩
      · rintro ⟨h, _⟩
        cases h
        rfl
      · intro h
        cases h
      · rintro ⟨h, hinput'⟩
        cases h
        exact absurd (by simpa using hinput') hinput
  constructor
  · intro h
    obtain ⟨ss, said⟩ := (understood args o {}).1 h
    rw [parse, said.takeArguments_eq, hfinish] at h
    exact ⟨ss, said, h⟩
  · rintro ⟨ss, said, h⟩
    rw [parse, said.takeArguments_eq, hfinish]
    exact h

end KernelDiff.CommandLine

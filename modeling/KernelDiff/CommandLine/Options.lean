import KernelDiff.Instance
import KernelDiff.Text.Blank

namespace KernelDiff.CommandLine

/-!
# Command-line options

Options have long names behind two dashes and short ones behind one; a value stands behind an
equals sign, or in the next argument, or directly behind a short name. Several short names may
share a dash. Behind `--` all arguments are inputs. Arguments are taken in order, and the first
one that is wrong, or that asks for the version or for help, decides.
-/

/-- An option with a value. -/
inductive ValueOption
  | globalSize | localSize | buildOptions | device | seed | input
  deriving DecidableEq, Repr

/-- An option without a value. -/
inductive Flag
  | random | noInputCheck | json | listDevices | verbose | version | help
  deriving DecidableEq, Repr

/-- Any option. -/
inductive AnyOption
  | value (o : ValueOption)
  | flag (f : Flag)
  deriving DecidableEq, Repr

/-- The options by their long names. -/
def longNames : List (String × AnyOption) :=
  [("gsize", .value .globalSize), ("lsize", .value .localSize),
    ("build-opts", .value .buildOptions), ("device", .value .device), ("seed", .value .seed),
    ("input", .value .input), ("random", .flag .random),
    ("no-input-check", .flag .noInputCheck), ("json", .flag .json),
    ("list-devices", .flag .listDevices), ("verbose", .flag .verbose),
    ("version", .flag .version), ("help", .flag .help)]

/-- The options by their short names. -/
def shortNames : List (Char × AnyOption) :=
  [('g', .value .globalSize), ('l', .value .localSize), ('b', .value .buildOptions),
    ('d', .value .device), ('s', .value .seed), ('i', .value .input), ('v', .flag .verbose),
    ('V', .flag .version), ('h', .flag .help)]

/-- What the arguments have set so far. -/
structure Options where
  /-- The file to drive, or a dash for standard input. -/
  input : Option String := none
  globalSizes : List UInt64 := []
  localSizes : List UInt64 := []
  buildOptions : Option String := none
  device : Option String := none
  seed : Option Int64 := none
  /-- The values of parameters, one text for each. -/
  inputs : List String := []
  random : Bool := false
  noInputCheck : Bool := false
  json : Bool := false
  listDevices : Bool := false
  verbose : Bool := false
  deriving DecidableEq, Repr

/-- What the arguments ask for. -/
inductive Request
  | drive (o : Options)
  | version
  | help
  deriving DecidableEq, Repr

namespace Options

/-- Set a value that may be set once. -/
def once (old : Option α) (new : α) (set : α → Options) : Option Options :=
  match old with
  | none => some (set new)
  | some _ => none

/-- Take the value of an option. Sizes and inputs may be given several times. -/
def setValue (o : Options) (option : ValueOption) (value : String) : Option Options :=
  match option with
  | .globalSize =>
    (Text.word64? value.toList).map fun n => { o with globalSizes := o.globalSizes ++ [n] }
  | .localSize =>
    (Text.word64? value.toList).map fun n => { o with localSizes := o.localSizes ++ [n] }
  | .input => some { o with inputs := o.inputs ++ [value] }
  | .buildOptions => once o.buildOptions value fun v => { o with buildOptions := some v }
  | .device => once o.device value fun v => { o with device := some v }
  | .seed => do
    let n ← Text.int64? value.toList
    once o.seed n fun v => { o with seed := some v }

/-- Turn on an option without a value, which may be given once. -/
def setFlag (o : Options) (f : Flag) : Option Options :=
  match f with
  | .random => if o.random then none else some { o with random := true }
  | .noInputCheck => if o.noInputCheck then none else some { o with noInputCheck := true }
  | .json => if o.json then none else some { o with json := true }
  | .listDevices => if o.listDevices then none else some { o with listDevices := true }
  | .verbose => if o.verbose then none else some { o with verbose := true }
  | .version | .help => some o

/-- Take the input, which may be given once. -/
def setInput (o : Options) (value : String) : Option Options :=
  once o.input value fun v => { o with input := some v }

/-- The request when no argument is left: an input must be given, unless devices are listed. -/
def finish (o : Options) : Option Request :=
  if o.input.isSome || o.listDevices then some (.drive o) else none

end Options

/-- Whether the next argument is the value of an option that has none yet. What starts with a
    dash, other than the dash alone, is a value only of options that say so; for a seed it must
    then be a number, as it must anyway. -/
def isValueOf (option : ValueOption) (s : String) : Bool :=
  match option with
  | .buildOptions | .input | .seed => true
  | _ => s == "-" || !"-".toList.isPrefixOf s.toList

/-- Where short names that share a dash have led. -/
inductive Cluster
  /-- All of them were flags. -/
  | done (o : Options)
  /-- The last one still needs its value. -/
  | needs (o : Options) (option : ValueOption)
  /-- One of them decides. -/
  | decided (r : Option Request)

/-- Take short names that share a dash. -/
def cluster (o : Options) : List Char → Cluster
  | [] => .done o
  | c :: cs =>
    match shortNames.lookup c with
    | none => .decided none
    | some (.flag .version) => .decided (some .version)
    | some (.flag .help) => .decided (some .help)
    | some (.flag f) =>
      match o.setFlag f with
      | some o => cluster o cs
      | none => .decided none
    | some (.value option) =>
      match cs with
      | [] => .needs o option
      | '=' :: value =>
        match o.setValue option (String.ofList value) with
        | some o => .done o
        | none => .decided none
      | value =>
        match o.setValue option (String.ofList value) with
        | some o => .done o
        | none => .decided none

/-- A long name and the value behind its equals sign. -/
def splitLong (s : List Char) : String × Option String :=
  match s.dropWhile (· != '=') with
  | [] => (String.ofList s, none)
  | _ :: value => (String.ofList (s.takeWhile (· != '=')), some (String.ofList value))

/-- Take arguments that are all inputs. -/
def takeInputs (o : Options) : List String → Option Request
  | [] => o.finish
  | arg :: rest => (o.setInput arg).bind fun o => takeInputs o rest

/-- Take arguments, the value of `pending` first if an option waits for it. -/
def takeArguments (o : Options) (pending : Option ValueOption) : List String → Option Request
  | [] => if pending.isSome then none else o.finish
  | arg :: rest =>
    match pending with
    | some option =>
      if isValueOf option arg then
        (o.setValue option arg).bind fun o => takeArguments o none rest
      else none
    | none =>
      match arg.toList with
      | ['-'] => (o.setInput arg).bind fun o => takeArguments o none rest
      | ['-', '-'] => takeInputs o rest
      | '-' :: '-' :: name =>
        let (name, value?) := splitLong name
        match longNames.lookup name, value? with
        | some (.flag .version), none => some .version
        | some (.flag .help), none => some .help
        | some (.flag f), none => (o.setFlag f).bind fun o => takeArguments o none rest
        | some (.value option), some value =>
          (o.setValue option value).bind fun o => takeArguments o none rest
        | some (.value option), none => takeArguments o (some option) rest
        | _, _ => none
      | '-' :: names =>
        match cluster o names with
        | .done o => takeArguments o none rest
        | .needs o option => takeArguments o (some option) rest
        | .decided r => r
      | _ => (o.setInput arg).bind fun o => takeArguments o none rest

/-- What the arguments ask for, if they are right. -/
def parse (args : List String) : Option Request :=
  takeArguments {} none args

end KernelDiff.CommandLine

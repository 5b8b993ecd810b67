import KernelDiff.Outcome

namespace KernelDiff

/-!
# Records

Every outcome is reported as a record. A record can be shown as a line for people, or as a line
of JSON, and a `JsonLines` sink keeps the latter.
-/

/-- A reported outcome. -/
structure Record where
  /-- The device's name. -/
  device : String
  /-- The kernel's name; none if the record is about the program. -/
  kernel : Option String
  /-- The sizes; none if the record is about the program. -/
  sizes : Option LaunchSizes
  /-- The name of the outcome. -/
  outcome : String
  message : Option String
  deriving DecidableEq, Repr

namespace Record

/-- The line for people. -/
def line (r : Record) : String :=
  let sizes := match r.sizes with
    | some s => " " ++ s.text
    | none => ""
  let message := match r.message with
    | some m => " (" ++ m ++ ")"
    | none => ""
  "[" ++ r.device ++ "] " ++ r.kernel.getD "<program>" ++ sizes ++ ": " ++ r.outcome ++ message

/-- The JSON value of a record. -/
def toJson (r : Record) : Json :=
  .ofMembers [("device", .string r.device),
    ("kernel", .stringOrNull r.kernel),
    ("params", match r.sizes with
      | some s => s.toJson
      | none => .null),
    ("outcome", .string r.outcome),
    ("message", .stringOrNull r.message)]

/-- The record of one run of a kernel. -/
def ofRun (device kernel : String) (r : KernelRun) : Record :=
  ⟨device, some kernel, some r.sizes, r.outcome.name, r.message⟩

/-- The record of a verdict that comes before any kernel. -/
def ofVerdict (device : String) (v : Verdict) (message : Option String) : Record :=
  ⟨device, none, none, v.name, message⟩

end Record

/-- A sink for lines of JSON. It takes every piece of text that is written to it as a whole or
    refuses it, and may answer every attempt in another way. -/
structure JsonLines where
  /-- What was written. -/
  text : String
  /-- How often it was tried to write. -/
  attempts : Nat
  /-- What an attempt is refused with, if it is. -/
  refusal : Nat → Option String

/-- A sink that takes everything, with the text so far. -/
def JsonLines.open (written : String) : JsonLines := ⟨written, 0, fun _ => none⟩

namespace JsonLines

/-- A sink that refuses everything for a reason. -/
def broken (reason : String) : JsonLines := ⟨"", 0, fun _ => some reason⟩

/-- Try to write a piece of text. -/
def write (sink : JsonLines) (piece : List Char) : Except String Unit × JsonLines :=
  let tried := { sink with attempts := sink.attempts + 1 }
  match sink.refusal sink.attempts with
  | none => (.ok (), { tried with text := sink.text ++ String.ofList piece })
  | some reason => (.error reason, tried)

/-- Try to write pieces one after the other, up to the first that is refused. -/
def writeAll (sink : JsonLines) : List (List Char) → Except String Unit × JsonLines
  | [] => (.ok (), sink)
  | piece :: pieces =>
    match sink.write piece with
    | (.ok (), sink) => sink.writeAll pieces
    | (.error reason, sink) => (.error reason, sink)

/-- Write the JSON value of a record, and when all of it is written a line feed. -/
def writeLine (sink : JsonLines) (r : Record) : Except String Unit × JsonLines :=
  match sink.writeAll r.toJson.compactPieces with
  | (.ok (), sink) => sink.write ['\n']
  | (.error reason, sink) => (.error reason, sink)

/-- Write a record; where it cannot be written to its end, there is a warning. -/
def log (sink : JsonLines) (r : Record) : JsonLines × Option String :=
  match sink.writeLine r with
  | (.ok (), sink) => (sink, none)
  | (.error reason, sink) => (sink, some ("Failed to write log record: " ++ reason))

/-- Write records, in order: the sink after them, and the warnings. -/
def logAll (sink : JsonLines) : List Record → JsonLines × List String
  | [] => (sink, [])
  | r :: rs =>
    let (sink, warning?) := sink.log r
    let (sink, warnings) := logAll sink rs
    (sink, warning?.toList ++ warnings)

end JsonLines

end KernelDiff

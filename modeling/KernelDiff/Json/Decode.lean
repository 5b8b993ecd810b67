import KernelDiff.Json.Reader

namespace KernelDiff.Json

/-!
# Taking JSON values apart

The shapes in which records, alternatives, lists and words of 64 bits are written.

* A record is an object, where members with unknown names do not count and a known name may
  stand only once, or an array of its fields in their order, of which the last may be missing.
* An alternative is an object with one member, whose name tells the alternative.
-/

/-- The text that a value denotes. -/
def string? : Json → Option String
  | text s => s
  | _ => none

/-- The truth value that a value denotes. -/
def bool? : Json → Option Bool
  | bool b => some b
  | _ => none

/-- The integer in `lo … hi` that a value denotes. -/
def integerIn? (lo hi : Int) : Json → Option Int
  | integer i => if lo ≤ i ∧ i ≤ hi then some i else none
  | _ => none

/-- The unsigned 64-bit word that a value denotes. -/
def word64? (v : Json) : Option UInt64 :=
  (v.integerIn? 0 (UInt64.size - 1)).map fun i => UInt64.ofNat i.toNat

/-- The signed 64-bit word that a value denotes. -/
def int64? (v : Json) : Option Int64 :=
  (v.integerIn? Int64.minValue.toInt Int64.maxValue.toInt).map Int64.ofInt

/-- The items of an array, each read by the same reader. -/
def list? (read : Json → Option α) : Json → Option (List α)
  | array items => items.mapM read
  | _ => none

/-- What a reader reads, or nothing where the value is null. -/
def orNull? (read : Json → Option α) : Json → Option (Option α)
  | null => some none
  | v => (read v).map some

/-- The names of members, if each of them is a text. -/
def memberNames? (members : List (JsonText × Json)) : Option (List (String × Json)) :=
  members.mapM fun (k, v) => k.map (·, v)

/-- The fields of a record with the given field names, by name. -/
def record? (names : List String) : Json → Option (List (String × Json))
  | object members => do
    let fields := (← memberNames? members).filter (fun m => names.contains m.1)
    if (fields.map (·.1)).Nodup then some fields else none
  | array items => if items.length ≤ names.length then some (names.zip items) else none
  | _ => none

/-- The name and the contents of an alternative. -/
def variant? : Json → Option (String × Json)
  | object [(some name, v)] => some (name, v)
  | _ => none

/-- A field that must be there. -/
def required? (fields : List (String × Json)) (name : String) (read : Json → Option α) :
    Option α :=
  (fields.lookup name).bind read

/-- A field that may be missing. -/
def optional? (fields : List (String × Json)) (name : String) (missing : α)
    (read : Json → Option α) : Option α :=
  match fields.lookup name with
  | none => some missing
  | some v => read v

end KernelDiff.Json

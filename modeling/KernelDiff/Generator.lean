import KernelDiff.Argument.Transfer
import KernelDiff.Draw.Sequence
import KernelDiff.Policy

namespace KernelDiff

/-!
# Generators

A generator hands out the values for one list of arguments, in the order of the parameters.
It follows a policy, or it has entries of texts from the caller, one for each parameter that
takes a value. Two generators with the same beginnings hand out the same values.
-/

/-- The entries of a caller that are still to be handed out. -/
structure Entries where
  pending : List (List String)
  /-- How many there were at first. -/
  provided : Nat
  deriving DecidableEq, Repr

/-- The source of the values for one list of arguments. -/
structure Generator where
  policy : ValuePolicy
  /-- The place in the key stream behind the last draw. -/
  position : Nat := 0
  entries : Option Entries := none
  deriving DecidableEq, Repr

namespace Generator

/-- A generator that follows a policy. -/
def ofPolicy (p : ValuePolicy) : Generator := { policy := p }

/-- A generator that hands out the entries of a caller. -/
def ofInputs (inputs : List (List String)) : Generator where
  policy := .standard
  entries := some ⟨inputs, inputs.length⟩

/-- Whether the values come from a caller. -/
def isExplicit (g : Generator) : Bool := g.entries.isSome

/-- The seed of the next generated element. -/
def nextSeed (g : Generator) : Int64 × Generator :=
  match g.policy with
  | .constant value => (value, g)
  | .random seed =>
    let (draw, position) := Draw.next seed g.position
    (Int64.ofNat draw, { g with position })

/-- The next entry of the caller, or nothing where values are generated. -/
def nextEntry (g : Generator) : Except Failure (Option (List String)) × Generator :=
  match g.entries with
  | none => (.ok none, g)
  | some e =>
    match e.pending with
    | entry :: pending => (.ok (some entry), { g with entries := some { e with pending } })
    | [] => (.error (.inputCount (e.provided + 1) e.provided), g)

/-- The next value passed by value. An entry for it must be a single text. An entry that cannot
    be read is used up all the same. -/
def scalar (t : ElementType) (g : Generator) : Except Failure Value × Generator :=
  match g.nextEntry with
  | (.error e, g) => (.error e, g)
  | (.ok none, g) =>
    let (seed, g) := g.nextSeed
    (.ok (Value.ofSeed t seed), g)
  | (.ok (some [s]), g) => (Value.parse t s, g)
  | (.ok (some entry), g) => (.error (.unreadableValue (" ".intercalate entry) t.name), g)

/-- The bytes of the next `count` elements, each with a seed of its own. -/
def nextElements (t : ElementType) : (count : Nat) → Generator → List UInt8 × Generator
  | 0, g => ([], g)
  | count + 1, g =>
    let (seed, g) := g.nextSeed
    let (rest, g) := nextElements t count g
    (Element.ofSeed t seed ++ rest, g)

/-- The bytes of the next buffer of generated elements, of which there are as many as there is room
    for. -/
def generated (t : ElementType) (length : Nat) (g : Generator) : List UInt8 × Generator :=
  g.nextElements t (t.room length)

/-- The bytes of an entry: its elements, filled up with zero elements to `length`. -/
def ofEntry (t : ElementType) (entry : List String) (length : Nat) :
    Except Failure (List UInt8) := do
  let elements ← entry.mapM (Element.parse t)
  let padding := List.replicate (length - entry.length) (Value.zero t).bytes
  return (elements ++ padding).flatten

/-- The bytes of the next buffer. -/
def contents (t : ElementType) (length : Nat) (g : Generator) :
    Except Failure (List UInt8) × Generator :=
  match g.nextEntry with
  | (.error e, g) => (.error e, g)
  | (.ok none, g) =>
    let (host, g) := g.generated t length
    (.ok host, g)
  | (.ok (some entry), g) => (ofEntry t entry length, g)

/-- The next buffer, with memory allocated on the device. -/
def buffer (d : Device σ) (t : ElementType) (length : Nat) (readOnly : Bool) (g : Generator) :
    Session σ (Buffer × Generator) := do
  let (host?, g) := g.contents t length
  let host ← Session.ofExcept host?
  let b ← Buffer.allocate d { type := t, host, readOnly }
  return (b, g)

end Generator

end KernelDiff

namespace KernelDiff

/-!
# Value policies

How argument values are made when the caller gives none.
-/

/-- Where the values of generated arguments come from. -/
inductive ValuePolicy
  /-- Every lane is set to this value. -/
  | constant (value : Int64)
  /-- Every element takes the next draw of this seed. -/
  | random (seed : UInt64)
  deriving DecidableEq, Repr

namespace ValuePolicy

/-- The policy where none is given. -/
def standard : ValuePolicy := .constant 1

/-- The policy for a rerun on other inputs: a constant becomes a seed, and a seed the next. -/
def alternate : ValuePolicy → ValuePolicy
  | constant value => random value.toUInt64
  | random seed => random (seed + 1)

end ValuePolicy

end KernelDiff

namespace KernelDiff

/-!
# Profiles

Elapsed times of commands, by the stage they belong to. A profile only grows, until it is reset.
Its stages are listed in one order, whatever the order of the measurements.
-/

/-- What a measured command does. -/
inductive Stage
  | transferIn | transferOut | compile | execution
  deriving DecidableEq, Repr

namespace Stage

/-- The stages in their order. -/
def all : List Stage := [transferIn, transferOut, compile, execution]

/-- The place of a stage in their order. -/
def place : Stage → Nat
  | transferIn => 0
  | transferOut => 1
  | compile => 2
  | execution => 3

/-- The name of a stage. -/
def name : Stage → String
  | transferIn => "transfer-in"
  | transferOut => "transfer-out"
  | compile => "compile"
  | execution => "execution"

/-- The stage of that name. -/
def ofName? (s : String) : Option Stage :=
  all.find? (fun t => t.name == s)

end Stage

/-- The elapsed times of one command, in nanoseconds. -/
structure Elapsed where
  /-- From entering the queue to the end. -/
  queuedToEnd : Nat
  /-- From the start on the device to the end. -/
  startToEnd : Nat
  deriving DecidableEq, Repr

namespace Elapsed

/-- The times between three moments; a clock that runs backwards measures zero. -/
def between (queued start finish : Nat) : Elapsed :=
  ⟨finish - queued, finish - start⟩

/-- A measurement made on the host, cut to 64 bits. -/
def ofDuration (seconds nanoseconds : Nat) : Elapsed :=
  let ns := min (seconds * 1000000000 + nanoseconds) (UInt64.size - 1)
  ⟨ns, ns⟩

end Elapsed

/-- The elapsed times of all stages. A stage has an entry from its first measurement on, with its
    times in the order in which they were recorded. -/
structure Profile where
  entries : List (Stage × List Elapsed) := []
  deriving DecidableEq, Repr

namespace Profile

/-- The profile without a measurement. -/
def empty : Profile := {}

/-- The measurements of a stage. -/
def samples (p : Profile) (stage : Stage) : List Elapsed :=
  (p.entries.lookup stage).getD []

/-- The measurements of what is copied to the device. -/
def transferIn (p : Profile) : List Elapsed := p.samples .transferIn

/-- The measurements of what is copied back. -/
def transferOut (p : Profile) : List Elapsed := p.samples .transferOut

/-- The measurements of builds. -/
def compile (p : Profile) : List Elapsed := p.samples .compile

/-- The measurements of launches. -/
def execution (p : Profile) : List Elapsed := p.samples .execution

/-- Put an entry without a measurement in front of those of later stages. -/
def insertEntry (stage : Stage) : List (Stage × List Elapsed) → List (Stage × List Elapsed)
  | [] => [(stage, [])]
  | m :: ms => if stage.place < m.1.place then (stage, []) :: m :: ms else m :: insertEntry stage ms

/-- The profile with an entry for a stage, which is a new one if there was none. -/
def withEntry (p : Profile) (stage : Stage) : Profile :=
  if (p.entries.lookup stage).isSome then p else ⟨insertEntry stage p.entries⟩

/-- Add a measurement to the entry of a stage. -/
def push (p : Profile) (stage : Stage) (e : Elapsed) : Profile :=
  ⟨p.entries.map fun m => if m.1 = stage then (m.1, m.2 ++ [e]) else m⟩

/-- One more measurement of a stage. -/
def record (p : Profile) (stage : Stage) (e : Elapsed) : Profile :=
  (p.withEntry stage).push stage e

/-- One more measurement made on the host. -/
def recordDuration (p : Profile) (stage : Stage) (seconds nanoseconds : Nat) : Profile :=
  p.record stage (.ofDuration seconds nanoseconds)

/-- Forget every measurement. -/
def reset (_ : Profile) : Profile := empty

/-- The stages with an entry. -/
def stages (p : Profile) : List Stage :=
  p.entries.map (·.1)

/-- Whether there is no entry. -/
def isEmpty (p : Profile) : Bool :=
  p.entries.isEmpty

/-- The sum of the times from start to end of a stage, kept in a word of 64 bits. -/
def total (p : Profile) (stage : Stage) : Nat :=
  (p.samples stage).foldl (fun sum e => (sum + e.startToEnd) % UInt64.size) 0

theorem lookup_insertEntry_self {stage : Stage} {entries : List (Stage × List Elapsed)}
    (h : entries.lookup stage = none) : (insertEntry stage entries).lookup stage = some [] := by
  induction entries with
  | nil => simp [insertEntry]
  | cons m ms ih =>
    rw [List.lookup_cons] at h
    unfold insertEntry
    split
    · simp
    · split at h
      · cases h
      · next hne => rw [List.lookup_cons, hne, ih h]

theorem lookup_insertEntry_of_ne {stage other : Stage} (h : other ≠ stage)
    (entries : List (Stage × List Elapsed)) :
    (insertEntry stage entries).lookup other = entries.lookup other := by
  have hother : (other == stage) = false := beq_false_of_ne h
  induction entries with
  | nil => simp [insertEntry, List.lookup_cons, hother]
  | cons m ms ih =>
    unfold insertEntry
    split
    · rw [List.lookup_cons, hother]
    · rw [List.lookup_cons, List.lookup_cons, ih]

theorem lookup_push_self (p : Profile) (stage : Stage) (e : Elapsed) :
    (p.push stage e).entries.lookup stage = (p.entries.lookup stage).map (· ++ [e]) := by
  unfold push
  induction p.entries with
  | nil => rfl
  | cons m ms ih =>
    obtain ⟨other, times⟩ := m
    rw [List.map_cons]
    by_cases h : other = stage
    · simp [h]
    · have hne : (stage == other) = false := beq_false_of_ne (Ne.symm h)
      rw [if_neg h, List.lookup_cons, List.lookup_cons, hne]
      exact ih

theorem lookup_push_of_ne (p : Profile) {stage other : Stage} (e : Elapsed) (h : other ≠ stage) :
    (p.push stage e).entries.lookup other = p.entries.lookup other := by
  have hother : (other == stage) = false := beq_false_of_ne h
  unfold push
  induction p.entries with
  | nil => rfl
  | cons m ms ih =>
    obtain ⟨third, times⟩ := m
    rw [List.map_cons]
    by_cases hthird : third = stage
    · rw [if_pos hthird, List.lookup_cons, List.lookup_cons, hthird, hother]
      exact ih
    · rw [if_neg hthird, List.lookup_cons, List.lookup_cons]
      split
      · rfl
      · exact ih

/-- An entry without a measurement says no more than none. -/
theorem samples_withEntry (p : Profile) (stage other : Stage) :
    (p.withEntry stage).samples other = p.samples other := by
  unfold withEntry
  split
  · rfl
  · next hnone =>
    rw [Option.not_isSome_iff_eq_none] at hnone
    by_cases h : other = stage
    · rw [samples, samples, h, lookup_insertEntry_self hnone, hnone]
      rfl
    · rw [samples, samples, lookup_insertEntry_of_ne h]

theorem isSome_lookup_withEntry (p : Profile) (stage : Stage) :
    ((p.withEntry stage).entries.lookup stage).isSome := by
  unfold withEntry
  split
  · assumption
  · next hnone => rw [lookup_insertEntry_self (Option.not_isSome_iff_eq_none.1 hnone)]; rfl

@[simp] theorem samples_record_self (p : Profile) (stage : Stage) (e : Elapsed) :
    (p.record stage e).samples stage = p.samples stage ++ [e] := by
  rw [← samples_withEntry p stage stage, record, samples, lookup_push_self, samples]
  cases hentry : (p.withEntry stage).entries.lookup stage with
  | none => simpa [hentry] using isSome_lookup_withEntry p stage
  | some times => rfl

theorem samples_record_of_ne (p : Profile) {stage other : Stage} (e : Elapsed)
    (h : other ≠ stage) : (p.record stage e).samples other = p.samples other := by
  rw [← samples_withEntry p stage other, record, samples, lookup_push_of_ne _ e h, samples]

@[simp] theorem samples_reset (p : Profile) (stage : Stage) : p.reset.samples stage = [] :=
  rfl

end Profile

end KernelDiff

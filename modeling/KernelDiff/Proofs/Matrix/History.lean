import KernelDiff.Matrix
import KernelDiff.Proofs.Execution.Inputs

namespace KernelDiff

/-!
# The history of a matrix

A matrix is run configuration by configuration. What happens to one of them depends on the
references that were made before it and on the bench that was left to it, and on nothing else.
This file cuts a run of a matrix into such steps.

* `Drive` — all that stays the same while a kernel is driven through a matrix;
* `Checkpoint` — all that may change from one configuration to the next;
* `Drive.trial`, `Drive.rerun` — what the checked executions of a configuration show, and what
  the rerun on other inputs shows;
* `Drive.step_of_completed`, `Drive.run_of_completed` — the run of a configuration, by what its
  executions show;
* `Drive.find?_after_take` — the reference of a number of work items is what the first
  configuration of that number agreed on, and nothing else ever becomes one.
-/

variable {σ : Type}

/-- All that stays the same while a kernel is driven through a matrix. -/
structure Drive (σ : Type) where
  device : Device σ
  kernel : KernelHandle
  signature : Signature
  limits : GroupLimits
  inst : Instance
  source : InputSource

/-- What one configuration leaves to the next. -/
structure Checkpoint (σ : Type) where
  references : References
  bench : Bench σ

namespace Checkpoint

/-- Before the first configuration there are no references. -/
def start (b : Bench σ) : Checkpoint σ := ⟨[], b⟩

end Checkpoint

/-- What the checked executions of a configuration show. -/
inductive Trial
  /-- The sizes cannot be launched, so nothing was executed. -/
  | rejected (p : SizeProblem)
  /-- One of the two executions failed. -/
  | stopped (e : Failure)
  | completed (first second : Execution)
  deriving DecidableEq

/-- The outputs on which two completed executions agree. -/
def Trial.agreed? : Trial → Option Arguments
  | completed first second =>
    if first.outputs.same second.outputs then some first.outputs else none
  | _ => none

theorem Trial.agreed?_eq_some_iff {t : Trial} {r : Arguments} :
    t.agreed? = some r ↔ ∃ first second, t = .completed first second ∧
      first.outputs.same second.outputs ∧ first.outputs = r := by
  cases t <;> simp [Trial.agreed?]

namespace References

/-- Outputs are kept under their number of work items, unless there are others. -/
theorem find?_keep (r : References) (g g' : UInt64) (outputs : Arguments) :
    (r.keep g outputs).find? g' = (r.find? g').or (if g = g' then some outputs else none) := by
  unfold keep
  cases hg : r.find? g with
  | some old =>
    by_cases h : g = g'
    · subst h
      simp [hg]
    · simp [h]
  | none =>
    simp only [find?, List.lookup_cons] at hg ⊢
    by_cases h : g = g'
    · subst h
      simp [hg]
    · have hne : (g' == g) = false := by simpa using fun h' => h h'.symm
      simp [hne, h]

end References

/-- The comparisons find one of three things, in this order: the two executions differ, they agree
    but differ from the reference, or nothing differs. -/
theorem disagreement?_cases (first second : Arguments) (reference : Option Arguments) :
    (disagreement? first second reference = some .nondeterministic ∧
      first.same second = false) ∨
    (disagreement? first second reference = some .divergent ∧ first.same second ∧
      ∃ r, reference = some r ∧ r.same first = false) ∨
    (disagreement? first second reference = none ∧ first.same second ∧
      ∀ r, reference = some r → r.same first) := by
  unfold disagreement?
  by_cases hsame : first.same second
  · cases reference with
    | none => simp [hsame]
    | some r => by_cases hr : r.same first <;> simp [hsame, hr]
  · simp [hsame]

theorem disagreement?_of_not_same {first second : Arguments} (h : first.same second = false)
    (reference : Option Arguments) :
    disagreement? first second reference = some .nondeterministic := by
  simp [disagreement?, h]

/-- Where there is no reference yet, agreement of the two executions is enough. -/
theorem disagreement?_of_no_reference {first second : Arguments} (h : first.same second) :
    disagreement? first second none = none := by
  simp [disagreement?, h]

namespace Drive

variable (x : Drive σ)

/-- Execute the kernel once in a configuration. -/
def execution (sizes : LaunchSizes) (source : InputSource) : Session σ Execution :=
  x.signature.execute x.device x.kernel.kernel sizes source

/-- The two checked executions of a configuration. -/
def trial (c : Checkpoint σ) (sizes : LaunchSizes) : Trial :=
  match x.limits.problem? sizes with
  | some p => .rejected p
  | none =>
    match (x.execution sizes x.source).on c.bench with
    | (.error e, _) => .stopped e
    | (.ok first, b) =>
      match (x.execution sizes x.source).on b with
      | (.error e, _) => .stopped e
      | (.ok second, _) => .completed first second

/-- The bench after the two checked executions. -/
def benchAfterTrial (c : Checkpoint σ) (sizes : LaunchSizes) : Bench σ :=
  ((x.kernel.executeTwice x.device x.signature sizes x.source).on c.bench).2

/-- The execution on other inputs that follows the checked ones. -/
def rerun (c : Checkpoint σ) (sizes : LaunchSizes) : Except Failure Execution :=
  ((x.execution sizes (.generated x.inst.policy.alternate)).on (x.benchAfterTrial c sizes)).1

/-- Run one configuration. -/
def step (c : Checkpoint σ) (sizes : LaunchSizes) : KernelRun × Checkpoint σ :=
  match x.limits.problem? sizes with
  | some p => (.explained sizes .invalidSizes (.invalidSizes p.message), c)
  | none =>
    match x.kernel.runConfiguration x.device x.signature x.inst x.source c.references sizes
      c.bench with
    | (run, references, bench) => (run, ⟨references, bench⟩)

/-- What is left after some configurations. -/
def after (c : Checkpoint σ) (m : List LaunchSizes) : Checkpoint σ :=
  m.foldl (fun c sizes => (x.step c sizes).2) c

/-- The runs of some configurations, in order. -/
def runs (c : Checkpoint σ) : List LaunchSizes → List KernelRun
  | [] => []
  | sizes :: rest => (x.step c sizes).1 :: runs (x.step c sizes).2 rest

/-- What is found out about a configuration that no comparison found fault with. -/
def finding (c : Checkpoint σ) (sizes : LaunchSizes) (e : Execution) : Except Failure Outcome :=
  if e.outputs.same e.inputs then .ok .noOutput
  else if x.inst.checkSensitivity then
    (x.rerun c sizes).map fun other =>
      if other.outputs.same e.outputs then .inputInsensitive else .pass
  else .ok .pass

/-- The run of a configuration that no comparison found fault with. -/
def conclusion (c : Checkpoint σ) (sizes : LaunchSizes) (e : Execution) : KernelRun :=
  match x.finding c sizes e with
  | .error failure => .stopped sizes failure
  | .ok o => .ofOutcome sizes o

/-- The checked executions of the configuration with a given place. -/
def trialAt (c : Checkpoint σ) (m : List LaunchSizes) (n : Nat) (hn : n < m.length) : Trial :=
  x.trial (x.after c (m.take n)) m[n]

/-- The rerun of the configuration with a given place. -/
def rerunAt (c : Checkpoint σ) (m : List LaunchSizes) (n : Nat) (hn : n < m.length) :
    Except Failure Execution :=
  x.rerun (x.after c (m.take n)) m[n]

/-- The configuration at place `j` is the earliest of `globalSize` work items whose two checked
    executions agreed, and `r` is what they agreed on. -/
structure IsReference (c : Checkpoint σ) (m : List LaunchSizes) (globalSize : UInt64) (j : Nat)
    (r : Arguments) : Prop where
  lt : j < m.length
  size : m[j].globalSize = globalSize
  agreed : (x.trialAt c m j lt).agreed? = some r
  first : ∀ i (hi : i < j), m[i].globalSize = globalSize →
    (x.trialAt c m i (Nat.lt_trans hi lt)).agreed? = none

/-! ### From the loop to its steps -/

@[simp] theorem after_nil (c : Checkpoint σ) : x.after c [] = c := rfl

@[simp] theorem after_cons (c : Checkpoint σ) (sizes : LaunchSizes) (m : List LaunchSizes) :
    x.after c (sizes :: m) = x.after (x.step c sizes).2 m := rfl

theorem after_append (c : Checkpoint σ) (m m' : List LaunchSizes) :
    x.after c (m ++ m') = x.after (x.after c m) m' := List.foldl_append

/-- One more configuration is one more step. -/
theorem after_take_succ (c : Checkpoint σ) {m : List LaunchSizes} {n : Nat} (hn : n < m.length) :
    x.after c (m.take (n + 1)) = (x.step (x.after c (m.take n)) m[n]).2 := by
  rw [List.take_add_one, List.getElem?_eq_getElem hn, Option.toList_some, after_append]
  rfl

@[simp] theorem length_runs (c : Checkpoint σ) (m : List LaunchSizes) :
    (x.runs c m).length = m.length := by
  induction m generalizing c with
  | nil => rfl
  | cons sizes m ih => simp [runs, ih]

/-- Every run is that of its own sizes, on what the configurations before it have left. -/
theorem getElem?_runs (c : Checkpoint σ) {m : List LaunchSizes} {n : Nat} (hn : n < m.length) :
    (x.runs c m)[n]? = some (x.step (x.after c (m.take n)) m[n]).1 := by
  induction m generalizing c n with
  | nil => simp at hn
  | cons sizes m ih =>
    cases n with
    | zero => rfl
    | succ n =>
      have hn' : n < m.length := by simpa using hn
      have := ih (x.step c sizes).2 hn'
      simpa only [runs, List.getElem?_cons_succ, List.getElem_cons_succ, List.take_succ_cons,
        after_cons] using this

theorem step_of_problem {c : Checkpoint σ} {sizes : LaunchSizes} {p : SizeProblem}
    (hp : x.limits.problem? sizes = some p) :
    x.step c sizes = (.explained sizes .invalidSizes (.invalidSizes p.message), c) := by
  rw [step, hp]

theorem step_of_launchable {c : Checkpoint σ} {sizes : LaunchSizes}
    (hp : x.limits.problem? sizes = none) :
    x.step c sizes =
      let r := x.kernel.runConfiguration x.device x.signature x.inst x.source c.references sizes
        c.bench
      (r.1, ⟨r.2.1, r.2.2⟩) := by
  rw [step, hp]

/-- The loop over a matrix takes these steps. -/
theorem runMatrix_eq (c : Checkpoint σ) (m : List LaunchSizes) :
    x.kernel.runMatrix x.device x.signature x.limits x.inst x.source m c.references c.bench =
      (x.runs c m, (x.after c m).bench) := by
  induction m generalizing c with
  | nil => rfl
  | cons sizes m ih =>
    rw [KernelHandle.runMatrix, runs, after_cons]
    cases hp : x.limits.problem? sizes with
    | some p =>
      simp only [x.step_of_problem hp, ih c]
    | none =>
      rw [x.step_of_launchable hp]
      simp only [ih ⟨_, _⟩]

/-! ### One step -/

/-- The checked executions are those that a configuration starts with. -/
theorem trial_of_launchable {c : Checkpoint σ} {sizes : LaunchSizes}
    (hp : x.limits.problem? sizes = none) :
    x.trial c sizes =
      match ((x.kernel.executeTwice x.device x.signature sizes x.source).on c.bench).1 with
      | .error e => .stopped e
      | .ok (first, second) => .completed first second := by
  rw [trial, hp]
  simp only [KernelHandle.executeTwice, Session.on_bind]
  show (match (x.execution sizes x.source).on c.bench with | _ => _) = _
  unfold execution
  rcases (x.signature.execute x.device x.kernel.kernel sizes x.source).on c.bench with
    ⟨⟨e⟩ | ⟨first⟩, b⟩
  · rfl
  · simp only
    rcases (x.signature.execute x.device x.kernel.kernel sizes x.source).on b with
      ⟨⟨e⟩ | ⟨second⟩, b⟩ <;> rfl

theorem trial_eq_rejected_iff {c : Checkpoint σ} {sizes : LaunchSizes} {p : SizeProblem} :
    x.trial c sizes = .rejected p ↔ x.limits.problem? sizes = some p := by
  constructor
  · intro h
    cases hp : x.limits.problem? sizes with
    | some q =>
      rw [trial, hp] at h
      cases h
      rfl
    | none =>
      rw [x.trial_of_launchable hp] at h
      split at h <;> cases h
  · intro h
    rw [trial, h]

theorem launchable_of_trial {c : Checkpoint σ} {sizes : LaunchSizes} {t : Trial}
    (h : x.trial c sizes = t) (ht : ∀ p, t ≠ .rejected p) : x.limits.problem? sizes = none := by
  cases hp : x.limits.problem? sizes with
  | none => rfl
  | some p =>
    rw [x.trial_eq_rejected_iff.2 hp] at h
    exact absurd h.symm (ht p)

/-- A failure of a checked execution is the whole outcome, and leaves no reference behind. -/
theorem step_of_stopped {c : Checkpoint σ} {sizes : LaunchSizes} {e : Failure}
    (h : x.trial c sizes = .stopped e) :
    (x.step c sizes).1 = .stopped sizes e ∧ (x.step c sizes).2.references = c.references := by
  have hp := x.launchable_of_trial h (by simp)
  rw [x.trial_of_launchable hp] at h
  rw [x.step_of_launchable hp]
  unfold KernelHandle.runConfiguration
  rcases htwice : (x.kernel.executeTwice x.device x.signature sizes x.source).on c.bench with
    ⟨⟨e'⟩ | ⟨first, second⟩, b⟩
  · rw [htwice] at h
    cases h
    exact ⟨rfl, rfl⟩
  · rw [htwice] at h
    cases h

theorem classify_eq_finding (c : Checkpoint σ) (sizes : LaunchSizes) (e : Execution) :
    ((x.kernel.classify x.device x.signature sizes x.inst e).on (x.benchAfterTrial c sizes)).1 =
      x.finding c sizes e := by
  unfold KernelHandle.classify finding rerun execution
  by_cases hsame : e.outputs.same e.inputs
  · rw [if_pos hsame, if_pos hsame]
    rfl
  · rw [if_neg hsame, if_neg hsame]
    by_cases hcheck : x.inst.checkSensitivity
    · rw [if_pos hcheck, if_pos hcheck, Session.on_bind]
      rcases (x.signature.execute x.device x.kernel.kernel sizes
        (.generated x.inst.policy.alternate)).on (x.benchAfterTrial c sizes) with
        ⟨⟨failure⟩ | ⟨other⟩, b⟩ <;> rfl
    · rw [if_neg hcheck, if_neg hcheck]
      rfl

/-- Completed executions follow each other, and the rerun follows them. -/
theorem executions_of_trial {c : Checkpoint σ} {sizes : LaunchSizes} {first second : Execution}
    (h : x.trial c sizes = .completed first second) :
    ∃ b, (x.execution sizes x.source).on c.bench = (.ok first, b) ∧
      (x.execution sizes x.source).on b = (.ok second, x.benchAfterTrial c sizes) := by
  have hp := x.launchable_of_trial h (by simp)
  rw [x.trial_of_launchable hp] at h
  unfold benchAfterTrial
  rcases htwice : (x.kernel.executeTwice x.device x.signature sizes x.source).on c.bench with
    ⟨⟨e⟩ | ⟨first', second'⟩, b'⟩
  · rw [htwice] at h
    cases h
  · rw [htwice] at h
    cases h
    obtain ⟨e, b, hfirst, hrest⟩ := Session.on_bind_eq_ok.1 htwice
    obtain ⟨e', b₁, hsecond, hreturn⟩ := Session.on_bind_eq_ok.1 hrest
    cases hreturn
    exact ⟨b, hfirst, hsecond⟩

/-- What is found out about an execution depends on what can be observed of it only. -/
theorem conclusion_congr (c : Checkpoint σ) (sizes : LaunchSizes) {e e' : Execution}
    (hinputs : e.inputs.observations = e'.inputs.observations)
    (houtputs : e.outputs.observations = e'.outputs.observations) :
    x.conclusion c sizes e = x.conclusion c sizes e' := by
  have hsame : ∀ other : Execution, other.outputs.same e.outputs = other.outputs.same e'.outputs :=
    fun _ => Arguments.same_congr rfl houtputs
  unfold conclusion finding
  rw [Arguments.same_congr houtputs hinputs]
  simp only [hsame]

/-- Where the two executions agree it does not matter which of them is looked at. -/
theorem conclusion_of_agreement {c : Checkpoint σ} {sizes : LaunchSizes} {first second : Execution}
    (h : x.trial c sizes = .completed first second)
    (hsame : first.outputs.same second.outputs) :
    x.conclusion c sizes second = x.conclusion c sizes first := by
  obtain ⟨b, hfirst, hsecond⟩ := x.executions_of_trial h
  have halike := Execution.alike_inputs rfl hsecond hfirst
  exact x.conclusion_congr c sizes (Arguments.observations_of_alike halike)
    (Arguments.same_iff.1 hsame).symm

/-- Two completed executions are compared with each other and with the reference; what passes
    both comparisons becomes the reference where there is none. -/
theorem step_of_completed {c : Checkpoint σ} {sizes : LaunchSizes} {first second : Execution}
    (h : x.trial c sizes = .completed first second) :
    match disagreement? first.outputs second.outputs (c.references.find? sizes.globalSize) with
    | some o =>
      (x.step c sizes).1 = .ofOutcome sizes o ∧ (x.step c sizes).2.references = c.references
    | none =>
      (x.step c sizes).1 = x.conclusion c sizes first ∧
        (x.step c sizes).2.references = c.references.keep sizes.globalSize first.outputs := by
  have hp := x.launchable_of_trial h (by simp)
  have hagreement := x.conclusion_of_agreement h
  have hfinding := x.classify_eq_finding c sizes
  rw [x.trial_of_launchable hp] at h
  rw [x.step_of_launchable hp]
  unfold KernelHandle.runConfiguration
  unfold benchAfterTrial at hfinding
  rcases htwice : (x.kernel.executeTwice x.device x.signature sizes x.source).on c.bench with
    ⟨⟨e⟩ | ⟨first', second'⟩, b⟩
  · rw [htwice] at h
    cases h
  · rw [htwice] at h hfinding
    cases h
    simp only
    rcases disagreement?_cases first.outputs second.outputs
      (c.references.find? sizes.globalSize) with
      ⟨hd, -⟩ | ⟨hd, -⟩ | ⟨hd, hsame, -⟩
    · rw [hd]
      exact ⟨rfl, rfl⟩
    · rw [hd]
      exact ⟨rfl, rfl⟩
    · -- A new reference takes the outputs of the first execution, and the second is looked at.
      have hlooked : x.conclusion c sizes
          (if (c.references.find? sizes.globalSize).isNone then second else first) =
            x.conclusion c sizes first := by
        split
        · exact hagreement hsame
        · rfl
      rw [hd]
      rw [← hlooked]
      unfold conclusion
      rw [← hfinding]
      rcases (x.kernel.classify x.device x.signature sizes x.inst
        (if (c.references.find? sizes.globalSize).isNone then second else first)).on b with
        ⟨⟨failure⟩ | ⟨o⟩, b'⟩
      · exact ⟨rfl, rfl⟩
      · exact ⟨rfl, rfl⟩

/-- The run of two completed executions is one of three: they differ, they agree but differ from
    the reference, or there is nothing left but to find out more about them. -/
theorem run_of_completed {c : Checkpoint σ} {sizes : LaunchSizes} {first second : Execution}
    (h : x.trial c sizes = .completed first second) :
    ((x.step c sizes).1 = .ofOutcome sizes .nondeterministic ∧
      first.outputs.same second.outputs = false) ∨
    ((x.step c sizes).1 = .ofOutcome sizes .divergent ∧ first.outputs.same second.outputs ∧
      ∃ r, c.references.find? sizes.globalSize = some r ∧ r.same first.outputs = false) ∨
    ((x.step c sizes).1 = x.conclusion c sizes first ∧ first.outputs.same second.outputs ∧
      ∀ r, c.references.find? sizes.globalSize = some r → r.same first.outputs) := by
  have hstep := x.step_of_completed h
  rcases disagreement?_cases first.outputs second.outputs
    (c.references.find? sizes.globalSize) with ⟨hd, hdiffer⟩ | ⟨hd, hsame⟩ | ⟨hd, hsame⟩
  · rw [hd] at hstep
    exact .inl ⟨hstep.1, hdiffer⟩
  · rw [hd] at hstep
    exact .inr (.inl ⟨hstep.1, hsame⟩)
  · rw [hd] at hstep
    exact .inr (.inr ⟨hstep.1, hsame⟩)

/-! ### References -/

/-- A configuration whose executions did not both succeed and agree leaves all references alone. -/
theorem references_step {c : Checkpoint σ} {sizes : LaunchSizes}
    (h : (x.trial c sizes).agreed? = none) :
    (x.step c sizes).2.references = c.references := by
  cases ht : x.trial c sizes with
  | rejected p => rw [x.step_of_problem (x.trial_eq_rejected_iff.1 ht)]
  | stopped e => exact (x.step_of_stopped ht).2
  | completed first second =>
    rw [ht, Trial.agreed?] at h
    have hsame : first.outputs.same second.outputs = false := by
      simpa using h
    have hstep := x.step_of_completed ht
    rw [disagreement?_of_not_same hsame] at hstep
    exact hstep.2

/-- A step gives a number of work items a reference only where there is none, and only the
    outputs that its own two executions agreed on. -/
theorem find?_step (c : Checkpoint σ) (sizes : LaunchSizes) (g : UInt64) :
    (x.step c sizes).2.references.find? g =
      (c.references.find? g).or
        (if sizes.globalSize = g then (x.trial c sizes).agreed? else none) := by
  cases hagreed : (x.trial c sizes).agreed? with
  | none =>
    rw [x.references_step hagreed]
    simp
  | some outputs =>
    obtain ⟨first, second, ht, hsame, rfl⟩ := Trial.agreed?_eq_some_iff.1 hagreed
    have hstep := x.step_of_completed ht
    rcases disagreement?_cases first.outputs second.outputs
      (c.references.find? sizes.globalSize) with
      ⟨-, hdiffer⟩ | ⟨hd, -, r, hr, -⟩ | ⟨hd, -, -⟩
    · simp [hsame] at hdiffer
    · rw [hd] at hstep
      rw [hstep.2]
      -- Executions that agree are found at fault only where there is a reference already.
      by_cases hg : sizes.globalSize = g
      · subst hg
        rw [hr, Option.some_or]
      · simp [hg]
    · rw [hd] at hstep
      rw [hstep.2, References.find?_keep]

/-- There is no reference as long as no executions have agreed. -/
theorem find?_after_take_eq_none_iff {c : Checkpoint σ} (hc : c.references = [])
    {m : List LaunchSizes} {n : Nat} (hn : n ≤ m.length) (g : UInt64) :
    (x.after c (m.take n)).references.find? g = none ↔
      ∀ i (hi : i < n), m[i].globalSize = g →
        (x.trialAt c m i (Nat.lt_of_lt_of_le hi hn)).agreed? = none := by
  induction n with
  | zero => simp [hc, References.find?]
  | succ n ih =>
    have hlt : n < m.length := by omega
    rw [x.after_take_succ c hlt, find?_step, Option.or_eq_none_iff, ih (by omega)]
    constructor
    · rintro ⟨hbefore, hlast⟩ i hi hg
      by_cases hin : i < n
      · exact hbefore i hin hg
      · have : i = n := by omega
        subst this
        rwa [if_pos hg] at hlast
    · intro h
      refine ⟨fun i hi => h i (by omega), ?_⟩
      split
      · next hg => exact h n (by omega) hg
      · rfl

/-- Two configurations of one number of work items cannot both be its reference. -/
theorem IsReference.unique {x : Drive σ} {c : Checkpoint σ} {m : List LaunchSizes} {g : UInt64}
    {j j' : Nat} {r r' : Arguments} (h : x.IsReference c m g j r)
    (h' : x.IsReference c m g j' r') : j = j' ∧ r = r' := by
  have not_lt : ∀ {i i' s s'}, x.IsReference c m g i s → x.IsReference c m g i' s' →
      ¬ i < i' := by
    intro i i' s s' hi hi' hlt
    have := hi'.first i hlt hi.size
    rw [hi.agreed] at this
    cases this
  have hj : j = j' := by
    have := not_lt h h'
    have := not_lt h' h
    omega
  subst hj
  have hr : some r = some r' := by
    rw [← h.agreed, ← h'.agreed]
  exact ⟨rfl, Option.some.inj hr⟩

/-- **The reference of a number of work items.** It is what the earliest configuration of that
    number agreed on, whatever happened before, between and after. -/
theorem find?_after_take {c : Checkpoint σ} (hc : c.references = []) {m : List LaunchSizes}
    {n : Nat} (hn : n ≤ m.length) (g : UInt64) (r : Arguments) :
    (x.after c (m.take n)).references.find? g = some r ↔
      ∃ j, j < n ∧ x.IsReference c m g j r := by
  induction n generalizing r with
  | zero => simp [hc, References.find?]
  | succ n ih =>
    have hlt : n < m.length := by omega
    rw [x.after_take_succ c hlt, find?_step]
    cases hold : (x.after c (m.take n)).references.find? g with
    -- A reference that is there already stays, and there is no other.
    | some old =>
      obtain ⟨j, hj, href⟩ := (ih (by omega) old).1 hold
      rw [Option.some_or, Option.some.injEq]
      constructor
      · rintro rfl
        exact ⟨j, by omega, href⟩
      · rintro ⟨j', -, href'⟩
        exact (href.unique href').2
    -- Otherwise only the last configuration can have made one.
    | none =>
      have hbefore := (x.find?_after_take_eq_none_iff hc (Nat.le_of_lt hlt) g).1 hold
      rw [Option.none_or]
      constructor
      · intro h
        split at h
        · next hg => exact ⟨n, by omega, hlt, hg, h, fun i hi => hbefore i hi⟩
        · cases h
      · rintro ⟨j, hj, href⟩
        have hnot : ¬ j < n := by
          intro hjn
          have := hbefore j hjn href.size
          rw [href.agreed] at this
          cases this
        obtain rfl : j = n := by omega
        rw [if_pos href.size]
        exact href.agreed

end Drive

/-! ### The whole run of a kernel -/

namespace KernelHandle

variable {d : Device σ} {k : KernelHandle} {env : Environment} {i : Instance}

/-- A kernel with a signature, with as many input entries as it needs and with limits is driven
    through the whole matrix, whatever happens in its configurations. -/
theorem run_of_limits {b b₁ b₂ : Bench σ} {s : Signature} {source : InputSource}
    {limits : GroupLimits} (hsignature : (k.signature d).on b = (.ok s, b₁))
    (hsource : source? s i = .ok source) (hlimits : (k.limits d env).on b₁ = (.ok limits, b₂)) :
    (k.run d env i).on b =
      (.ok (Drive.runs ⟨d, k, s, limits, i, source⟩ (.start b₂) i.matrix),
        (Drive.after ⟨d, k, s, limits, i, source⟩ (.start b₂) i.matrix).bench) := by
  have hloop := Drive.runMatrix_eq ⟨d, k, s, limits, i, source⟩ (.start b₂) i.matrix
  show k.run d env i b = _
  unfold run
  simp only [hsignature, hsource, hlimits]
  exact congrArg (fun r => (Except.ok r.1, r.2)) hloop

/-- A kernel with a parameter that no value can be made for is skipped as a whole. -/
theorem run_of_unsupported {b b₁ : Bench σ} {index : Nat} {typeName : String}
    (hsignature : (k.signature d).on b = (.error (.unsupportedArgument index typeName), b₁)) :
    (k.run d env i).on b = (.ok (skipAll i (.unsupportedArgument index typeName)), b₁) := by
  show k.run d env i b = _
  unfold run
  rw [hsignature]

/-- Without a signature a kernel is skipped as a whole, or it is not driven at all. -/
theorem run_of_signature_error (env : Environment) (i : Instance) {b b₁ : Bench σ} {e : Failure}
    (hsignature : (k.signature d).on b = (.error e, b₁)) :
    (k.run d env i).on b = (.ok (skipAll i e), b₁) ∨ (k.run d env i).on b = (.error e, b₁) := by
  cases e with
  | unsupportedArgument index typeName => exact .inl (run_of_unsupported hsignature)
  | _ =>
    right
    show k.run d env i b = _
    unfold run
    rw [hsignature]

/-- With a wrong number of input entries a kernel is skipped as a whole. -/
theorem run_of_source_error {b b₁ : Bench σ} {s : Signature} {e : Failure}
    (hsignature : (k.signature d).on b = (.ok s, b₁)) (hsource : source? s i = .error e) :
    (k.run d env i).on b = (.ok (skipAll i e), b₁) := by
  show k.run d env i b = _
  unfold run
  simp only [hsignature, hsource]

/-- A kernel whose limits cannot be asked for is not driven at all. -/
theorem run_of_limits_error {b b₁ b₂ : Bench σ} {s : Signature} {source : InputSource}
    {e : Failure} (hsignature : (k.signature d).on b = (.ok s, b₁))
    (hsource : source? s i = .ok source) (hlimits : (k.limits d env).on b₁ = (.error e, b₂)) :
    (k.run d env i).on b = (.error e, b₂) := by
  show k.run d env i b = _
  unfold run
  simp only [hsignature, hsource, hlimits]

/-- What is recorded of a kernel is either one reason to skip all configurations, or the runs of
    a drive through the matrix. -/
theorem run_cases {b b' : Bench σ} {runs : List KernelRun}
    (h : (k.run d env i).on b = (.ok runs, b')) :
    (∃ e, runs = skipAll i e) ∨
      ∃ s b₁ source limits b₂, (k.signature d).on b = (.ok s, b₁) ∧ source? s i = .ok source ∧
        (k.limits d env).on b₁ = (.ok limits, b₂) ∧
        runs = Drive.runs ⟨d, k, s, limits, i, source⟩ (.start b₂) i.matrix := by
  rcases hsignature : (k.signature d).on b with ⟨⟨e⟩ | ⟨s⟩, b₁⟩
  · rcases run_of_signature_error env i hsignature with hrun | hrun
    · rw [hrun] at h
      cases h
      exact .inl ⟨e, rfl⟩
    · rw [hrun] at h
      cases h
  · cases hsource : source? s i with
    | error e =>
      rw [run_of_source_error hsignature hsource] at h
      cases h
      exact .inl ⟨e, rfl⟩
    | ok source =>
      rcases hlimits : (k.limits d env).on b₁ with ⟨⟨e⟩ | ⟨limits⟩, b₂⟩
      · rw [run_of_limits_error hsignature hsource hlimits] at h
        cases h
      · right
        rw [run_of_limits hsignature hsource hlimits] at h
        cases h
        exact ⟨s, b₁, source, limits, b₂, rfl, hsource, hlimits, rfl⟩

end KernelHandle

end KernelDiff

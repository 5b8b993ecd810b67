import KernelDiff.Proofs.Execution.Memory
import KernelDiff.Proofs.Matrix.Classification
import KernelDiff.Proofs.Simulator.Faithful

namespace KernelDiff

/-!
# No false alarms

Where memory can be trusted and launches have an effect that the group size does not change, no
two executions over one number of work items disagree. So no configuration is found
nondeterministic or divergent, whatever calls fail in between.

* `Drive.keeps_after` — what all answers of the device keep holds after any configurations;
* `Drive.same_outputs` — any two configurations of one number of work items agree;
* `run_agrees` — no run of a matrix is found to disagree with anything.
-/

variable {σ : Type}

/-! ### What the answers of a device keep -/

section Keeps

variable {d : Device σ} {P : σ → Prop} (hP : ∀ c s, P s → P (d.answer c s).2)

include hP

theorem Signature.keeps_query (kernel : Nat) :
    (Signature.query d kernel).Steady P fun _ => True := by
  have hcall (c : Call) : (d.call c).Steady P fun _ => True :=
    Device.steady_call hP (fun _ => trivial) c
  refine (hcall _).bind fun count => Session.steady_mapM fun index _ => ?_
  refine (hcall _).bind fun typeName => (hcall _).bind fun space => (hcall _).bind fun q => ?_
  exact (Session.steady_ofExcept fun _ _ => trivial).bind fun p => Session.steady_pure _

theorem KernelHandle.keeps_limits (k : KernelHandle) (env : Environment) :
    (k.limits d env).Steady P fun _ => True := by
  have hcall (c : Call) : (d.call c).Steady P fun _ => True :=
    Device.steady_call hP (fun _ => trivial) c
  refine (hcall _).bind fun kernelMax => (hcall _).bind fun compiled => ?_
  exact (hcall _).bind fun deviceMax => Session.steady_pure _

theorem Signature.keeps_execute (kernel : Nat) (s : Signature) (sizes : LaunchSizes)
    (source : InputSource) : (s.execute d kernel sizes source).Steady P fun _ => True :=
  Signature.steady_execute hP (fun _ => trivial) trivial kernel s sizes fun _ _ _ => trivial

theorem KernelHandle.keeps_executeTwice (k : KernelHandle) (s : Signature) (sizes : LaunchSizes)
    (source : InputSource) : (k.executeTwice d s sizes source).Steady P fun _ => True := by
  refine (Signature.keeps_execute hP _ s sizes source).bind fun first => ?_
  exact (Signature.keeps_execute hP _ s sizes source).bind fun second => Session.steady_pure _

theorem KernelHandle.keeps_classify (k : KernelHandle) (s : Signature) (sizes : LaunchSizes)
    (i : Instance) (e : Execution) : (k.classify d s sizes i e).Steady P fun _ => True := by
  unfold KernelHandle.classify
  split
  · exact Session.steady_pure _
  · split
    · exact (Signature.keeps_execute hP _ s sizes _).bind fun other => Session.steady_pure _
    · exact Session.steady_pure _

end Keeps

namespace Drive

variable (x : Drive σ) {P : σ → Prop}

theorem keeps_step (hP : ∀ c s, P s → P (x.device.answer c s).2) {c : Checkpoint σ}
    (hc : P c.bench.device) (sizes : LaunchSizes) : P (x.step c sizes).2.bench.device := by
  cases hp : x.limits.problem? sizes with
  | some p =>
    rw [x.step_of_problem hp]
    exact hc
  | none =>
    rw [x.step_of_launchable hp]
    unfold KernelHandle.runConfiguration
    -- Executions and rerun are all that is asked of the device in a step.
    rcases htwice : (x.kernel.executeTwice x.device x.signature sizes x.source).on c.bench with
      ⟨⟨e⟩ | ⟨first, second⟩, b⟩
    · exact (KernelHandle.keeps_executeTwice hP _ _ _ _).keeps htwice hc
    · have hb := (KernelHandle.keeps_executeTwice hP _ _ _ _).keeps htwice hc
      simp only
      cases disagreement? first.outputs second.outputs
        (c.references.find? sizes.globalSize) with
      | some o => exact hb
      | none =>
        simp only
        rcases hclassify : (x.kernel.classify x.device x.signature sizes x.inst
          (if (c.references.find? sizes.globalSize).isNone then second else first)).on b with
          ⟨⟨failure⟩ | ⟨o⟩, b'⟩
        · exact (KernelHandle.keeps_classify hP _ _ _ _ _).keeps hclassify hb
        · exact (KernelHandle.keeps_classify hP _ _ _ _ _).keeps hclassify hb

/-- What all answers of the device keep holds after any configurations. -/
theorem keeps_after (hP : ∀ c s, P s → P (x.device.answer c s).2) {c : Checkpoint σ}
    (hc : P c.bench.device) (m : List LaunchSizes) : P (x.after c m).bench.device := by
  induction m generalizing c with
  | nil => exact hc
  | cons sizes m ih =>
    rw [x.after_cons]
    exact ih (x.keeps_step hP hc sizes)

/-! ### Agreement -/

section Faithful

variable {x} {v : View σ} {arity : Nat} {effect : Effect}
variable (hd : Faithful x.device x.kernel.kernel v arity effect)
variable (hblind : effect.LocalBlind) (harity : x.signature.length = arity)

include hd hblind harity

/-- Any two configurations of one number of work items have the same outputs, and so have the two
    executions of one configuration. -/
theorem same_outputs {c c' : Checkpoint σ} {sizes sizes' : LaunchSizes}
    {first second first' second' : Execution} (hsizes : sizes.globalSize = sizes'.globalSize)
    (hc : v.Valid c.bench.device) (hc' : v.Valid c'.bench.device)
    (ht : x.trial c sizes = .completed first second)
    (ht' : x.trial c' sizes' = .completed first' second') :
    first.outputs.same first'.outputs ∧ first.outputs.same second'.outputs := by
  obtain ⟨b, hfirst, -⟩ := x.executions_of_trial ht
  obtain ⟨b', hfirst', hsecond'⟩ := x.executions_of_trial ht'
  have hb' : v.Valid b'.device :=
    (Signature.keeps_execute hd.valid _ _ _ _).keeps hfirst' hc'
  constructor
  · exact Arguments.same_iff.2 (Execution.observations_eq hd harity hsizes (.inr hblind) hc hc'
      hfirst hfirst')
  · exact Arguments.same_iff.2 (Execution.observations_eq hd harity hsizes (.inr hblind) hc hb'
      hfirst hsecond')

/-- No configuration is found to disagree with anything. -/
theorem agrees_step {b : Bench σ} (hb : v.Valid b.device) {m : List LaunchSizes} {n : Nat}
    (hn : n < m.length) :
    (x.step (x.after (.start b) (m.take n)) m[n]).1.outcome ≠ .nondeterministic ∧
      (x.step (x.after (.start b) (m.take n)) m[n]).1.outcome ≠ .divergent := by
  have hvalid : ∀ m, v.Valid (x.after (.start b) m).bench.device := fun m =>
    x.keeps_after hd.valid hb m
  have hlaw := x.classified_step (x.after (.start b) (m.take n)) m[n]
  constructor
  · intro hnondeterministic
    obtain ⟨first, second, ht, hdiffer⟩ := hlaw.nondeterministic.1 hnondeterministic
    have hsame : first.outputs.same second.outputs :=
      (same_outputs hd hblind harity rfl (hvalid _) (hvalid _) ht ht).2
    simp [hsame] at hdiffer
  · intro hdivergent
    obtain ⟨first, second, ht, -, r, hr, hdiffer⟩ := hlaw.divergent.1 hdivergent
    -- The reference is what an earlier configuration of as many work items agreed on.
    obtain ⟨j, hj, href⟩ := (x.find?_after_take rfl (Nat.le_of_lt hn) _ r).1 hr
    obtain ⟨first', second', ht', -, rfl⟩ := Trial.agreed?_eq_some_iff.1 href.agreed
    have hsame : first'.outputs.same first.outputs :=
      (same_outputs hd hblind harity href.size (hvalid _) (hvalid _) ht' ht).1
    simp [hsame] at hdiffer

end Faithful

end Drive

/-- A kernel has as many parameters as it always has. -/
theorem Signature.length_of_query {d : Device σ} {v : View σ} {kernel arity : Nat} {effect : Effect}
    (hd : Faithful d kernel v arity effect) {b b' : Bench σ} {s : Signature}
    (hb : v.Valid b.device) (h : (Signature.query d kernel).on b = (.ok s, b')) :
    s.length = arity := by
  obtain ⟨count, b₁, hcount, hparameters⟩ := Session.on_bind_eq_ok.1 h
  obtain ⟨s₁, hanswer, rfl⟩ := d.call_eq_ok.1 hcount
  have hlength := Session.length_of_mapM hparameters
  rw [hlength, List.length_range, hd.parameterCount hb hanswer]

namespace KernelHandle

variable {d : Device σ} {k : KernelHandle} {env : Environment} {i : Instance}

/-- **No false alarms.** On a faithful device with an effect that the group size does not change,
    no configuration is found nondeterministic and none divergent. Any calls may fail. -/
theorem run_agrees {v : View σ} {arity : Nat} {effect : Effect}
    (hd : Faithful d k.kernel v arity effect) (hblind : effect.LocalBlind) {b b' : Bench σ}
    {runs : List KernelRun} (hb : v.Valid b.device)
    (h : (k.run d env i).on b = (.ok runs, b')) :
    ∀ run ∈ runs, run.outcome ≠ .nondeterministic ∧ run.outcome ≠ .divergent := by
  rcases run_cases h with ⟨e, rfl⟩ | ⟨s, b₁, source, limits, b₂, hs, -, hlimits, rfl⟩
  · intro run hrun
    obtain ⟨sizes, -, rfl⟩ := List.mem_map.1 hrun
    exact ⟨by simp [KernelRun.explained], by simp [KernelRun.explained]⟩
  have hb₁ : v.Valid b₁.device := (Signature.keeps_query hd.valid _).keeps hs hb
  have hb₂ : v.Valid b₂.device := (keeps_limits hd.valid k env).keeps hlimits hb₁
  have harity : s.length = arity := Signature.length_of_query hd hb hs
  intro run hrun
  obtain ⟨n, hn, rfl⟩ := List.getElem_of_mem hrun
  have hn' : n < i.matrix.length := by
    rwa [Drive.length_runs] at hn
  -- Name the drive, since everything below is about its checkpoints.
  generalize hx : (⟨d, k, s, limits, i, source⟩ : Drive σ) = x at hn ⊢
  have hxd : Faithful x.device x.kernel.kernel v arity effect := by
    rw [← hx]
    exact hd
  have hxs : x.signature.length = arity := by
    rw [← hx]
    exact harity
  have hrun : (x.runs (.start b₂) i.matrix)[n] =
      (x.step (x.after (.start b₂) (i.matrix.take n)) i.matrix[n]).1 :=
    Option.some.inj ((List.getElem?_eq_getElem hn).symm.trans (x.getElem?_runs _ hn'))
  rw [hrun]
  exact Drive.agrees_step hxd hblind hxs hb₂ hn'

/-- A kernel that does not look at the size of its groups or the number of its launches. -/
def calmScript : Simulator.KernelScript :=
  scriptedKernel
    [⟨"uchar*", .global, false, none⟩, ⟨"int*", .workGroup, false, none⟩,
      ⟨"uchar", .workItem, false, none⟩]
    [plainStep .addGlobalSize {}, plainStep .add { globalSize := some 4 }]

/-- A device that refuses the fourth copy to the host. -/
def calmBench : Bench Simulator.State :=
  scriptedBench calmScript.parameters calmScript.body [⟨.read, 3, -5⟩]

def calmInstance : Instance where
  source := ""
  matrix := [⟨4, 2⟩, ⟨4, 1⟩, ⟨4, 3⟩, ⟨4, 4⟩, ⟨8, 2⟩]

set_option maxRecDepth 10000 in
theorem run_agrees_calm :
    ∃ runs b', ((mk 0 "k").run Simulator.device ⟨0, ""⟩ calmInstance).on calmBench =
        (.ok runs, b') ∧
      runs.map (·.outcome) = [.pass, .runtimeFailure, .invalidSizes, .pass, .pass] ∧
      ∀ run ∈ runs, run.outcome ≠ .nondeterministic ∧ run.outcome ≠ .divergent := by
  have houtcomes : (((mk 0 "k").run Simulator.device ⟨0, ""⟩ calmInstance).on
      calmBench).1.toOption.map (·.map (·.outcome)) =
        some [.pass, .runtimeFailure, .invalidSizes, .pass, .pass] := by
    decide +kernel
  obtain ⟨runs, hruns, houtcomes⟩ := Option.map_eq_some_iff.1 houtcomes
  have hrun := Session.on_eq_of_toOption hruns
  have hfaithful : Faithful Simulator.device 0 (Simulator.view calmScript 0) 3
      calmScript.effect := Simulator.faithful 0 (by decide)
  have hblind : calmScript.effect.LocalBlind := Simulator.KernelScript.localBlind (by decide)
  exact ⟨runs, _, hrun, houtcomes, run_agrees hfaithful hblind rfl hrun⟩

end KernelHandle

end KernelDiff

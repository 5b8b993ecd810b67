import KernelDiff.Proofs.Matrix.Classification
import KernelDiff.Proofs.Matrix.Reports

namespace KernelDiff

/-!
# Numbers of work items do not touch each other

A configuration is compared with configurations of its own number of work items only, and sizes that
cannot be launched leave nothing behind. So where it can be foretold which launches a device
refuses, a matrix can be thinned out: all configurations of some numbers of work items may go, and
any configurations that cannot be launched. What is left has the runs that it had before, except
that a device that refuses a launch is free to report something else of it.

* `keptAt` — the entries of a list in the places that are kept;
* `GroupLimits.KeepsClasses` — what may be dropped;
* `Forecast.runs_keptAt` — the runs of what is left;
* `KernelHandle.run_keptAt` — they are the runs that it had in the full matrix, up to reports;
* `KernelHandle.reports_not_kept` — the reports are not always.
-/

/-- The entries in the places that are kept. -/
def keptAt {α : Type} (keep : Nat → Bool) (l : List α) : List α :=
  (l.zipIdx.filter fun p => keep p.2).map Prod.fst

theorem keptAt_map {α β : Type} (keep : Nat → Bool) (f : α → β) (l : List α) :
    keptAt keep (l.map f) = (keptAt keep l).map f := by
  unfold keptAt
  rw [List.zipIdx_map, List.filter_map, List.map_map, List.map_map]
  rfl

theorem exists_of_mem_keptAt {α : Type} {keep : Nat → Bool} {l : List α} {a : α}
    (h : a ∈ keptAt keep l) : ∃ n, l[n]? = some a ∧ keep n := by
  obtain ⟨⟨a, n⟩, hmem, rfl⟩ := List.mem_map.1 h
  obtain ⟨hmem, hkeep⟩ := List.mem_filter.1 hmem
  exact ⟨n, List.mem_zipIdx_iff_getElem?.1 hmem, hkeep⟩

theorem forall₂_keptAt {α β : Type} {R : α → β → Prop} (keep : Nat → Bool) {l : List α}
    {l' : List β} (h : List.Forall₂ R l l') :
    List.Forall₂ R (keptAt keep l) (keptAt keep l') := by
  unfold keptAt
  generalize 0 = start
  induction h generalizing start with
  | nil => exact .nil
  | cons head tail ih =>
    rw [List.zipIdx_cons, List.zipIdx_cons, List.filter_cons, List.filter_cons]
    cases keep start with
    | true => exact .cons head (ih (start + 1))
    | false => exact ih (start + 1)

/-- Nothing is lost with entries that there is nothing to find in. -/
theorem findSome?_keptAt {α β : Type} {keep : Nat → Bool} {f : α → Option β} {l : List α}
    (h : ∀ n a, l[n]? = some a → keep n = false → f a = none) :
    (keptAt keep l).findSome? f = l.findSome? f := by
  have hzip : ∀ p ∈ l.zipIdx, keep p.2 = false → f p.1 = none := by
    rintro ⟨a, n⟩ hmem
    exact h n a (List.mem_zipIdx_iff_getElem?.1 hmem)
  conv_rhs => rw [← List.zipIdx_map_fst 0 l]
  unfold keptAt
  rw [List.findSome?_map, List.findSome?_map]
  generalize l.zipIdx = pairs at hzip ⊢
  induction pairs with
  | nil => rfl
  | cons p pairs ih =>
    have hrest := ih fun q hq => hzip q (by simp [hq])
    rw [List.filter_cons]
    cases hkeep : keep p.2 with
    | true => rw [if_pos rfl, List.findSome?_cons, List.findSome?_cons, hrest]
    | false =>
      have hnone : (f ∘ Prod.fst) p = none := hzip p (by simp) hkeep
      rw [if_neg (by simp), List.findSome?_cons, hnone, hrest]

/-- An entry is dropped because its sizes cannot be launched, or with all other entries of its
    number of work items. -/
def GroupLimits.KeepsClasses (limits : GroupLimits) (keep : Nat → Bool) (m : List LaunchSizes) :
    Prop :=
  ∀ n (hn : n < m.length), keep n = false →
    limits.problem? m[n] ≠ none ∨
      ∀ j (hj : j < m.length), m[j].globalSize = m[n].globalSize → keep j = false

instance (limits : GroupLimits) (keep : Nat → Bool) (m : List LaunchSizes) :
    Decidable (limits.KeepsClasses keep m) :=
  inferInstanceAs (Decidable (∀ n, ∀ hn : n < m.length, keep n = false →
    limits.problem? m[n] ≠ none ∨
      ∀ j, ∀ hj : j < m.length, m[j].globalSize = m[n].globalSize → keep j = false))

namespace Forecast

variable {f : Forecast} {keep : Nat → Bool} {m : List LaunchSizes}

/-- A number of work items that is kept keeps its reference: what is dropped of it has nothing to
    offer. -/
theorem reference_keptAt (h : f.limits.KeepsClasses keep m) {n : Nat} (hn : n < m.length)
    (hkeep : keep n) :
    f.reference (keptAt keep m) m[n].globalSize = f.reference m m[n].globalSize := by
  refine findSome?_keptAt fun j sizes hj hdropped => ?_
  obtain ⟨hlt, rfl⟩ := List.getElem?_eq_some_iff.1 hj
  split
  · next hg =>
    rcases h j hlt hdropped with hproblem | hclass
    -- Sizes that cannot be launched offer nothing, and others would have taken `m[n]` with them.
    · obtain ⟨p, hp⟩ := Option.ne_none_iff_exists'.1 hproblem
      rw [offer, hp]
    · have := hclass n hn hg.symm
      simp [hkeep] at this
  · rfl

/-- The runs of what is left are those that it had before. -/
theorem runs_keptAt (h : f.limits.KeepsClasses keep m) :
    f.runs (keptAt keep m) = keptAt keep (f.runs m) := by
  unfold runs
  rw [keptAt_map]
  refine List.map_congr_left fun sizes hsizes => ?_
  obtain ⟨n, hn, hkeep⟩ := exists_of_mem_keptAt hsizes
  obtain ⟨hlt, rfl⟩ := List.getElem?_eq_some_iff.1 hn
  rw [reference_keptAt h hlt hkeep]

end Forecast

/-- What is left of a matrix has the runs of a behaviour that it had before. -/
theorem Behaviour.runs_keptAt {k : Behaviour} {i : Instance} {keep : Nat → Bool}
    (h : k.limits.KeepsClasses keep i.matrix) :
    k.runs { i with matrix := keptAt keep i.matrix } = keptAt keep (k.runs i) := by
  have hi : k.runs i = k.runs { i with matrix := i.matrix } := rfl
  rcases k.runs_cases i with ⟨e, hskipped⟩ | ⟨s, source, hdriven⟩
  · rw [hi, hskipped i.matrix i.checkSensitivity, hskipped _ i.checkSensitivity, keptAt_map]
  · rw [hi, hdriven i.matrix i.checkSensitivity, hdriven _ i.checkSensitivity]
    exact Forecast.runs_keptAt h

namespace KernelHandle

variable {σ : Type} {d : Device σ} {kh : KernelHandle} {env : Environment} {v : View σ}
variable {k : Behaviour} {i : Instance}

/-- **Numbers of work items do not touch each other.** Where it can be foretold which launches the
    device refuses, some numbers of work items, and any sizes that cannot be launched, may be
    dropped from a matrix: the runs of what is left are those that it has in the full matrix, up to
    reports of the device. Where these can be foretold too, they are the same. -/
theorem run_keptAt (hd : Predictable d.quiet env.device kh.kernel v k) {keep : Nat → Bool}
    (hkeep : k.limits.KeepsClasses keep i.matrix) {b c : Bench σ} (hb : v.Valid b.device)
    (hc : v.Valid c.device) :
    ∃ runs runs' b' c', (kh.run d env i).on b = (.ok runs, b') ∧
      (kh.run d env { i with matrix := keptAt keep i.matrix }).on c = (.ok runs', c') ∧
      List.Forall₂ KernelRun.SameButReport runs' (keptAt keep runs) ∧
      ∀ refusal, Predictable d env.device kh.kernel v { k with refusal } →
        runs' = keptAt keep runs := by
  obtain ⟨runs, b', hrun, hsame⟩ := run_sameButReport_forecast hd i hb
  obtain ⟨runs', c', hrun', hsame'⟩ :=
    run_sameButReport_forecast hd { i with matrix := keptAt keep i.matrix } hc
  rw [Behaviour.runs_keptAt hkeep] at hsame'
  refine ⟨runs, runs', b', c', hrun, hrun',
    KernelRun.forall₂_sameButReport hsame' (forall₂_keptAt keep hsame), fun refusal hd => ?_⟩
  -- The forecasts are now made for the device itself, and not for the quiet one.
  rw [runs_eq_forecast hd hb hrun, runs_eq_forecast hd hc hrun']
  exact Behaviour.runs_keptAt (k := { k with refusal }) hkeep

/-- A kernel that looks at the size of its groups, and refuses groups of one. -/
def pickyScript : Simulator.KernelScript :=
  scriptedKernel [⟨"uchar*", .global, false, none⟩]
    [{ plainStep .fail { localSize := some 1 } with code := -5 }, plainStep .addLocalSize {}]

def pickyInstance : Instance where
  source := ""
  matrix := [⟨4, 2⟩, ⟨8, 2⟩, ⟨4, 3⟩, ⟨8, 4⟩, ⟨4, 1⟩]

/-- Eight work items are dropped, and sizes that do not divide. -/
def fourItems (n : Nat) : Bool := n == 0 || n == 4

set_option maxRecDepth 10000 in
theorem run_keptAt_picky :
    ∃ runs runs' b' c', ((mk 0 "k").run Simulator.calm ⟨0, ""⟩ pickyInstance).on
        (Simulator.soloBench pickyScript) = (.ok runs, b') ∧
      ((mk 0 "k").run Simulator.calm ⟨0, ""⟩ { pickyInstance with matrix := [⟨4, 2⟩, ⟨4, 1⟩] }).on
        (Simulator.soloBench pickyScript) = (.ok runs', c') ∧
      runs.map (·.outcome) = [.pass, .pass, .invalidSizes, .divergent, .runtimeFailure] ∧
      runs' = keptAt fourItems runs ∧ runs'.map (·.outcome) = [.pass, .runtimeFailure] := by
  have hcalm : pickyScript.IsCalm := by decide
  have hpredictable : Predictable Simulator.calm (Environment.device ⟨0, ""⟩) (mk 0 "k").kernel
      _ _ := Simulator.calm_predictable (Simulator.soloSite pickyScript) hcalm 0
  have hvalid := Simulator.valid_soloBench pickyScript
  have hkeep : (pickyScript.behaviour .plain 256).quiet.limits.KeepsClasses fourItems
      pickyInstance.matrix := by decide +kernel
  obtain ⟨runs, runs', b', c', hrun, hkept, -, hsame⟩ :=
    run_keptAt hpredictable.quiet hkeep hvalid hvalid
  have houtcomes : (((mk 0 "k").run Simulator.calm ⟨0, ""⟩ pickyInstance).on
      (Simulator.soloBench pickyScript)).1.toOption.map (·.map (·.outcome)) =
        some [.pass, .pass, .invalidSizes, .divergent, .runtimeFailure] := by decide +kernel
  rw [hrun] at houtcomes
  have houtcomes : runs.map (·.outcome) = _ := Option.some.inj houtcomes
  have hsame := hsame _ hpredictable
  refine ⟨runs, runs', b', c', hrun, hkept, houtcomes, hsame, ?_⟩
  rw [hsame, ← keptAt_map, houtcomes]
  rfl

/-- A kernel that is refused whatever its sizes are. -/
def refusedScript : Simulator.KernelScript :=
  scriptedKernel [⟨"uchar*", .global, false, none⟩] [{ plainStep .fail {} with code := -5 }]

def refusedMatrix : List LaunchSizes := [⟨4, 1⟩, ⟨8, 1⟩]

/-- The runs of that kernel on the simulator that counts launches in its reports. -/
def refusedRuns (m : List LaunchSizes) : Option (List KernelRun) :=
  (((mk 0 "k").run Simulator.chatty ⟨0, ""⟩ { source := "", matrix := m }).on
    (Simulator.soloBench refusedScript)).1.toOption

/-- Reports are not always kept: what is reported of the second of two launches is not reported of
    it where it is the only one. -/
theorem reports_not_kept :
    Predictable Simulator.chatty.quiet 0 0 ((Simulator.soloSite refusedScript).view refusedScript 0)
        (refusedScript.behaviour .plain 256).quiet ∧
      ((Simulator.soloSite refusedScript).view refusedScript 0).Valid
        (Simulator.soloBench refusedScript).device ∧
      (refusedScript.behaviour .plain 256).quiet.limits.KeepsClasses (· == 1) refusedMatrix ∧
      refusedRuns refusedMatrix = some [⟨⟨4, 1⟩, .runtimeFailure, some "OpenCL error: 1"⟩,
        ⟨⟨8, 1⟩, .runtimeFailure, some "OpenCL error: 2"⟩] ∧
      refusedRuns (keptAt (· == 1) refusedMatrix) =
        some [⟨⟨8, 1⟩, .runtimeFailure, some "OpenCL error: 1"⟩] ∧
      refusedRuns (keptAt (· == 1) refusedMatrix) ≠
        (refusedRuns refusedMatrix).map (keptAt (· == 1)) := by
  have hcalm : refusedScript.IsCalm := by decide
  have hfull : refusedRuns refusedMatrix =
      some [⟨⟨4, 1⟩, .runtimeFailure, some "OpenCL error: 1"⟩,
        ⟨⟨8, 1⟩, .runtimeFailure, some "OpenCL error: 2"⟩] := by decide +kernel
  have hkept : refusedRuns (keptAt (· == 1) refusedMatrix) =
      some [⟨⟨8, 1⟩, .runtimeFailure, some "OpenCL error: 1"⟩] := by decide +kernel
  refine ⟨Simulator.predictable_quiet_chatty hcalm, Simulator.valid_soloBench refusedScript,
    by decide +kernel, hfull, hkept, ?_⟩
  rw [hfull, hkept]
  decide

end KernelHandle

end KernelDiff

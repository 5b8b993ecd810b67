import KernelDiff.Profile
import Mathlib.Algebra.GroupWithZero.Nat
import Mathlib.Data.List.DropRight
import Mathlib.Data.List.Sort

namespace KernelDiff.Profile

/-!
# A profile tells what was measured since its last reset

Measurements of all stages come in any order, with resets in between. What a profile says of a stage
are the measurements of this stage behind the last reset, in their order; and because a stage gets
its entry with its first measurement, and in front of the entries of later stages, the stages are
listed in their own order and not in that of their measurements.

* `Step`, `after` — the steps that a profile goes through, and the profile behind them;
* `history` — the measurements of a stage since the last reset;
* `IsOrderly` — what the entries of a profile keep to;
* `samples_apply`, `IsOrderly.apply` — what one step does;
* `samples_after`, `isOrderly_after` — what is left behind any number of steps;
* `stages_eq_filter`, `total_of_lt` — the stages of a profile, and the sum of its times;
* `after_tells_history` — a profile tells what was measured since its last reset.
-/

/-- One step in the use of a profile. -/
inductive Step
  | record (stage : Stage) (e : Elapsed)
  | recordDuration (stage : Stage) (seconds nanoseconds : Nat)
  | reset
  deriving DecidableEq, Repr

namespace Step

/-- The profile behind a step. -/
def apply (p : Profile) : Step → Profile
  | record stage e => p.record stage e
  | recordDuration stage seconds nanoseconds => p.recordDuration stage seconds nanoseconds
  | reset => p.reset

/-- What a step measures of a stage. A duration counts by its nanoseconds, in both fields, but not
    for more than a word of 64 bits can hold. -/
def measured? (stage : Stage) : Step → Option Elapsed
  | record other e => if other = stage then some e else none
  | recordDuration other seconds nanoseconds =>
    let ns := min (seconds * 10 ^ 9 + nanoseconds) (2 ^ 64 - 1)
    if other = stage then some ⟨ns, ns⟩ else none
  | reset => none

end Step

/-- The profile behind steps that start without a measurement. -/
def after (steps : List Step) : Profile :=
  steps.foldl Step.apply empty

/-- The steps behind the last reset, which are all of them if there is none. -/
def sinceReset (steps : List Step) : List Step :=
  steps.rtakeWhile (· ≠ .reset)

/-- The measurements of a stage since the last reset, in their order. -/
def history (steps : List Step) (stage : Stage) : List Elapsed :=
  (sinceReset steps).filterMap (Step.measured? stage)

/-- The entries stand in the order of their stages, one for each stage at most, and there is none
    without a measurement. -/
structure IsOrderly (p : Profile) : Prop where
  increasing : p.entries.Pairwise fun m n => m.1.place < n.1.place
  ne_nil : ∀ m ∈ p.entries, m.2 ≠ []

/-! ### One step -/

variable {p : Profile} {steps : List Step} {stage : Stage}

theorem after_append (steps : List Step) (s : Step) :
    after (steps ++ [s]) = s.apply (after steps) := by
  rw [after, List.foldl_append]
  rfl

/-- A reset leaves no history, and every other step adds what it measures. -/
theorem history_append (steps : List Step) (s : Step) (stage : Stage) :
    history (steps ++ [s]) stage =
      if s = .reset then [] else history steps stage ++ (s.measured? stage).toList := by
  rw [history, sinceReset, List.rtakeWhile_concat]
  by_cases hs : s = .reset
  · simp [hs]
  · rw [if_neg hs, if_pos (by simpa using hs), List.filterMap_append]
    cases hmeasured : s.measured? stage <;> simp [history, sinceReset, hmeasured]

theorem samples_record (p : Profile) (stage other : Stage) (e : Elapsed) :
    (p.record other e).samples stage =
      p.samples stage ++ (if other = stage then some e else none).toList := by
  by_cases h : other = stage
  · subst h
    simp
  · rw [samples_record_of_ne p e (Ne.symm h), if_neg h, Option.toList_none, List.append_nil]

/-- **What one step does to the measurements of a stage.** -/
theorem samples_apply (p : Profile) (s : Step) (stage : Stage) :
    (s.apply p).samples stage =
      if s = .reset then [] else p.samples stage ++ (s.measured? stage).toList := by
  cases s with
  | record other e => exact samples_record p stage other e
  | recordDuration other seconds nanoseconds => exact samples_record p stage other _
  | reset => rfl

theorem place_inj {s t : Stage} (h : s.place = t.place) : s = t := by
  cases s <;> cases t <;> simp_all [Stage.place]

theorem mem_insertEntry {m : Stage × List Elapsed} {entries : List (Stage × List Elapsed)}
    (h : m ∈ insertEntry stage entries) : m = (stage, []) ∨ m ∈ entries := by
  induction entries with
  | nil => exact .inl (List.mem_singleton.1 h)
  | cons n ns ih =>
    unfold insertEntry at h
    split at h
    · exact List.mem_cons.1 h
    · rcases List.mem_cons.1 h with rfl | hrest
      · exact .inr (by simp)
      · exact (ih hrest).imp_right (List.mem_cons_of_mem n)

/-- A new entry finds the one place that keeps the order. -/
theorem increasing_insertEntry {entries : List (Stage × List Elapsed)}
    (hincreasing : entries.Pairwise fun m n => m.1.place < n.1.place)
    (hnew : ∀ m ∈ entries, m.1 ≠ stage) :
    (insertEntry stage entries).Pairwise fun m n => m.1.place < n.1.place := by
  induction entries with
  | nil => exact List.pairwise_singleton _ _
  | cons n ns ih =>
    obtain ⟨hfirst, hrest⟩ := List.pairwise_cons.1 hincreasing
    unfold insertEntry
    split
    · next hlt =>
      refine List.pairwise_cons.2 ⟨?_, hincreasing⟩
      intro m hm
      rcases List.mem_cons.1 hm with rfl | hm
      · exact hlt
      · exact hlt.trans (hfirst m hm)
    · next hle =>
      refine List.pairwise_cons.2 ⟨?_, ih hrest fun m hm => hnew m (List.mem_cons_of_mem n hm)⟩
      intro m hm
      rcases mem_insertEntry hm with rfl | hm
      · have hne : n.1.place ≠ stage.place := fun h => hnew n (by simp) (place_inj h)
        show n.1.place < stage.place
        omega
      · exact hfirst m hm

theorem increasing_withEntry (h : p.IsOrderly) (stage : Stage) :
    (p.withEntry stage).entries.Pairwise fun m n => m.1.place < n.1.place := by
  unfold withEntry
  split
  · exact h.increasing
  · next hnone =>
    rw [Option.not_isSome_iff_eq_none, List.lookup_eq_none_iff] at hnone
    apply increasing_insertEntry h.increasing
    rintro m hm rfl
    simpa using hnone m hm

/-- Only the new entry has no measurement, and it is about to get one. -/
theorem mem_withEntry {m : Stage × List Elapsed} (hm : m ∈ (p.withEntry stage).entries) :
    m = (stage, []) ∨ m ∈ p.entries := by
  unfold withEntry at hm
  split at hm
  · exact .inr hm
  · exact mem_insertEntry hm

theorem IsOrderly.record (h : p.IsOrderly) (stage : Stage) (e : Elapsed) :
    (p.record stage e).IsOrderly := by
  constructor
  · -- A measurement is put into an entry that is there, so no stage changes its place.
    have hplace (m : Stage × List Elapsed) :
        (if m.1 = stage then (m.1, m.2 ++ [e]) else m).1.place = m.1.place := by
      split <;> rfl
    rw [Profile.record, push, List.pairwise_map]
    simpa only [hplace] using increasing_withEntry h stage
  · intro m hm
    obtain ⟨n, hn, rfl⟩ := List.mem_map.1 hm
    split
    · exact List.append_ne_nil_of_right_ne_nil _ (List.cons_ne_nil _ _)
    · next hne =>
      rcases mem_withEntry hn with rfl | hn
      · exact absurd rfl hne
      · exact h.ne_nil n hn

theorem isOrderly_empty : empty.IsOrderly :=
  ⟨List.Pairwise.nil, fun _ hm => nomatch hm⟩

/-- **One step leaves the entries in order.** -/
theorem IsOrderly.apply (h : p.IsOrderly) (s : Step) : (s.apply p).IsOrderly := by
  cases s with
  | record stage e => exact h.record stage e
  | recordDuration stage seconds nanoseconds => exact h.record stage _
  | reset => exact isOrderly_empty

/-! ### Any number of steps -/

/-- **The measurements of a stage are its history.** -/
theorem samples_after (steps : List Step) (stage : Stage) :
    (after steps).samples stage = history steps stage := by
  induction steps using List.reverseRecOn with
  | nil => rfl
  | append_singleton steps s ih => rw [after_append, samples_apply, history_append, ih]

theorem isOrderly_after (steps : List Step) : (after steps).IsOrderly := by
  induction steps using List.reverseRecOn with
  | nil => exact isOrderly_empty
  | append_singleton steps s ih =>
    rw [after_append]
    exact ih.apply s

/-! ### What an orderly profile shows -/

/-- A stage has an entry if it has a measurement. -/
theorem IsOrderly.mem_stages_iff (h : p.IsOrderly) : stage ∈ p.stages ↔ p.samples stage ≠ [] := by
  unfold stages samples
  constructor
  · intro hmem
    obtain ⟨m, hm, rfl⟩ := List.mem_map.1 hmem
    have hfound : (p.entries.lookup m.1).isSome := List.lookup_isSome_iff.2 ⟨m, hm, by simp⟩
    obtain ⟨times, htimes⟩ := Option.isSome_iff_exists.1 hfound
    obtain ⟨before, behind, hentries, -⟩ := List.lookup_eq_some_iff.1 htimes
    rw [htimes]
    exact h.ne_nil (m.1, times) (by simp [hentries])
  · intro hne
    cases hlookup : p.entries.lookup stage with
    | none => simp [hlookup] at hne
    | some times =>
      obtain ⟨before, behind, hentries, -⟩ := List.lookup_eq_some_iff.1 hlookup
      exact List.mem_map.2 ⟨(stage, times), by simp [hentries], rfl⟩

/-- The first stage stands in front of the second one. -/
def Earlier (s t : Stage) : Prop :=
  s.place < t.place

instance (s t : Stage) : Decidable (Earlier s t) :=
  inferInstanceAs (Decidable (_ < _))

instance : Std.Irrefl Earlier :=
  ⟨fun s => Nat.lt_irrefl s.place⟩

instance : Std.Antisymm Earlier :=
  ⟨fun _ _ hst hts => absurd hst (Nat.lt_asymm hts)⟩

/-- The stages of a profile are those with a measurement, in their order. -/
theorem IsOrderly.stages_eq_filter (h : p.IsOrderly) :
    p.stages = Stage.all.filter fun stage => p.samples stage ≠ [] := by
  -- Both lists are ordered, so it is enough that they have the same stages.
  have hstages : p.stages.Pairwise Earlier := List.pairwise_map.2 h.increasing
  have hall : Stage.all.Pairwise Earlier := by decide
  apply hstages.eq_of_mem_iff (hall.filter _)
  intro stage
  have hmem : stage ∈ Stage.all := by cases stage <;> decide
  simp [h.mem_stages_iff, hmem]

theorem isEmpty_iff_stages : p.isEmpty ↔ p.stages = [] := by
  simp [isEmpty, stages]

/-- As long as the sum fits into a word, nothing of it is lost on the way. -/
theorem foldl_total (times : List Elapsed) (sum : Nat)
    (h : sum + (times.map (·.startToEnd)).sum < 2 ^ 64) :
    times.foldl (fun sum e => (sum + e.startToEnd) % UInt64.size) sum =
      sum + (times.map (·.startToEnd)).sum := by
  induction times generalizing sum with
  | nil => rfl
  | cons e times ih =>
    rw [List.map_cons, List.sum_cons, ← Nat.add_assoc] at h ⊢
    have hword : (sum + e.startToEnd) % UInt64.size = sum + e.startToEnd := by
      apply Nat.mod_eq_of_lt
      show sum + e.startToEnd < 2 ^ 64
      omega
    rw [List.foldl_cons, hword, ih _ h]

theorem total_of_lt (h : ((p.samples stage).map (·.startToEnd)).sum < 2 ^ 64) :
    p.total stage = ((p.samples stage).map (·.startToEnd)).sum := by
  rw [total, foldl_total _ 0 (by rwa [Nat.zero_add]), Nat.zero_add]

/-- **A profile tells what was measured since its last reset.** The measurements of a stage are its
    history, in order. The stages with a measurement are listed once each, in the order of the
    stages; there is none exactly if the profile is empty; and the sum of the times of a stage is
    exact as long as it fits into a word of 64 bits. -/
theorem after_tells_history (steps : List Step) :
    (∀ stage, (after steps).samples stage = history steps stage) ∧
    ((after steps).stages =
        [.transferIn, .transferOut, .compile, .execution].filter fun stage =>
          history steps stage ≠ []) ∧
    (after steps).stages.Nodup ∧
    ((after steps).isEmpty ↔ ∀ stage, history steps stage = []) ∧
    ∀ stage, ((history steps stage).map (·.startToEnd)).sum < 2 ^ 64 →
      (after steps).total stage = ((history steps stage).map (·.startToEnd)).sum := by
  have horderly := isOrderly_after steps
  have hstages : (after steps).stages =
      Stage.all.filter fun stage => history steps stage ≠ [] := by
    simpa only [samples_after] using horderly.stages_eq_filter
  refine ⟨samples_after steps, hstages, ?_, ?_, ?_⟩
  · rw [hstages]
    exact List.Nodup.filter _ (by decide)
  · rw [isEmpty_iff_stages, hstages, List.filter_eq_nil_iff]
    constructor
    · intro h stage
      simpa using h stage (by cases stage <;> decide)
    · intro h stage _
      simp [h stage]
  · intro stage hsum
    rw [← samples_after] at hsum ⊢
    exact total_of_lt hsum

/-- Measurements of two stages around a reset, the last one of a duration that no word can hold. -/
def mixedSteps : List Step :=
  [.record .execution ⟨9, 7⟩, .reset, .record .execution ⟨20, 15⟩, .record .transferIn ⟨4, 3⟩,
    .recordDuration .execution 0 5, .recordDuration .compile (2 ^ 64) 0]

/-- What was measured before the reset is forgotten, and the stages come in their order. -/
theorem after_tells_history_mixed :
    (after mixedSteps).stages = [.transferIn, .compile, .execution] ∧
      (after mixedSteps).samples .compile = [⟨2 ^ 64 - 1, 2 ^ 64 - 1⟩] ∧
      (after mixedSteps).total .execution = 20 := by
  have hlaw := after_tells_history mixedSteps
  have htotal := hlaw.2.2.2.2 .execution (by decide)
  exact ⟨hlaw.2.1.trans (by decide), (hlaw.1 .compile).trans (by decide),
    htotal.trans (by decide)⟩

end KernelDiff.Profile

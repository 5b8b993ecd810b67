import KernelDiff.Proofs.Device.Quiet
import KernelDiff.Proofs.Matrix.Forecast
import KernelDiff.Proofs.Simulator.Predictable

namespace KernelDiff

/-!
# Runs up to the reports of the device

What the device reports of a launch that it refuses becomes the message of a run. Where it can be
foretold which launches are refused, but not what is reported of them, all of the runs but these
messages can be foretold: the forecast is made for the quiet device, which is in step with the
device itself.

* `KernelRun.SameButReport` — runs that differ in reports only;
* `KernelHandle.run_sameButReport_forecast` — the runs of a kernel up to reports;
* `KernelHandle.runs_eq_forecast` — and with them, where they can be foretold too;
* `Simulator.chatty` — the simulator, reporting how many launches there have been.
-/

namespace KernelRun

/-- The message is a report of the device. -/
def HasReport (r : KernelRun) : Prop :=
  ∃ e : DeviceError, r.message = some (Failure.device e).message

/-- The runs differ at most in what the device reports of its failure. -/
structure SameButReport (r r' : KernelRun) : Prop where
  sizes : r.sizes = r'.sizes
  outcome : r.outcome = r'.outcome
  message : r.message = r'.message ∨ r.outcome = .runtimeFailure ∧ r.HasReport ∧ r'.HasReport

variable {r r' r'' : KernelRun}

theorem HasReport.of_message_eq (h : r.HasReport) (hmessage : r.message = r'.message) :
    r'.HasReport := by
  obtain ⟨e, he⟩ := h
  exact ⟨e, hmessage.symm.trans he⟩

theorem SameButReport.refl (r : KernelRun) : r.SameButReport r :=
  ⟨rfl, rfl, .inl rfl⟩

theorem SameButReport.symm (h : r.SameButReport r') : r'.SameButReport r where
  sizes := h.sizes.symm
  outcome := h.outcome.symm
  message := by
    rcases h.message with heq | ⟨houtcome, hreport, hreport'⟩
    · exact .inl heq.symm
    · exact .inr ⟨h.outcome ▸ houtcome, hreport', hreport⟩

theorem SameButReport.trans (h : r.SameButReport r') (h' : r'.SameButReport r'') :
    r.SameButReport r'' where
  sizes := h.sizes.trans h'.sizes
  outcome := h.outcome.trans h'.outcome
  message := by
    rcases h.message with heq | ⟨houtcome, hreport, hreport'⟩
    · rcases h'.message with heq' | ⟨houtcome, hreport', hreport''⟩
      · exact .inl (heq.trans heq')
      · exact .inr ⟨h.outcome.trans houtcome, hreport'.of_message_eq heq.symm, hreport''⟩
    -- A message that equals a report is one.
    · rcases h'.message with heq' | ⟨-, -, hreport''⟩
      · exact .inr ⟨houtcome, hreport, hreport'.of_message_eq heq'⟩
      · exact .inr ⟨houtcome, hreport, hreport''⟩

/-- Lists that are alike in one way, and then in another, are alike in what follows from both. -/
theorem forall₂_comp {α β γ : Type} {R : α → β → Prop} {S : β → γ → Prop} {T : α → γ → Prop}
    (hRS : ∀ {a b c}, R a b → S b c → T a c) {l : List α} {m : List β} {n : List γ}
    (hlm : List.Forall₂ R l m) (hmn : List.Forall₂ S m n) : List.Forall₂ T l n := by
  induction hlm generalizing n with
  | nil =>
    cases hmn
    exact .nil
  | cons head tail ih =>
    cases hmn with
    | cons head' tail' => exact .cons (hRS head head') (ih tail')

/-- Runs that are foretold by the same runs differ in reports only. -/
theorem forall₂_sameButReport {runs runs' forecast : List KernelRun}
    (h : List.Forall₂ SameButReport runs forecast)
    (h' : List.Forall₂ SameButReport runs' forecast) : List.Forall₂ SameButReport runs runs' :=
  forall₂_comp .trans h (List.Forall₂.flip (h'.imp fun _ _ hsame => hsame.symm))

/-- Runs on devices in step differ in reports only. -/
theorem Alike.sameButReport {D : DeviceError → DeviceError → Prop} (h : r.Alike D r') :
    r.SameButReport r' := by
  cases h with
  | same => exact .refl r
  | failed sizes alike => exact ⟨rfl, rfl, .inr ⟨rfl, ⟨_, rfl⟩, ⟨_, rfl⟩⟩⟩

end KernelRun

namespace KernelHandle

variable {σ : Type} {d : Device σ} {kh : KernelHandle} {env : Environment} {v : View σ}
variable {k : Behaviour}

/-- **All runs of a kernel are foretold up to reports**, where it can be foretold which launches the
    device refuses. -/
theorem run_sameButReport_forecast (hd : Predictable d.quiet env.device kh.kernel v k)
    (i : Instance) {b : Bench σ} (hb : v.Valid b.device) :
    ∃ runs b', (kh.run d env i).on b = (.ok runs, b') ∧
      List.Forall₂ KernelRun.SameButReport runs (k.runs i) := by
  -- The forecast is exact for the quiet device, and the device is in step with that one.
  obtain ⟨b₁, hquiet, -⟩ := run_eq_forecast hd i hb
  obtain ⟨halike, -⟩ := kh.alike_run d.inStep_quiet env i (b := b) (c := b) ⟨rfl, rfl⟩
  rw [hquiet] at halike
  rcases hrun : (kh.run d env i).on b with ⟨⟨e⟩ | ⟨runs⟩, b'⟩
  · rw [hrun] at halike
    cases halike
  · rw [hrun] at halike
    cases halike with
    | ok alike => exact ⟨runs, b', rfl, alike.imp fun _ _ h => h.sameButReport⟩

/-- Where the reports can be foretold too, there is nothing else that the runs could be. -/
theorem runs_eq_forecast (hd : Predictable d env.device kh.kernel v k) {i : Instance}
    {b b' : Bench σ} {runs : List KernelRun} (hb : v.Valid b.device)
    (hrun : (kh.run d env i).on b = (.ok runs, b')) : runs = k.runs i := by
  obtain ⟨b₁, hforecast, -⟩ := run_eq_forecast hd i hb
  exact Except.ok.inj (congrArg Prod.fst (hrun.symm.trans hforecast))

end KernelHandle

/-! ### Reports that cannot be foretold -/

namespace Simulator

/-- The simulator where no calls are made to fail, reporting of a launch that it refuses how many
    there have been. -/
def chatty : Device State where
  answer
    | .launch kernel globalSize localSize, s =>
      match calm.answer (.launch kernel globalSize localSize) s with
      | (.ok event, s) => (.ok event, s)
      | (.error _, s) =>
        (.error ⟨toString ((s.kernels[kernel]?.map (·.launches)).getD 0), none⟩, s)
    | c, s => calm.answer c s

/-- It cannot be told from the simulator when it is quiet. -/
theorem quiet_chatty : chatty.quiet = calm.quiet := by
  unfold Device.quiet
  congr 1
  funext c s
  cases c with
  | launch kernel globalSize localSize =>
    simp only [chatty]
    rcases calm.answer (.launch kernel globalSize localSize) s with ⟨⟨e⟩ | ⟨event⟩, s'⟩ <;> rfl
  | _ => rfl

/-- Which launches of a calm kernel it refuses can be foretold. -/
theorem predictable_quiet_chatty {script : KernelScript} (h : script.IsCalm) :
    Predictable chatty.quiet 0 0 ((soloSite script).view script 0)
      (script.behaviour .plain 256).quiet := by
  rw [quiet_chatty]
  exact (calm_predictable (soloSite script) h 0).quiet

end Simulator

end KernelDiff

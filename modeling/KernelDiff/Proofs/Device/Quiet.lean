import KernelDiff.Proofs.Device.Predictable
import KernelDiff.Proofs.Device.Simulation

namespace KernelDiff

/-!
# Quiet devices

What a device reports of a launch that it refuses goes into a message and decides nothing. A quiet
device says nothing of it, and is in step with the device that does. So to ask that the quiet
device is predictable is to ask for less: whether a launch succeeds has to be predictable, and not
what is said where it does not.

* `Device.quiet`, `Device.inStep_quiet` — the device without reports on launches;
* `Predictable.quiet` — it is predictable where the device is.
-/

variable {σ : Type}

/-- The device, if it said nothing of why a launch is refused. -/
def Device.quiet (d : Device σ) : Device σ where
  answer
    | .launch kernel globalSize localSize, s =>
      match d.answer (.launch kernel globalSize localSize) s with
      | (.ok event, s) => (.ok event, s)
      | (.error _, s) => (.error ⟨"", none⟩, s)
    | c, s => d.answer c s

/-- The behaviour of a kernel on the quiet device. -/
def Behaviour.quiet (k : Behaviour) : Behaviour :=
  { k with
    refusal := fun scratch contents globalSize localSize =>
      (k.refusal scratch contents globalSize localSize).map fun _ => ⟨"", none⟩ }

namespace Device

variable (d : Device σ)

theorem answer_quiet_launch (kernel globalSize localSize : Nat) (s : σ) :
    d.quiet.answer (.launch kernel globalSize localSize) s =
      match d.answer (.launch kernel globalSize localSize) s with
      | (.ok event, s) => (.ok event, s)
      | (.error _, s) => (.error ⟨"", none⟩, s) := rfl

/-- The state afterwards is the same, and so is every answer that is not a report. -/
theorem quiet_cases (c : Call) (s : σ) :
    d.quiet.answer c s = d.answer c s ∨
      ∃ e s', d.answer c s = (.error e, s') ∧ d.quiet.answer c s = (.error ⟨"", none⟩, s') := by
  cases c with
  | launch kernel globalSize localSize =>
    rw [answer_quiet_launch]
    rcases d.answer (.launch kernel globalSize localSize) s with ⟨⟨e⟩ | ⟨event⟩, s'⟩
    · exact .inr ⟨e, s', rfl, rfl⟩
    · exact .inl rfl
  | _ => exact .inl rfl

theorem quiet_eq_ok {c : Call} {s s' : σ} {a : c.Answer} :
    d.quiet.answer c s = (.ok a, s') ↔ d.answer c s = (.ok a, s') := by
  rcases d.quiet_cases c s with h | ⟨e, s'', h, hquiet⟩
  · rw [h]
  · rw [h, hquiet]
    simp

/-- Nothing but the reports on launches changes. -/
theorem inStep_quiet : d.InStep Eq (fun _ _ => True) d.quiet := by
  rintro c s _ rfl
  rcases d.quiet_cases c s with h | ⟨e, s', h, hquiet⟩
  · rw [h]
    refine ⟨?_, rfl⟩
    cases (d.answer c s).1 with
    | error e => exact .error trivial
    | ok a => exact .ok rfl
  · rw [h, hquiet]
    exact ⟨.error trivial, rfl⟩

end Device

namespace Faithful

variable {d : Device σ} {kernel arity : Nat} {v : View σ} {effect : Effect}

/-- The laws of a faithful device are about calls that succeed. -/
theorem quiet (hd : Faithful d kernel v arity effect) :
    Faithful d.quiet kernel v arity effect where
  valid c s hs := by
    have hvalid := hd.valid c s hs
    rcases d.quiet_cases c s with h | ⟨e, s', h, hquiet⟩
    · rwa [h]
    · rw [hquiet]
      rwa [h] at hvalid
  parameterCount hs h := hd.parameterCount hs (d.quiet_eq_ok.1 h)
  createBuffer hs h := hd.createBuffer hs (d.quiet_eq_ok.1 h)
  write hs hcell hlength h := hd.write hs hcell hlength (d.quiet_eq_ok.1 h)
  read hs hcell hlength h := hd.read hs hcell hlength (d.quiet_eq_ok.1 h)
  bind hs h := hd.bind hs (d.quiet_eq_ok.1 h)
  timestamp hs h := hd.timestamp hs (d.quiet_eq_ok.1 h)
  launch hs hlength hcontents hdistinct h :=
    hd.launch hs hlength hcontents hdistinct (d.quiet_eq_ok.1 h)

end Faithful

theorem Device.Tells.quiet {d : Device σ} {s : σ} {c : Call} {a : c.Answer} (h : d.Tells s c a) :
    d.quiet.Tells s c a := by
  obtain ⟨s', h⟩ := h
  exact ⟨s', d.quiet_eq_ok.2 h⟩

theorem Device.Measures.quiet {d : Device σ} {s : σ} {event : Nat} (h : d.Measures s event) :
    d.quiet.Measures s event := h

/-- **A predictable device is predictable also when it is quiet.** -/
theorem Predictable.quiet {d : Device σ} {device kernel : Nat} {v : View σ} {k : Behaviour}
    (hd : Predictable d device kernel v k) : Predictable d.quiet device kernel v k.quiet where
  toFaithful := hd.toFaithful.quiet
  tells_parameterCount hs := (hd.tells_parameterCount hs).quiet
  tells_parameterType hs hindex := (hd.tells_parameterType hs hindex).quiet
  tells_parameterSpace hs hindex := (hd.tells_parameterSpace hs hindex).quiet
  tells_parameterConst hs hindex := (hd.tells_parameterConst hs hindex).quiet
  tells_kernelGroupSize hs := (hd.tells_kernelGroupSize hs).quiet
  tells_compiledGroupSize hs := (hd.tells_compiledGroupSize hs).quiet
  tells_deviceGroupSize hs := (hd.tells_deviceGroupSize hs).quiet
  createBuffer_succeeds hs := by
    obtain ⟨handle, h⟩ := hd.createBuffer_succeeds hs
    exact ⟨handle, h.quiet⟩
  write_succeeds hs hcell hlength := hd.write_succeeds hs hcell hlength
  read_succeeds hs hcell hlength := hd.read_succeeds hs hcell hlength
  bind_succeeds hs hindex hp htakes := (hd.bind_succeeds hs hindex hp htakes).quiet
  launch_answers := by
    intro s scratch contents globalSize localSize hs hstaged
    unfold Behaviour.quiet
    simp only [Device.answer_quiet_launch]
    cases hrefusal : k.refusal scratch contents globalSize localSize with
    | some e =>
      obtain ⟨s', h⟩ := hd.launch_refused hs hstaged hrefusal
      exact ⟨s', by rw [h]⟩
    | none =>
      obtain ⟨event, s', h, hmeasures⟩ := hd.launch_accepted hs hstaged hrefusal
      exact ⟨event, s', by rw [h], hmeasures⟩

end KernelDiff

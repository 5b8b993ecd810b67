import KernelDiff.Program
import KernelDiff.Proofs.Device.Quiet

namespace KernelDiff

/-!
# Devices that serve programs

The laws of `Predictable` are about one kernel that has been created. A device hosts a program if
all kernels that it creates of it obey these laws, each by the behaviour of its name. It serves a
source if it builds a program that it hosts.

* `Hosts`, `Serves` — the laws;
* `Hosts.quiet`, `Serves.quiet` — a quiet device obeys them where the device does.
-/

variable {σ : Type}

/-- A device on which a program has been built: it names the program's kernels, always the same, and
    every kernel that is created of them can be driven by the behaviour of its name, as often as it
    is created. -/
structure Hosts (d : Device σ) (device program : Nat) (names : String) (k : String → Behaviour)
    (Ready : σ → Prop) : Prop where
  kernelNames_succeeds : ∀ {s}, Ready s →
    ∃ s', d.answer (.kernelNames program) s = (.ok names, s') ∧ Ready s'
  createKernel_succeeds : ∀ {s name}, Ready s → name ∈ splitNames names →
    ∃ kernel s' v, d.answer (.createKernel program name) s = (.ok kernel, s') ∧
      Predictable d device kernel v (k name) ∧ v.Valid s' ∧ ∀ s'', v.Valid s'' → Ready s''

/-- A device that builds the program of a source and hosts it. -/
structure Serves (d : Device σ) (device : Nat) (source options names : String)
    (k : String → Behaviour) (Fresh : σ → Prop) : Prop where
  build_succeeds : ∀ {s}, Fresh s →
    ∃ program s' Ready, d.answer (.build source options) s = (.ok program, s') ∧ Ready s' ∧
      Hosts d device program names k Ready

variable {d : Device σ} {device : Nat} {names : String} {k : String → Behaviour}

theorem Hosts.quiet {program : Nat} {Ready : σ → Prop} (hd : Hosts d device program names k Ready) :
    Hosts d.quiet device program names (fun name => (k name).quiet) Ready where
  kernelNames_succeeds := fun hs => hd.kernelNames_succeeds hs
  createKernel_succeeds := fun hs hname => by
    obtain ⟨kernel, s', v, hanswer, hpredictable, hvalid, hready⟩ :=
      hd.createKernel_succeeds hs hname
    exact ⟨kernel, s', v, hanswer, hpredictable.quiet, hvalid, hready⟩

/-- What a device reports of launches that it refuses does not matter for what it serves. -/
theorem Serves.quiet {source options : String} {Fresh : σ → Prop}
    (hd : Serves d device source options names k Fresh) :
    Serves d.quiet device source options names (fun name => (k name).quiet) Fresh where
  build_succeeds := fun hs => by
    obtain ⟨program, s', Ready, hanswer, hready, hhosts⟩ := hd.build_succeeds hs
    exact ⟨program, s', Ready, hanswer, hready, hhosts.quiet⟩

end KernelDiff

import KernelDiff.LaunchSizes
import Mathlib.Data.Nat.Basic

namespace KernelDiff

/-!
# Sizes that can be launched

The check of launch sizes looks for the first problem. Here it is said what there is to be checked
in all, and that the check finds a problem exactly where one of the rules is broken.

* `LaunchSizes.Fits` — the rules on the size of a work group;
* `GroupLimits.problem?_eq_none_iff` — sizes without a problem keep them, and there is work at all.
-/

/-- The limits on launches that come of three answers of a device: the largest group of the kernel,
    the largest group of the device and the group size that the kernel was compiled for. -/
def GroupLimits.ofAnswers (kernelMax deviceMax : Nat) (compiled : Nat × Nat × Nat) :
    GroupLimits where
  max := min kernelMax deviceMax
  required := if compiled = (0, 0, 0) then none else some compiled

namespace LaunchSizes

/-- The rules on the size of a work group: groups are not empty and make up all of the work, they
    are no larger than the kernel and the device admit, and they are those that the kernel was
    compiled for, if it was. -/
structure Fits (s : LaunchSizes) (kernelMax deviceMax : Nat) (compiled : Nat × Nat × Nat) :
    Prop where
  pos : 0 < s.localSize.toNat
  dvd : s.localSize.toNat ∣ s.globalSize.toNat
  le_kernel : s.localSize.toNat ≤ kernelMax
  le_device : s.localSize.toNat ≤ deviceMax
  compiled_eq : compiled ≠ (0, 0, 0) → compiled = (s.localSize.toNat, 1, 1)

theorem toNat_pos_iff (n : UInt64) : 0 < n.toNat ↔ n ≠ 0 := by
  rw [Nat.pos_iff_ne_zero, ne_eq, ne_eq, ← UInt64.toNat_inj, UInt64.toNat_zero]

theorem mod_eq_zero_iff_dvd (n m : UInt64) : n % m = 0 ↔ m.toNat ∣ n.toNat := by
  rw [← UInt64.toNat_inj, UInt64.toNat_mod, UInt64.toNat_zero, Nat.dvd_iff_mod_eq_zero]

/-- Without limits of a kernel there is no problem where the work splits into groups that are not
    too large. -/
theorem problem?_eq_none_iff (s : LaunchSizes) (max : Nat) :
    s.problem? max = none ↔ 0 < s.globalSize.toNat ∧ 0 < s.localSize.toNat ∧
      s.localSize.toNat ∣ s.globalSize.toNat ∧ s.localSize.toNat ≤ max := by
  unfold problem?
  rw [toNat_pos_iff, toNat_pos_iff, ← mod_eq_zero_iff_dvd, ← Nat.not_lt]
  by_cases hzero : s.globalSize = 0 ∨ s.localSize = 0
  · rw [if_pos hzero]
    rcases hzero with hzero | hzero <;> simp [hzero]
  · rw [if_neg hzero]
    obtain ⟨hglobal, hlocal⟩ := not_or.1 hzero
    by_cases hmod : s.globalSize % s.localSize = 0
    · by_cases hmax : max < s.localSize.toNat <;> simp [hglobal, hlocal, hmod, hmax]
    · simp [hglobal, hlocal, hmod]

end LaunchSizes

/-- **The check of launch sizes is complete.** It finds no problem exactly where there is work to
    do and the groups keep all the rules. -/
theorem GroupLimits.problem?_eq_none_iff (s : LaunchSizes) (kernelMax deviceMax : Nat)
    (compiled : Nat × Nat × Nat) :
    (ofAnswers kernelMax deviceMax compiled).problem? s = none ↔
      0 < s.globalSize.toNat ∧ s.Fits kernelMax deviceMax compiled := by
  have hsizes := s.problem?_eq_none_iff (min kernelMax deviceMax)
  unfold problem? ofAnswers
  simp only
  cases hp : s.problem? (min kernelMax deviceMax) with
  | some p =>
    -- A problem of the sizes themselves breaks one of the rules that do not need the compiler.
    simp only [reduceCtorEq, false_iff]
    rintro ⟨hglobal, hfits⟩
    have hnone := hsizes.2 ⟨hglobal, hfits.pos, hfits.dvd, Nat.le_min.2 ⟨hfits.le_kernel,
      hfits.le_device⟩⟩
    rw [hp] at hnone
    cases hnone
  | none =>
    obtain ⟨hglobal, hpos, hdvd, hmax⟩ := hsizes.1 hp
    obtain ⟨hkernel, hdevice⟩ := Nat.le_min.1 hmax
    by_cases hcompiled : compiled = (0, 0, 0)
    · rw [if_pos hcompiled]
      simp only [true_iff]
      exact ⟨hglobal, hpos, hdvd, hkernel, hdevice, fun h => absurd hcompiled h⟩
    · rw [if_neg hcompiled]
      simp only
      by_cases hrequired : compiled = (s.localSize.toNat, 1, 1)
      · rw [if_pos hrequired]
        simp only [true_iff]
        exact ⟨hglobal, hpos, hdvd, hkernel, hdevice, fun _ => hrequired⟩
      · rw [if_neg hrequired]
        simp only [reduceCtorEq, false_iff]
        rintro ⟨-, hfits⟩
        exact hrequired (hfits.compiled_eq hcompiled)

end KernelDiff

import KernelDiff.Device.Selection
import KernelDiff.Proofs.Session
import KernelDiff.Simulator.Machine
import Mathlib.Algebra.GroupWithZero.Nat
import Mathlib.Data.List.Infix

namespace KernelDiff

/-!
# Choosing a device agrees with the list of devices

The devices stand in one order, platform by platform. A selector picks a device by its place in this
order, or the first one that has a name with a given part in it, and the names are shown to a user in
the same order. A selector that picks no device leaves all devices alone.

* `occursIn_iff` — a part of a name;
* `Platforms.At`, `Platforms.getElem?_devices_iff` — the devices in their order;
* `Platforms.Selects`, `Platforms.Rejects` — the device that a selector picks, or why it picks none;
* `Platforms.connect_eq_deviceNotFound_iff` — without a device no context is opened;
* `Platforms.select_agrees` — selecting a device agrees with the list of devices.
-/

theorem occursIn_iff {part s : List Char} : occursIn part s ↔ part <:+: s := by
  induction s with
  | nil => rw [occursIn, List.isEmpty_iff, List.infix_nil]
  | cons c s ih => rw [occursIn, Bool.or_eq_true, List.isPrefixOf_iff_prefix, ih, List.infix_cons_iff]

namespace Platforms

/-- The device with that place in the order of all devices, and its name if there is one. -/
inductive At : Platforms → Nat → Option String → Prop
  | here {platform : List (Option String)} {p : Platforms} {i : Nat} {name : Option String}
      (device : platform[i]? = some name) : At (platform :: p) i name
  | later {platform : List (Option String)} {p : Platforms} {i : Nat} {name : Option String}
      (device : At p i name) : At (platform :: p) (platform.length + i) name

/-- The device that a selector picks. -/
inductive Selects (p : Platforms) : DeviceSelector → Nat → Prop
  | index {i : UInt64} {name : Option String} (device : p.At i.toNat name) :
      Selects p (.index i) i.toNat
  | name {part name : String} {i : Nat} (device : p.At i (some name))
      (isPart : part.toList <:+: name.toList)
      (first : ∀ j < i, ∀ other, p.At j (some other) → ¬part.toList <:+: other.toList) :
      Selects p (.name part) i

/-- Why a selector picks no device. -/
inductive Rejects (p : Platforms) : DeviceSelector → SelectionProblem → Prop
  | noDevices {s : DeviceSelector} (none : ∀ i name, ¬p.At i name) : Rejects p s .noDevices
  | outOfRange {i : UInt64} {j : Nat} {name : Option String} (available : p.At j name)
      (beyond : ∀ name, ¬p.At i.toNat name) :
      Rejects p (.index i) (.outOfRange i.toNat p.names.length)
  | noMatch {part : String} {j : Nat} {name : Option String} (available : p.At j name)
      (none : ∀ i name, p.At i (some name) → ¬part.toList <:+: name.toList) :
      Rejects p (.name part) (.noMatch part)

/-! ### The order of the devices -/

variable {p : Platforms} {i : Nat}

theorem getElem?_devices_iff {name : Option String} :
    p.devices[i]? = some name ↔ p.At i name := by
  induction p generalizing i with
  | nil =>
    constructor
    · intro h
      cases h
    · rintro ⟨⟩
  | cons platform p ih =>
    have hdevices : devices (platform :: p) = platform ++ devices p := rfl
    rw [hdevices, List.getElem?_append]
    constructor
    · intro h
      split at h
      · exact .here h
      · next hle =>
        have hplace : platform.length + (i - platform.length) = i := by omega
        rw [← hplace]
        exact .later (ih.1 h)
    · intro h
      cases h with
      | here device => rw [if_pos (List.getElem?_eq_some_iff.1 device).1, device]
      | later device => rw [if_neg (by omega), Nat.add_sub_cancel_left, ih.2 device]

/-- There is one device at a place. -/
theorem At.unique {name other : Option String} (h : p.At i name) (hother : p.At i other) :
    name = other :=
  Option.some.inj ((getElem?_devices_iff.2 h).symm.trans (getElem?_devices_iff.2 hother))

theorem length_devices (p : Platforms) : p.devices.length = (p.map List.length).sum :=
  List.length_flatten

theorem getElem?_names_iff {shownName : String} :
    p.names[i]? = some shownName ↔ ∃ name, p.At i name ∧ shown name = shownName := by
  simp only [names, List.getElem?_map, Option.map_eq_some_iff, getElem?_devices_iff]

/-! ### What a selector picks -/

theorem isMatch_iff {part : String} {name : Option String} :
    isMatch part name ↔ ∃ n, name = some n ∧ part.toList <:+: n.toList := by
  cases name <;> simp [isMatch, occursIn_iff]

theorem at_iff : (∃ name, p.At i name) ↔ i < p.devices.length := by
  simp only [← getElem?_devices_iff, List.getElem?_eq_some_iff]
  simp

theorem select_index (i : UInt64) (h : p.devices ≠ []) :
    p.select (.index i) =
      if i.toNat < p.devices.length then .ok i.toNat
      else .error (.outOfRange i.toNat p.devices.length) := by
  rw [select, if_neg (by simpa using h)]

theorem select_name (part : String) (h : p.devices ≠ []) :
    p.select (.name part) =
      match p.devices.findIdx? (isMatch part) with
      | some i => .ok i
      | none => .error (.noMatch part) := by
  unfold select
  exact if_neg (by simpa using h)

/-- The first device that a part of a name matches. -/
theorem findIdx?_isMatch_eq_some_iff {part : String} :
    p.devices.findIdx? (isMatch part) = some i ↔ p.Selects (.name part) i := by
  rw [List.findIdx?_eq_some_iff_getElem]
  constructor
  · rintro ⟨hlt, hmatch, hfirst⟩
    obtain ⟨name, hname, hpart⟩ := isMatch_iff.1 hmatch
    refine .name (getElem?_devices_iff.1 (List.getElem?_eq_some_iff.2 ⟨hlt, hname⟩)) hpart ?_
    intro j hj other hother hotherPart
    obtain ⟨hjlt, hdevice⟩ := List.getElem?_eq_some_iff.1 (getElem?_devices_iff.2 hother)
    exact hfirst j hj (isMatch_iff.2 ⟨other, hdevice, hotherPart⟩)
  · intro h
    cases h with
    | @name _ name _ device isPart first =>
      obtain ⟨hlt, hdevice⟩ := List.getElem?_eq_some_iff.1 (getElem?_devices_iff.2 device)
      refine ⟨hlt, isMatch_iff.2 ⟨name, hdevice, isPart⟩, fun j hj hmatch => ?_⟩
      obtain ⟨other, hother, hpart⟩ := isMatch_iff.1 hmatch
      exact first j hj other
        (getElem?_devices_iff.1 (List.getElem?_eq_some_iff.2 ⟨hj.trans hlt, hother⟩)) hpart

theorem findIdx?_isMatch_eq_none_iff {part : String} :
    p.devices.findIdx? (isMatch part) = none ↔
      ∀ i name, p.At i (some name) → ¬part.toList <:+: name.toList := by
  rw [List.findIdx?_eq_none_iff]
  constructor
  · intro h i name hat hpart
    have hmem := List.mem_of_getElem? (getElem?_devices_iff.2 hat)
    have hmatch : isMatch part (some name) := isMatch_iff.2 ⟨name, rfl, hpart⟩
    rw [h _ hmem] at hmatch
    cases hmatch
  · intro h device hmem
    rw [← Bool.not_eq_true]
    intro hmatch
    obtain ⟨name, rfl, hpart⟩ := isMatch_iff.1 hmatch
    obtain ⟨i, hi⟩ := List.mem_iff_getElem?.1 hmem
    exact h i name (getElem?_devices_iff.1 hi) hpart

theorem select_of_empty {s : DeviceSelector} (h : p.devices = []) :
    p.select s = .error .noDevices := by
  simp [select, h]

theorem not_at_of_empty (h : p.devices = []) {name : Option String} : ¬p.At i name := by
  intro hat
  have hdevice := getElem?_devices_iff.2 hat
  rw [h] at hdevice
  cases hdevice

theorem exists_at (h : p.devices ≠ []) : ∃ name, p.At 0 name :=
  at_iff.2 (List.length_pos_iff.2 h)

theorem Selects.exists_at {s : DeviceSelector} (h : p.Selects s i) : ∃ name, p.At i name := by
  cases h with
  | index device => exact ⟨_, device⟩
  | name device isPart first => exact ⟨_, device⟩

/-- **A selector picks the device that it stands for.** -/
theorem select_eq_ok_iff {s : DeviceSelector} : p.select s = .ok i ↔ p.Selects s i := by
  by_cases hempty : p.devices = []
  · rw [select_of_empty hempty]
    constructor
    · intro h
      cases h
    · intro h
      obtain ⟨name, hat⟩ := h.exists_at
      exact absurd hat (not_at_of_empty hempty)
  · cases s with
    | index n =>
      rw [select_index n hempty]
      constructor
      · intro h
        split at h
        · next hlt =>
          cases h
          obtain ⟨name, hat⟩ := at_iff.2 hlt
          exact .index hat
        · cases h
      · intro h
        cases h with
        | index device => rw [if_pos (at_iff.1 ⟨_, device⟩)]
    | name part =>
      rw [select_name part hempty, ← findIdx?_isMatch_eq_some_iff]
      cases p.devices.findIdx? (isMatch part) <;> simp

theorem select_eq_error_iff {s : DeviceSelector} {e : SelectionProblem} :
    p.select s = .error e ↔ p.Rejects s e := by
  have hlength : p.names.length = p.devices.length := List.length_map _
  by_cases hempty : p.devices = []
  · rw [select_of_empty hempty]
    constructor
    · intro h
      cases h
      exact .noDevices fun i name => not_at_of_empty hempty
    · intro h
      cases h with
      | noDevices none => rfl
      | outOfRange available beyond => exact absurd available (not_at_of_empty hempty)
      | noMatch available none => exact absurd available (not_at_of_empty hempty)
  · obtain ⟨first, hfirst⟩ := exists_at hempty
    cases s with
    | index n =>
      rw [select_index n hempty, ← hlength]
      constructor
      · intro h
        split at h
        · cases h
        · next hle =>
          cases h
          refine .outOfRange hfirst fun name hat => ?_
          rw [hlength] at hle
          exact hle (at_iff.1 ⟨name, hat⟩)
      · intro h
        cases h with
        | noDevices none => exact absurd hfirst (none 0 first)
        | outOfRange available beyond =>
          rw [if_neg]
          rw [hlength, ← at_iff]
          exact fun h => h.elim beyond
    | name part =>
      rw [select_name part hempty]
      constructor
      · intro h
        split at h
        · cases h
        · next hnone =>
          cases h
          exact .noMatch hfirst (findIdx?_isMatch_eq_none_iff.1 hnone)
      · intro h
        cases h with
        | noDevices none => exact absurd hfirst (none 0 first)
        | noMatch available none => rw [findIdx?_isMatch_eq_none_iff.2 none]

/-! ### Opening it -/

variable {σ : Type} {d : Device σ} {s : DeviceSelector} {b b' : Bench σ}

theorem connect_of_rejected {e : SelectionProblem} (h : p.Rejects s e) (b : Bench σ) :
    (p.connect d s).on b = (.error (.deviceNotFound e.message), b) := by
  unfold connect
  rw [select_eq_error_iff.2 h]
  rfl

/-- A selected device is opened under the name that it is shown with. -/
theorem connect_of_selected {name : Option String} (h : p.Selects s i) (hname : p.At i name) :
    p.connect d s = (do
      d.call (.createContext i)
      d.call (.createQueue i)
      return ⟨i, shown name⟩) := by
  have hpicked : (Session.ofExcept ((p.select s).mapError fun e => .deviceNotFound e.message) :
      Session σ Nat) = pure i := by
    rw [select_eq_ok_iff.2 h]
    rfl
  have hshown : p.devices[i]?.join = name := by
    rw [getElem?_devices_iff.2 hname]
    rfl
  rw [connect, hpicked, pure_bind, hshown]

/-- **No device, no context.** The failure to find a device comes from the selector alone, and then
    no device has been called. -/
theorem connect_eq_deviceNotFound_iff {detail : String} :
    (p.connect d s).on b = (.error (.deviceNotFound detail), b') ↔
      ∃ e, p.Rejects s e ∧ detail = e.message ∧ b' = b := by
  constructor
  · intro h
    cases hselect : p.select s with
    | error e =>
      rw [connect_of_rejected (select_eq_error_iff.1 hselect)] at h
      cases h
      exact ⟨e, select_eq_error_iff.1 hselect, rfl, rfl⟩
    | ok i =>
      -- A call that fails is reported as a failure of the device.
      have hselects := select_eq_ok_iff.1 hselect
      obtain ⟨name, hname⟩ := hselects.exists_at
      rw [connect_of_selected hselects hname] at h
      rcases Session.on_bind_eq_error.1 h with hcall | ⟨_, b₁, -, h⟩
      · obtain ⟨_, _, -, hreport, -⟩ := d.call_eq_error.1 hcall
        cases hreport
      · rcases Session.on_bind_eq_error.1 h with hcall | ⟨_, b₂, -, h⟩
        · obtain ⟨_, _, -, hreport, -⟩ := d.call_eq_error.1 hcall
          cases hreport
        · cases h
  · rintro ⟨e, hrejects, rfl, rfl⟩
    exact connect_of_rejected hrejects b'

/-- **Selecting a device agrees with the list of devices.** A place picks the device there if there
    is one, and a name the first device that has a name with this part in it. The names are shown in
    the order of the places, and a device without a name is never picked by one. To open a device by
    name is to open the one at the place of the first match, and where a selector picks no device
    this is all that happens. -/
theorem select_agrees (p : Platforms) (s : DeviceSelector) :
    ((∀ i, p.select s = .ok i ↔ p.Selects s i) ∧
      ∀ e, p.select s = .error e ↔ p.Rejects s e) ∧
    (∀ n : UInt64, (∃ i, p.Selects (.index n) i) ↔ n.toNat < (p.map List.length).sum) ∧
    (∀ i shownName, p.names[i]? = some shownName ↔ ∃ name, p.At i name ∧ shown name = shownName) ∧
    (∀ i, p.At i none → ∀ part, ¬p.Selects (.name part) i) ∧
    ∀ {σ : Type} (d : Device σ),
      (∀ i name, p.Selects s i → p.At i name → p.connect d s = (do
        d.call (.createContext i)
        d.call (.createQueue i)
        return ⟨i, shown name⟩)) ∧
      (∀ part (n : UInt64), p.Selects (.name part) n.toNat →
        p.connect d (.name part) = p.connect d (.index n)) ∧
      ∀ b b' detail, (p.connect d s).on b = (.error (.deviceNotFound detail), b') ↔
        ∃ e, p.Rejects s e ∧ detail = e.message ∧ b' = b := by
  refine ⟨⟨fun i => select_eq_ok_iff, fun e => select_eq_error_iff⟩, fun n => ?_,
    fun i shownName => getElem?_names_iff, fun i hat part h => ?_, fun d => ⟨fun i name h hname =>
      connect_of_selected h hname, fun part n h => ?_, fun b b' detail =>
        connect_eq_deviceNotFound_iff⟩⟩
  · rw [← length_devices, ← at_iff]
    constructor
    · rintro ⟨i, ⟨device⟩⟩
      exact ⟨_, device⟩
    · rintro ⟨name, hat⟩
      exact ⟨_, .index hat⟩
  · cases h with
    | name device isPart first => cases hat.unique device
  · obtain ⟨name, hat⟩ := h.exists_at
    rw [connect_of_selected h hat, connect_of_selected (.index hat) hat]

/-- Three devices on two of three platforms, the first one without a name. -/
def threeDevices : Platforms :=
  [[], [none, some "Fake CPU"], [some "Fake GPU"]]

/-- The second device is the first one with a name that matches. -/
theorem select_agrees_threeDevices :
    threeDevices.At 0 none ∧ ¬threeDevices.Selects (.name "Unknown") 0 ∧
      threeDevices.Selects (.name "Fake") 1 ∧ threeDevices.names[1]? = some "Fake CPU" ∧
      threeDevices.connect Simulator.device (.name "Fake") =
        threeDevices.connect Simulator.device (.index 1) := by
  have hlaw := select_agrees threeDevices (.name "Fake")
  have hunnamed : threeDevices.At 0 none := getElem?_devices_iff.1 rfl
  have hselects : threeDevices.Selects (.name "Fake") 1 := (hlaw.1.1 1).1 (by rfl)
  have hat : threeDevices.At 1 (some "Fake CPU") := getElem?_devices_iff.1 rfl
  exact ⟨hunnamed, hlaw.2.2.2.1 0 hunnamed "Unknown", hselects,
    (hlaw.2.2.1 1 "Fake CPU").2 ⟨_, hat, rfl⟩,
    (hlaw.2.2.2.2 Simulator.device).2.1 "Fake" 1 hselects⟩

end Platforms

end KernelDiff

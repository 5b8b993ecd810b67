import KernelDiff.Json.Decode

namespace KernelDiff.Json

/-!
# Taking written values apart again

Words of 64 bits, lists and records as they are written are taken apart into what they were written
from.

* `word64?_natural`, `int64?_integer` — words;
* `list?_array` — lists whose items are read back;
* `record?_ofMembers` — records whose fields have names of their own.
-/

@[simp] theorem string?_string (s : String) : (string s).string? = some s :=
  rfl

/-- A word without a sign is in the range that is read. -/
@[simp] theorem word64?_natural (n : UInt64) : (natural n.toNat).word64? = some n := by
  have hbound := n.toNat_lt
  have hsize : (UInt64.size : Int) = 2 ^ 64 := by decide
  have hrange : (0 : Int) ≤ n.toNat ∧ (n.toNat : Int) ≤ UInt64.size - 1 := by omega
  rw [word64?, natural, integerIn?, if_pos hrange, Option.map_some, Int.toNat_natCast,
    UInt64.ofNat_toNat]

@[simp] theorem int64?_integer (i : Int64) : (integer i.toInt).int64? = some i := by
  have hrange : Int64.minValue.toInt ≤ i.toInt ∧ i.toInt ≤ Int64.maxValue.toInt :=
    ⟨i.minValue_le_toInt, i.toInt_le⟩
  rw [int64?, integerIn?, if_pos hrange, Option.map_some, Int64.ofInt_toInt]

/-- A reader that undoes a writer reads what was written of every item of a list. -/
theorem mapM_map_of_inverse {α β : Type} {read : β → Option α} {write : α → β}
    (h : ∀ x, read (write x) = some x) (xs : List α) : (xs.map write).mapM read = some xs := by
  have hitem : read ∘ write = fun x => pure (id x) := funext h
  rw [List.mapM_map, hitem, List.mapM_pure, List.map_id]
  rfl

/-- A list is read back where every item is. -/
theorem list?_array {α : Type} {read : Json → Option α} {write : α → Json}
    (h : ∀ x, read (write x) = some x) (xs : List α) :
    list? read (array (xs.map write)) = some xs :=
  mapM_map_of_inverse h xs

/-- A record is read back where its fields have known names, and no two the same one. -/
theorem record?_ofMembers {names : List String} {members : List (String × Json)}
    (hknown : ∀ m ∈ members, m.1 ∈ names) (hnodup : (members.map (·.1)).Nodup) :
    (ofMembers members).record? names = some members := by
  have hnames : memberNames? (members.map fun m => (some m.1, m.2)) = some members := by
    unfold memberNames?
    refine mapM_map_of_inverse ?_ members
    intro m
    rfl
  have hall : members.filter (fun m => names.contains m.1) = members :=
    List.filter_eq_self.2 fun m hm => List.contains_iff_mem.2 (hknown m hm)
  show record? names (object (members.map fun m => (some m.1, m.2))) = _
  rw [record?, hnames, Option.bind_eq_bind, Option.bind_some, hall, if_pos hnodup]

end KernelDiff.Json

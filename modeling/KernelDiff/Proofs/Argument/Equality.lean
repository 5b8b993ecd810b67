import KernelDiff.Argument.Basic
import KernelDiff.Proofs.Bytes

namespace KernelDiff

/-!
# Sameness is equality of what can be observed

Every verdict rests on comparisons of argument lists. An `Observation` is all that a user can
learn of an argument, and two arguments are the same exactly when their observations are equal.
So sameness is an equivalence, and comparisons can be rewritten with like any equation.

* `Value.same_iff`, `Buffer.same_iff`, `Argument.same_iff`, `Arguments.same_iff` — sameness of
  values, buffers, arguments and argument lists;
* `Buffer.same_iff_host` — of buffers of whole elements every byte counts.
-/

namespace Value

/-- Values are the same only when they are equal: a value is its type and its bytes. -/
theorem same_iff {a b : Value} : a.same b ↔ a = b := by
  unfold same
  rw [Bool.and_eq_true, beq_iff_eq, Element.same_iff_eq a.length_bytes]
  constructor
  · obtain ⟨t, bytes, hbytes⟩ := a
    obtain ⟨t', bytes', hbytes'⟩ := b
    rintro ⟨htype, hsame⟩
    simp only at htype hsame
    subst htype hsame
    rfl
  · rintro rfl
    exact ⟨rfl, rfl⟩

end Value

namespace Buffer

theorem length_elements (b : Buffer) : b.elements.length = b.length :=
  Bytes.length_pieces _ _ _

/-- Every element of a buffer has the bytes of its type. -/
theorem length_of_mem_elements {b : Buffer} {element : List UInt8} (h : element ∈ b.elements) :
    element.length = b.type.size :=
  Bytes.length_of_mem_wholePieces h

/-- Lists of elements of one type are equal when they are place by place. -/
theorem all_same_iff {t : ElementType} {xs ys : List (List UInt8)}
    (hxs : ∀ x ∈ xs, x.length = t.size) (hlength : xs.length = ys.length) :
    (xs.zip ys).all (fun (x, y) => Element.same t x y) ↔ xs = ys := by
  induction xs generalizing ys with
  | nil =>
    cases ys with
    | nil => simp
    | cons y ys => simp at hlength
  | cons x xs ih =>
    cases ys with
    | nil => simp at hlength
    | cons y ys =>
      have hhead : x.length = t.size := hxs x (by simp)
      have htail : xs.length = ys.length := by simpa using hlength
      rw [List.zip_cons_cons, List.all_cons, Bool.and_eq_true, Element.same_iff_eq hhead,
        ih (fun x hx => hxs x (by simp [hx])) htail, List.cons.injEq]

/-- Buffers are the same when they have the same elements; where their memory is, whether it can
    be written and what an incomplete last element holds does not count. -/
theorem same_iff {a b : Buffer} : a.same b ↔ a.type = b.type ∧ a.elements = b.elements := by
  unfold same
  rw [Bool.and_eq_true, Bool.and_eq_true, beq_iff_eq, beq_iff_eq, ← length_elements,
    ← length_elements]
  constructor
  · rintro ⟨⟨htype, hlength⟩, hall⟩
    exact ⟨htype, (all_same_iff (fun x hx => length_of_mem_elements hx) hlength).1 hall⟩
  · rintro ⟨htype, helements⟩
    have hlength := congrArg List.length helements
    refine ⟨⟨htype, hlength⟩, ?_⟩
    exact (all_same_iff (fun x hx => length_of_mem_elements hx) hlength).2 helements

/-- Of buffers of whole elements every byte counts. -/
theorem same_iff_host {a b : Buffer} (ha : a.type.size ∣ a.host.length)
    (hb : b.type.size ∣ b.host.length) : a.same b ↔ a.type = b.type ∧ a.host = b.host := by
  rw [same_iff]
  constructor
  · rintro ⟨htype, helements⟩
    refine ⟨htype, (Bytes.wholePieces_inj ha (htype ▸ hb)).1 ?_⟩
    rw [elements, elements, ← htype] at helements
    exact helements
  · rintro ⟨htype, hhost⟩
    refine ⟨htype, ?_⟩
    rw [elements, elements, htype, hhost]

end Buffer

/-- All that a user can learn of an argument. -/
inductive Observation
  | value (v : Value)
  /-- Of work-group memory only the element type is known. -/
  | scratch (type : ElementType)
  | elements (type : ElementType) (elements : List (List UInt8))
  deriving DecidableEq, Repr

namespace Argument

/-- What a user can learn of the argument. -/
def observation : Argument → Observation
  | scalar v => .value v
  | scratch t _ => .scratch t
  | buffer b => .elements b.type b.elements

/-- Two arguments are the same when nothing that a user can learn tells them apart. -/
theorem same_iff {a b : Argument} : a.same b ↔ a.observation = b.observation := by
  cases a <;> cases b <;> simp [same, observation, Value.same_iff, Buffer.same_iff]

end Argument

namespace Arguments

/-- What a user can learn of every argument, in order. -/
def observations (args : Arguments) : List Observation :=
  args.map Argument.observation

/-- **Sameness is observable equality.** Argument lists are the same exactly when they are of one
    length and nothing that a user can learn tells them apart in any place. -/
theorem same_iff {a b : Arguments} : a.same b ↔ a.observations = b.observations := by
  unfold same observations
  rw [Bool.and_eq_true, beq_iff_eq]
  induction a generalizing b with
  | nil => cases b <;> simp
  | cons x a ih =>
    cases b with
    | nil => simp
    | cons y b =>
      rw [List.map_cons, List.map_cons, List.cons.injEq, ← ih, ← Argument.same_iff,
        List.length_cons, List.length_cons, Nat.add_right_cancel_iff, List.zip_cons_cons,
        List.all_cons, Bool.and_eq_true]
      -- Lengths come before entries on one side, and heads before tails on the other.
      exact and_left_comm

/-- Comparisons see of an argument list only what can be observed of it. -/
theorem same_congr {a a' b b' : Arguments} (ha : a.observations = a'.observations)
    (hb : b.observations = b'.observations) : a.same b = a'.same b' := by
  rw [Bool.eq_iff_iff, same_iff, same_iff, ha, hb]

end Arguments

end KernelDiff

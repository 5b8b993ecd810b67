import KernelDiff.Lane

namespace KernelDiff.Element

/-!
# Elements

An element of a type is kept as its bytes. The operations here work lane by lane on any list of
bytes, and leave a last incomplete lane alone.
-/

/-- Every whole lane set to the seed. -/
def fill (t : ElementType) (seed : Int64) (bytes : List UInt8) : List UInt8 :=
  let count := bytes.length / t.kind.size
  Lane.encode t.kind (List.replicate count (Lane.ofSeed t.kind seed)) ++
    bytes.drop (count * t.kind.size)

/-- The element with every lane set to the seed. -/
def ofSeed (t : ElementType) (seed : Int64) : List UInt8 :=
  fill t seed (List.replicate t.size 0)

/-- Whether two elements have the same length and the same lanes, bit for bit. -/
def same (t : ElementType) (a b : List UInt8) : Bool :=
  a.length == b.length && Lane.decode t.kind a == Lane.decode t.kind b

/-- The text of an element: its lanes, for a vector in parentheses and with commas between. -/
def text (t : ElementType) (bytes : List UInt8) : List Char :=
  let lanes := (Lane.decode t.kind bytes).map (Lane.text t.kind)
  if t.isVector then '(' :: (", ".toList.intercalate lanes ++ [')']) else lanes.flatten

/-- The texts of the lanes in the text of an element. -/
def laneTexts? (t : ElementType) (s : List Char) : Option (List (List Char)) :=
  if t.isVector then
    match s with
    | '(' :: r =>
      if r.getLast? = some ')' then some ((r.dropLast.splitOn ',').map Text.trim) else none
    | _ => none
  else some [s]

/-- The bytes that the text of an element denotes. -/
def ofText? (t : ElementType) (s : List Char) : Option (List UInt8) := do
  let lanes ← laneTexts? t (Text.trim s)
  if lanes.length = t.lanes then
    let words ← lanes.mapM (Lane.parse? t.kind)
    return Lane.encode t.kind words
  else none

/-- The bytes that the text of an element denotes, or the failure that names text and type. -/
def parse (t : ElementType) (s : String) : Except Failure (List UInt8) :=
  match ofText? t s.toList with
  | some bytes => .ok bytes
  | none => .error (.unreadableValue s t.name)

theorem length_fill (t : ElementType) (seed : Int64) (bytes : List UInt8) :
    (fill t seed bytes).length = bytes.length := by
  have := Nat.div_mul_le_self bytes.length t.kind.size
  simp only [fill, List.length_append, Lane.length_encode, List.length_replicate,
    List.length_drop]
  omega

@[simp] theorem length_ofSeed (t : ElementType) (seed : Int64) :
    (ofSeed t seed).length = t.size := by
  simp [ofSeed, length_fill]

theorem length_of_mapM {f : α → Option β} {xs : List α} {ys : List β}
    (h : xs.mapM f = some ys) : ys.length = xs.length := by
  induction xs generalizing ys with
  | nil => simp at h; simp [← h]
  | cons x xs ih =>
    rw [List.mapM_cons] at h
    cases hx : f x with
    | none => simp [hx] at h
    | some y =>
      cases hxs : xs.mapM f with
      | none => simp [hx, hxs] at h
      | some zs =>
        simp [hx, hxs] at h
        simp [← h, ih hxs]

/-- Bytes that were read are those of one whole element. -/
theorem length_of_ofText? {t : ElementType} {s : List Char} {bytes : List UInt8}
    (h : ofText? t s = some bytes) : bytes.length = t.size := by
  unfold ofText? at h
  cases hl : laneTexts? t (Text.trim s) with
  | none => simp [hl] at h
  | some lanes =>
    simp only [hl, Option.bind_eq_bind, Option.bind_some] at h
    split at h
    · rename_i hn
      cases hw : lanes.mapM (Lane.parse? t.kind) with
      | none => simp [hw] at h
      | some words =>
        simp only [hw, Option.bind_some, Option.pure_def, Option.some.injEq] at h
        simp [← h, length_of_mapM hw, hn, ElementType.size]
    · simp at h

end KernelDiff.Element

namespace KernelDiff.Text

/-!
# Blanks

Which characters are white space, and the two operations that depend on it:

* `trim` removes blanks from both ends of a text;
* `words` cuts a text at its blanks and keeps the non-empty pieces.
-/

/-- The characters with Unicode's `White_Space` property. -/
def isBlank (c : Char) : Bool :=
  let n := c.toNat
  (0x09 ≤ n && n ≤ 0x0D) || n == 0x20 || n == 0x85 || n == 0xA0 || n == 0x1680 ||
    (0x2000 ≤ n && n ≤ 0x200A) || n == 0x2028 || n == 0x2029 || n == 0x202F || n == 0x205F ||
    n == 0x3000

/-- Drop the blanks in front. -/
def trimLeft (s : List Char) : List Char :=
  s.dropWhile isBlank

/-- Drop the blanks at the end. -/
def trimRight (s : List Char) : List Char :=
  (s.reverse.dropWhile isBlank).reverse

/-- Drop the blanks on both sides. -/
def trim (s : List Char) : List Char :=
  trimRight (trimLeft s)

/-- The maximal runs of characters without a blank, in order. -/
def words (s : List Char) : List (List Char) :=
  (s.splitOnP isBlank).filter (fun w => !w.isEmpty)

/-- The pieces between separators `sep`, trimmed, without the empty ones. -/
def trimmedPieces (sep : Char) (s : List Char) : List (List Char) :=
  ((s.splitOn sep).map trim).filter (fun w => !w.isEmpty)

end KernelDiff.Text

import KernelDiff.Record
import KernelDiff.Proofs.Instance.RoundTrip
import Mathlib.Data.List.Forall2
import Mathlib.Data.List.SplitBy

namespace KernelDiff

/-!
# Every record is a line

A sink of records is read line by line, so nothing in a record may end its line early, whatever a
compiler or a kernel put into it. The text of a value without white space has no control character
at all: what is one in the value is escaped. So the text of a sink, cut at its line feeds, is one
line for each record, and each line is read back as its record.

A line is written in many pieces, and the sink may refuse any of them. The rest of the line is not
tried then, but the next record is.

* `Json.printed_compactChars` — the characters of a value without white space;
* `Json.flatten_compactPieces` — its pieces are all of it;
* `Record.ofJson?`, `Record.ofJson?_toJson` — the record in a JSON value;
* `Record.IsLine`, `Record.isLine_compactChars` — the line of a record;
* `JsonLines.log_of_takes`, `JsonLines.log_of_refuses`, `JsonLines.log_tries` — what becomes of a
  record in a sink that takes everything, in one that refuses everything, and in any;
* `JsonLines.logAll_lines` — one line for each record, or one warning.
-/

/-! ### Characters of written values -/

namespace Json

/-- No character of the text is a control character, and so none is a line feed. -/
def Printed (s : List Char) : Prop :=
  ∀ c ∈ s, 0x20 ≤ c.toNat

variable {s s' : List Char} {c : Char}

/-- Whether a text is printed can be computed. -/
theorem printed_of_all (h : s.all (0x20 ≤ ·.toNat) = true) : Printed s :=
  fun c hc => of_decide_eq_true (List.all_eq_true.1 h c hc)

theorem Printed.append (h : Printed s) (h' : Printed s') : Printed (s ++ s') := by
  intro d hd
  rcases List.mem_append.1 hd with hd | hd
  · exact h d hd
  · exact h' d hd

theorem Printed.cons (hc : 0x20 ≤ c.toNat) (h : Printed s) : Printed (c :: s) := by
  intro d hd
  rcases List.mem_cons.1 hd with rfl | hd
  · exact hc
  · exact h d hd

/-- A text in brackets or quotes. -/
theorem Printed.enclosed {first last : Char} (hfirst : 0x20 ≤ first.toNat)
    (hlast : 0x20 ≤ last.toNat) (h : Printed s) : Printed (first :: (s ++ [last])) :=
  .cons hfirst (h.append (.cons hlast fun _ hd => nomatch hd))

/-- An escape is printed, also the escape of what is not. -/
theorem printed_escapeChar (c : Char) : Printed (escapeChar c) := by
  rcases escapeChar_cases c with ⟨letter, hescape, -, hletter⟩ | ⟨hescape, hcontrol⟩ |
    ⟨hescape, -, -, hplain⟩
  · have hprinted : 0x20 ≤ letter.toNat := by
      unfold escaped? at hletter
      split at hletter <;> first | decide | cases hletter
    rw [hescape]
    exact .cons (by decide) (.cons hprinted fun _ hd => nomatch hd)
  · have hdigits : ∀ n < 16, 0x20 ≤ (hexDigit n).toNat := by decide
    rw [hescape]
    exact .cons (by decide) (.cons (by decide) (.cons (by decide) (.cons (by decide)
      (.cons (hdigits _ (by omega)) (.cons (hdigits _ (by omega)) fun _ hd => nomatch hd)))))
  · rw [hescape]
    exact .cons hplain fun _ hd => nomatch hd

theorem printed_quoteText : ∀ s : JsonText, Printed (quoteText s)
  | none => printed_of_all (s := "\"\\ud800\"".toList) rfl
  | some s => by
    have hescaped : Printed (s.toList.flatMap escapeChar) := by
      intro d hd
      obtain ⟨c, -, hd⟩ := List.mem_flatMap.1 hd
      exact printed_escapeChar c d hd
    exact hescaped.enclosed (by decide) (by decide)

theorem printed_ofInt (i : Int) : Printed (Text.ofInt i) := by
  intro c hc
  rcases Text.of_mem_ofInt hc with hdigit | rfl
  · simp only [Char.isDigit, Bool.and_eq_true, decide_eq_true_eq, ge_iff_le,
      UInt32.le_iff_toNat_le] at hdigit
    have hlow : 48 ≤ c.toNat := hdigit.1
    omega
  · decide

mutual

/-- **A value without white space is printed.** -/
theorem printed_compactChars : ∀ v : Json, Printed (compactChars v)
  | .null => printed_of_all (s := "null".toList) rfl
  | .bool true => printed_of_all (s := "true".toList) rfl
  | .bool false => printed_of_all (s := "false".toList) rfl
  | .integer i => printed_ofInt i
  | .real => printed_of_all (s := "-0".toList) rfl
  | .text s => printed_quoteText s
  | .array items => by
    rw [compactChars]
    exact (printed_compactItems items).enclosed (by decide) (by decide)
  | .object members => by
    rw [compactChars]
    exact (printed_compactMembers members).enclosed (by decide) (by decide)

theorem printed_compactItems : ∀ items : List Json, Printed (compactItems items)
  | [] => fun _ hd => nomatch hd
  | [v] => printed_compactChars v
  | v :: w :: vs => by
    rw [compactItems]
    exact (printed_compactChars v).append (.cons (by decide) (printed_compactItems (w :: vs)))

theorem printed_compactMembers :
    ∀ members : List (JsonText × Json), Printed (compactMembers members)
  | [] => fun _ hd => nomatch hd
  | [(k, v)] => by
    rw [compactMembers]
    exact (printed_quoteText k).append (.cons (by decide) (printed_compactChars v))
  | (k, v) :: m :: ms => by
    rw [compactMembers]
    exact (printed_quoteText k).append (.cons (by decide) ((printed_compactChars v).append
      (.cons (by decide) (printed_compactMembers (m :: ms)))))

end

/-! ### The pieces of written values -/

theorem flatten_quotedPieces (s : String) :
    (quotedPieces s).flatten = s.toList.flatMap escapeChar := by
  unfold quotedPieces
  simp only
  generalize hplain : (fun c c' => escapeChar c == [c] && escapeChar c' == [c']) = together
  conv_rhs => rw [← List.flatten_splitBy together s.toList]
  rw [← List.flatMap_def, List.flatten_eq_flatMap, List.flatMap_assoc]
  rfl

theorem flatten_literalPieces (s : JsonText) : (literalPieces s).flatten = quoteText s := by
  cases s with
  | none =>
    unfold literalPieces
    rw [List.flatten_cons, List.flatten_nil, List.append_nil]
  | some s =>
    unfold literalPieces
    rw [List.flatten_cons, List.flatten_append, flatten_quotedPieces]
    rfl

mutual

/-- **The pieces of a value are all of it.** -/
theorem flatten_compactPieces : ∀ v : Json, (compactPieces v).flatten = compactChars v
  | .null => by simp [compactPieces, compactChars]
  | .bool b => by simp [compactPieces, compactChars]
  | .integer i => by simp [compactPieces, compactChars]
  | .real => by simp [compactPieces, compactChars]
  | .text s => by simp [compactPieces, compactChars, flatten_literalPieces, atomText]
  | .array items => by simp [compactPieces, compactChars, flatten_itemPieces items]
  | .object members => by simp [compactPieces, compactChars, flatten_memberPieces members]

theorem flatten_itemPieces : ∀ items : List Json, (itemPieces items).flatten = compactItems items
  | [] => rfl
  | [v] => flatten_compactPieces v
  | v :: w :: vs => by
    have hrest := flatten_itemPieces (w :: vs)
    simp [itemPieces, compactItems, flatten_compactPieces v, hrest]

theorem flatten_memberPieces :
    ∀ members : List (JsonText × Json), (memberPieces members).flatten = compactMembers members
  | [] => rfl
  | [(k, v)] => by
    simp [memberPieces, compactMembers, flatten_literalPieces, flatten_compactPieces v]
  | (k, v) :: m :: ms => by
    have hrest := flatten_memberPieces (m :: ms)
    simp [memberPieces, compactMembers, flatten_literalPieces, flatten_compactPieces v, hrest]

end

/-- What a reader reads that reads back what was written, if there is anything. -/
theorem orNull?_stringOrNull (s : Option String) : orNull? string? (stringOrNull s) = some s := by
  cases s <;> rfl

end Json

/-! ### The line of a record -/

namespace Record

/-- The names of the fields of a record, in order. -/
def fieldNames : List String := ["device", "kernel", "params", "outcome", "message"]

/-- The record that a JSON value denotes. Every field must be there; what a record does not have is
    null. -/
def ofJson? (v : Json) : Option Record := do
  let fields ← v.record? fieldNames
  return {
    device := ← Json.required? fields "device" Json.string?
    kernel := ← Json.required? fields "kernel" (Json.orNull? Json.string?)
    sizes := ← Json.required? fields "params" (Json.orNull? LaunchSizes.ofJson?)
    outcome := ← Json.required? fields "outcome" Json.string?
    message := ← Json.required? fields "message" (Json.orNull? Json.string?) }

/-- The JSON value of the sizes of a record. -/
def sizesToJson : Option LaunchSizes → Json
  | some s => s.toJson
  | none => .null

theorem orNull?_sizesToJson (s : Option LaunchSizes) :
    Json.orNull? LaunchSizes.ofJson? (sizesToJson s) = some s := by
  cases s with
  | none => rfl
  | some s =>
    have hread : Json.orNull? LaunchSizes.ofJson? s.toJson =
        (LaunchSizes.ofJson? s.toJson).map some := rfl
    rw [sizesToJson, hread, LaunchSizes.ofJson?_toJson, Option.map_some]

/-- The fields of a record in its JSON value. -/
def fields (r : Record) : List (String × Json) :=
  [("device", .string r.device), ("kernel", .stringOrNull r.kernel),
    ("params", sizesToJson r.sizes), ("outcome", .string r.outcome),
    ("message", .stringOrNull r.message)]

theorem toJson_eq (r : Record) : r.toJson = .ofMembers r.fields := by
  cases r with
  | mk device kernel sizes outcome message => cases sizes <;> rfl

/-- A record is read back from its JSON value. -/
theorem ofJson?_toJson (r : Record) : ofJson? r.toJson = some r := by
  have hrecord : r.toJson.record? fieldNames = some r.fields := by
    rw [toJson_eq]
    exact Json.record?_ofMembers (by simp [fields, fieldNames]) (by simp [fields])
  have hdevice : Json.required? r.fields "device" Json.string? = some r.device := rfl
  have hkernel : Json.required? r.fields "kernel" (Json.orNull? Json.string?) = some r.kernel :=
    Json.orNull?_stringOrNull r.kernel
  have hsizes : Json.required? r.fields "params" (Json.orNull? LaunchSizes.ofJson?) =
      some r.sizes := orNull?_sizesToJson r.sizes
  have houtcome : Json.required? r.fields "outcome" Json.string? = some r.outcome := rfl
  have hmessage : Json.required? r.fields "message" (Json.orNull? Json.string?) =
      some r.message := Json.orNull?_stringOrNull r.message
  simp [ofJson?, hrecord, hdevice, hkernel, hsizes, houtcome, hmessage]

/-- The line holds the record and nothing else: no character in it could end it early, it is an
    object with the fields of a record, and they are the record's. -/
structure IsLine (r : Record) (line : List Char) : Prop where
  printed : ∀ c ∈ line, 0x20 ≤ c.toNat
  fieldNames : ∃ members, Json.parse? (String.ofList line) = some (.object members) ∧
    members.map (·.1) = Record.fieldNames.map some
  read : (Json.parse? (String.ofList line)).bind ofJson? = some r

/-- What is written of a record is its line. -/
theorem isLine_compactChars (r : Record) : r.IsLine r.toJson.compactChars where
  printed := Json.printed_compactChars r.toJson
  fieldNames := by
    have hparse := Json.parse?_compact r.toJson
    have hobject : r.toJson = .object (r.fields.map fun m => (some m.1, m.2)) := r.toJson_eq
    exact ⟨_, hparse.trans (congrArg some hobject), rfl⟩
  read := by
    have hparse := Json.parse?_compact r.toJson
    rw [Json.compact] at hparse
    rw [hparse, Option.bind_some, ofJson?_toJson]

theorem IsLine.not_mem_lineFeed {r : Record} {line : List Char} (h : r.IsLine line) :
    '\n' ∉ line := by
  intro hmem
  exact absurd (h.printed '\n' hmem) (by decide)

end Record

/-! ### The lines of a sink -/

namespace JsonLines

/-- Lines one after the other, each with a line feed behind it. -/
def ofLines (lines : List (List Char)) : List Char :=
  lines.flatMap fun line => line ++ ['\n']

/-- Lines are found again between the line feeds, and nothing behind the last one. -/
theorem splitOn_ofLines {lines : List (List Char)} (h : ∀ line ∈ lines, '\n' ∉ line) :
    (ofLines lines).splitOn '\n' = lines ++ [[]] := by
  have hjoin : ofLines lines = ['\n'].intercalate (lines ++ [[]]) := by
    clear h
    induction lines with
    | nil => rfl
    | cons line lines ih =>
      have hne : lines ++ [[]] ≠ [] := by simp
      obtain ⟨second, rest, heq⟩ := List.exists_cons_of_ne_nil hne
      have hfirst : ofLines (line :: lines) = line ++ ['\n'] ++ ofLines lines := rfl
      rw [hfirst, ih, List.cons_append, heq, List.intercalate_cons_cons]
  rw [hjoin, List.splitOn_intercalate '\n' ?_ (by simp)]
  intro line hline
  rcases List.mem_append.1 hline with hmem | hmem
  · exact h line hmem
  · rw [List.mem_singleton.1 hmem]
    exact List.not_mem_nil

section Writing

variable (sink : JsonLines)

/-- Whatever comes of it, every attempt counts, and the sink answers the next ones as before. -/
theorem write_tries (piece : List Char) :
    (sink.write piece).2.attempts = sink.attempts + 1 ∧
      (sink.write piece).2.refusal = sink.refusal := by
  unfold write
  cases sink.refusal sink.attempts <;> exact ⟨rfl, rfl⟩

theorem writeAll_tries (pieces : List (List Char)) :
    sink.attempts ≤ (sink.writeAll pieces).2.attempts ∧
      (sink.writeAll pieces).2.refusal = sink.refusal ∧
      ∀ reason, (sink.writeAll pieces).1 = .error reason →
        sink.attempts < (sink.writeAll pieces).2.attempts := by
  induction pieces generalizing sink with
  | nil => simp [writeAll]
  | cons piece pieces ih =>
    obtain ⟨hattempts, hrefusal⟩ := sink.write_tries piece
    unfold writeAll
    rcases hwrite : sink.write piece with ⟨⟨reason⟩ | ⟨⟩, next⟩
    · simp only [hwrite] at hattempts hrefusal
      exact ⟨by simp only; omega, hrefusal, fun _ _ => by simp only; omega⟩
    · simp only [hwrite] at hattempts hrefusal
      obtain ⟨hmore, hkept, -⟩ := ih next
      exact ⟨by simp only; omega, hkept.trans hrefusal, fun _ _ => by simp only; omega⟩

/-- **Every record is tried**, whatever became of those before it. -/
theorem log_tries (r : Record) :
    sink.attempts < (sink.log r).1.attempts ∧ (sink.log r).1.refusal = sink.refusal := by
  obtain ⟨hattempts, hrefusal, herror⟩ := sink.writeAll_tries r.toJson.compactPieces
  unfold log writeLine
  rcases hwritten : sink.writeAll r.toJson.compactPieces with ⟨⟨reason⟩ | ⟨⟩, next⟩
  · rw [hwritten] at hrefusal herror
    exact ⟨herror reason rfl, hrefusal⟩
  · -- Behind the value there is the line feed to try.
    rw [hwritten] at hattempts hrefusal
    obtain ⟨hmore, hkept⟩ := next.write_tries ['\n']
    simp only
    rcases hfeed : next.write ['\n'] with ⟨⟨reason⟩ | ⟨⟩, last⟩
    all_goals
      rw [hfeed] at hmore hkept
      exact ⟨by simp only at hattempts hmore ⊢; omega, hkept.trans hrefusal⟩

/-- Pieces that are all taken are written one after the other. -/
theorem writeAll_of_takes (h : ∀ n, sink.refusal n = none) (pieces : List (List Char)) :
    (sink.writeAll pieces).1 = .ok () ∧
      (sink.writeAll pieces).2.text = sink.text ++ String.ofList pieces.flatten := by
  induction pieces generalizing sink with
  | nil => exact ⟨rfl, String.append_empty.symm⟩
  | cons piece pieces ih =>
    have hwrite : sink.write piece =
        (.ok (), ⟨sink.text ++ String.ofList piece, sink.attempts + 1, sink.refusal⟩) := by
      rw [write, h]
    obtain ⟨hok, htext⟩ := ih _ (by rwa [(sink.write_tries piece).2])
    rw [writeAll, hwrite]
    rw [hwrite] at hok htext
    rw [List.flatten_cons, String.ofList_append, ← String.append_assoc]
    exact ⟨hok, htext⟩

/-- A sink that takes everything has the line of a record behind what was written before. -/
theorem log_of_takes (h : ∀ n, sink.refusal n = none) (r : Record) :
    (sink.log r).1.text = sink.text ++ String.ofList (r.toJson.compactChars ++ ['\n']) ∧
      (sink.log r).2 = none := by
  obtain ⟨hok, htext⟩ := sink.writeAll_of_takes h r.toJson.compactPieces
  have hrefusal := (sink.writeAll_tries r.toJson.compactPieces).2.1
  rw [Json.flatten_compactPieces] at htext
  unfold log writeLine
  rcases hwritten : sink.writeAll r.toJson.compactPieces with ⟨⟨reason⟩ | ⟨⟩, next⟩
  · rw [hwritten] at hok
    cases hok
  · rw [hwritten] at htext hrefusal
    simp only at htext hrefusal
    simp only [write, hrefusal, h, htext, String.ofList_append, String.append_assoc, true_and]

/-- A sink that refuses everything is tried once for a record, and there is a warning. -/
theorem log_of_refuses {reason : Nat → String} (h : ∀ n, sink.refusal n = some (reason n))
    (r : Record) :
    sink.log r = ({ sink with attempts := sink.attempts + 1 },
      some ("Failed to write log record: " ++ reason sink.attempts)) := by
  obtain ⟨piece, pieces, hpieces⟩ : ∃ piece pieces, r.toJson.compactPieces = piece :: pieces := by
    rw [r.toJson_eq]
    exact ⟨_, _, rfl⟩
  unfold log writeLine
  simp only [hpieces, writeAll, write, h]

/-- Whatever the sink does, every record is tried and gives one warning at most. -/
theorem logAll_tries (rs : List Record) :
    sink.attempts + rs.length ≤ (sink.logAll rs).1.attempts ∧
      (sink.logAll rs).2.length ≤ rs.length := by
  induction rs generalizing sink with
  | nil => exact ⟨Nat.le_refl _, Nat.le_refl _⟩
  | cons r rs ih =>
    obtain ⟨hattempts, hwarnings⟩ := ih (sink.log r).1
    have htried := (sink.log_tries r).1
    have hone : (sink.log r).2.toList.length ≤ 1 := by
      cases (sink.log r).2 <;> simp
    rw [logAll]
    simp only [List.length_cons, List.length_append]
    omega

/-- A sink that takes everything has the lines of the records behind what was written before. -/
theorem logAll_of_takes (h : ∀ n, sink.refusal n = none) (rs : List Record) :
    (sink.logAll rs).1.text =
        sink.text ++ String.ofList (ofLines (rs.map fun r => r.toJson.compactChars)) ∧
      (sink.logAll rs).2 = [] := by
  induction rs generalizing sink with
  | nil => exact ⟨String.append_empty.symm, rfl⟩
  | cons r rs ih =>
    obtain ⟨htext, hnone⟩ := sink.log_of_takes h r
    obtain ⟨hrest, hwarnings⟩ := ih (sink.log r).1 (by rwa [(sink.log_tries r).2])
    rw [logAll]
    simp only [hrest, hwarnings, htext, hnone, Option.toList_none, List.append_nil, and_true]
    rw [List.map_cons, String.append_assoc, ← String.ofList_append]
    rfl

/-- A sink that refuses everything gives a warning for each record, and goes on. -/
theorem logAll_of_refuses {reason : Nat → String} (h : ∀ n, sink.refusal n = some (reason n))
    (rs : List Record) :
    sink.logAll rs = ({ sink with attempts := sink.attempts + rs.length },
      (List.range' sink.attempts rs.length).map fun n =>
        "Failed to write log record: " ++ reason n) := by
  induction rs generalizing sink with
  | nil => rfl
  | cons r rs ih =>
    have hrest := ih { sink with attempts := sink.attempts + 1 } h
    rw [logAll, sink.log_of_refuses h]
    simp only [hrest, Option.toList_some, List.singleton_append, List.length_cons,
      List.range'_succ, List.map_cons, Nat.add_assoc, Nat.add_comm 1]

end Writing

/-- **Every record is a line.** Where a sink takes all that is written to it, there are no
    warnings, and what is written of records, cut at the line feeds, is one line for each of them,
    in order, and each is read back as its record. Where it refuses every attempt, nothing is
    written, there is one attempt for each record, and one warning with the reason for its refusal.
    No sink keeps later records from being tried. -/
theorem logAll_lines (rs : List Record) :
    (∀ (written : String) (attempts : Nat), ∃ lines : List (List Char),
      (logAll ⟨written, attempts, fun _ => none⟩ rs).1.text =
        written ++ String.ofList (ofLines lines) ∧
      (logAll ⟨written, attempts, fun _ => none⟩ rs).2 = [] ∧
      (ofLines lines).splitOn '\n' = lines ++ [[]] ∧ List.Forall₂ Record.IsLine rs lines) ∧
    (∀ (written : String) (attempts : Nat) (reason : Nat → String),
      logAll ⟨written, attempts, fun n => some (reason n)⟩ rs =
        (⟨written, attempts + rs.length, fun n => some (reason n)⟩,
          (List.range' attempts rs.length).map fun n =>
            "Failed to write log record: " ++ reason n)) ∧
    ∀ sink : JsonLines, sink.attempts + rs.length ≤ (sink.logAll rs).1.attempts ∧
      (sink.logAll rs).2.length ≤ rs.length := by
  refine ⟨fun written attempts => ?_, fun written attempts reason => ?_,
    fun sink => sink.logAll_tries rs⟩
  · have hlines : List.Forall₂ Record.IsLine rs (rs.map fun r => r.toJson.compactChars) := by
      rw [List.forall₂_map_right_iff, List.forall₂_same]
      exact fun r _ => r.isLine_compactChars
    obtain ⟨htext, hwarnings⟩ := logAll_of_takes ⟨written, attempts, _⟩ (fun _ => rfl) rs
    refine ⟨_, htext, hwarnings, splitOn_ofLines ?_, hlines⟩
    intro line hline
    obtain ⟨r, -, rfl⟩ := List.mem_map.1 hline
    exact r.isLine_compactChars.not_mem_lineFeed
  · exact logAll_of_refuses _ (fun _ => rfl) rs

end JsonLines

end KernelDiff

import KernelDiff.Json.Decode
import KernelDiff.Proofs.Json.Grammar
import Mathlib.Data.List.Nodup

namespace KernelDiff.Json

/-!
# The members of a written object

A text that denotes an object is made of the texts of its members. A record is read from the members
whose names are known, and from nothing else of the object.

* `WrittenMember`, `Writes` — members as they are written, and the texts that write an object;
* `parse?_eq_object_iff` — the texts that denote an object;
* `known`, `record?_object_iff` — the members that a record is read from;
* `lookup_eq_some_iff_mem`, `lookup_of_perm` — looking up a name that stands only once.
-/

/-! ### Objects as they are written -/

/-- A member as it is written: its name and its value, with the texts of their tokens. -/
structure WrittenMember where
  name : JsonText
  value : Json
  key : List Char
  lexemes : List (List Char)
  key_spells : Spells key (.text name)
  value_spells : List.Forall₂ Spells lexemes (tokens value)

namespace WrittenMember

/-- What a member says. -/
def content (m : WrittenMember) : JsonText × Json :=
  (m.name, m.value)

/-- The texts of the tokens of a member. -/
def texts (m : WrittenMember) : List (List Char) :=
  m.key :: [':'] :: m.lexemes

end WrittenMember

/-- The texts of the tokens of members, with commas between the members. -/
def memberTexts : List WrittenMember → List (List Char)
  | [] => []
  | [m] => m.texts
  | m :: m' :: ms => m.texts ++ [','] :: memberTexts (m' :: ms)

/-- The text is an object with the given members, and with any white space between tokens. -/
def Writes (ms : List WrittenMember) (s : String) : Prop :=
  Laid (['\x7b'] :: (memberTexts ms ++ [['\x7d']])) s.toList

theorem WrittenMember.spells (m : WrittenMember) :
    List.Forall₂ Spells m.texts (.text m.name :: .colon :: tokens m.value) :=
  .cons m.key_spells (.cons .colon m.value_spells)

theorem forall₂_memberTexts : ∀ ms : List WrittenMember,
    List.Forall₂ Spells (memberTexts ms) (memberTokens (ms.map (·.content)))
  | [] => .nil
  | [m] => m.spells
  | m :: m' :: ms => List.rel_append m.spells (.cons .comma (forall₂_memberTexts (m' :: ms)))

theorem exists_append_of_forall₂ {ws : List (List Char)} {ts us : List Token}
    (h : List.Forall₂ Spells ws (ts ++ us)) :
    ∃ first last, ws = first ++ last ∧ List.Forall₂ Spells first ts ∧ List.Forall₂ Spells last us :=
  ⟨_, _, (List.take_append_drop ts.length ws).symm, List.forall₂_take_append ws ts us h,
    List.forall₂_drop_append ws ts us h⟩

/-- The texts of the tokens of a member are those of one that is written. -/
theorem exists_writtenMember {ws : List (List Char)} {k : JsonText} {v : Json}
    (h : List.Forall₂ Spells ws (.text k :: .colon :: tokens v)) :
    ∃ m : WrittenMember, ws = m.texts ∧ m.content = (k, v) := by
  obtain _ | ⟨hkey, hrest⟩ := h
  obtain _ | ⟨hcolon, hvalue⟩ := hrest
  cases hcolon
  exact ⟨⟨k, v, _, _, hkey, hvalue⟩, rfl, rfl⟩

theorem exists_memberTexts : ∀ {ws : List (List Char)} (members : List (JsonText × Json)),
    List.Forall₂ Spells ws (memberTokens members) →
      ∃ ms, ws = memberTexts ms ∧ ms.map (·.content) = members
  | _, [], h => by
    cases h
    exact ⟨[], rfl, rfl⟩
  | _, [(k, v)], h => by
    obtain ⟨m, hws, hcontent⟩ := exists_writtenMember h
    exact ⟨[m], hws, by rw [List.map_singleton, hcontent]⟩
  | _, (k, v) :: member :: members, h => by
    rw [memberTokens, ← List.cons_append, ← List.cons_append] at h
    obtain ⟨_, _, rfl, hfirst, hrest⟩ := exists_append_of_forall₂ h
    obtain _ | ⟨hcomma, hrest⟩ := hrest
    cases hcomma
    obtain ⟨m, rfl, hcontent⟩ := exists_writtenMember hfirst
    obtain ⟨ms, rfl, hcontents⟩ := exists_memberTexts (member :: members) hrest
    match ms with
    | m' :: ms => exact ⟨m :: m' :: ms, rfl, by rw [List.map_cons, hcontent, hcontents]⟩

/-- **An object is denoted by the texts of its members** and by no other text. -/
theorem parse?_eq_object_iff {s : String} {members : List (JsonText × Json)} :
    parse? s = some (.object members) ↔
      ∃ ms, Writes ms s ∧ ms.map (·.content) = members := by
  rw [parse?_eq_some_iff]
  constructor
  · rintro ⟨ws, laid, spells⟩
    rw [tokens] at spells
    obtain _ | ⟨hopen, hinside⟩ := spells
    cases hopen
    obtain ⟨_, _, rfl, hmembers, hlast⟩ := exists_append_of_forall₂ hinside
    obtain _ | ⟨hclose, hnil⟩ := hlast
    cases hclose
    cases hnil
    obtain ⟨ms, rfl, hcontents⟩ := exists_memberTexts members hmembers
    exact ⟨ms, laid, hcontents⟩
  · rintro ⟨ms, laid, rfl⟩
    exact ⟨_, laid, .cons .openObject (List.rel_append (forall₂_memberTexts ms)
      (.cons .closeObject .nil))⟩

/-! ### The members that a record is read from -/

/-- The members with known names. -/
def known (names : List String) (members : List (JsonText × Json)) : List (String × Json) :=
  members.filterMap fun m => m.1.bind fun name =>
    if names.contains name then some (name, m.2) else none

theorem known_cons_of_mem {names : List String} {name : String} (h : name ∈ names) (v : Json)
    (members : List (JsonText × Json)) :
    known names ((some name, v) :: members) = (name, v) :: known names members := by
  simp [known, h]

theorem known_append (names : List String) (members members' : List (JsonText × Json)) :
    known names (members ++ members') = known names members ++ known names members' :=
  List.filterMap_append

theorem known_perm (names : List String) {members members' : List (JsonText × Json)}
    (h : members'.Perm members) : (known names members').Perm (known names members) :=
  h.filterMap _

theorem known_eq_nil {names : List String} {members : List (JsonText × Json)}
    (h : ∀ m ∈ members, ∃ name, m.1 = some name ∧ name ∉ names) : known names members = [] := by
  refine List.filterMap_eq_nil_iff.2 fun m hm => ?_
  obtain ⟨name, hname, hunknown⟩ := h m hm
  simp [hname, hunknown]

theorem memberNames?_eq_some_iff {members : List (JsonText × Json)}
    {named : List (String × Json)} :
    memberNames? members = some named ↔
      (∀ m ∈ members, m.1.isSome) ∧ members.filterMap (fun m => m.1.map (·, m.2)) = named := by
  induction members generalizing named with
  | nil =>
    show some [] = some named ↔ _
    simp
  | cons m members ih =>
    obtain ⟨_ | name, v⟩ := m
    · simp [memberNames?]
    · have hcons : memberNames? ((some name, v) :: members) =
          (memberNames? members).map ((name, v) :: ·) := by
        rw [memberNames?, List.mapM_cons]
        show (memberNames? members).bind (fun rest => some ((name, v) :: rest)) = _
        cases memberNames? members <;> rfl
      rw [hcons, Option.map_eq_some_iff]
      simp [ih]

/-- **A record is read from the members with known names**, if no name stands twice, and if all
    names are texts. -/
theorem record?_object_iff {names : List String} {members : List (JsonText × Json)}
    {fields : List (String × Json)} :
    (object members).record? names = some fields ↔
      (∀ m ∈ members, m.1.isSome) ∧ known names members = fields ∧
        (fields.map (·.1)).Nodup := by
  have hknown : (members.filterMap fun m => m.1.map (·, m.2)).filter
      (fun m => names.contains m.1) = known names members := by
    rw [List.filter_filterMap, known]
    refine List.filterMap_congr fun m _ => ?_
    cases m.1 with
    | none => rfl
    | some name => rfl
  rw [record?, Option.bind_eq_bind, Option.bind_eq_some_iff]
  constructor
  · rintro ⟨named, hnamed, hfields⟩
    obtain ⟨hsome, rfl⟩ := memberNames?_eq_some_iff.1 hnamed
    simp only [hknown] at hfields
    split_ifs at hfields with hnodup
    cases hfields
    exact ⟨hsome, rfl, hnodup⟩
  · rintro ⟨hsome, rfl, hnodup⟩
    refine ⟨_, memberNames?_eq_some_iff.2 ⟨hsome, rfl⟩, ?_⟩
    simp only [hknown, if_pos hnodup]

/-! ### Looking up a name that stands only once -/

variable {fields fields' : List (String × Json)} {name : String} {v : Json}

theorem lookup_eq_some_iff_mem (h : (fields.map (·.1)).Nodup) :
    fields.lookup name = some v ↔ (name, v) ∈ fields := by
  induction fields with
  | nil => simp
  | cons field fields ih =>
    obtain ⟨first, w⟩ := field
    obtain ⟨hfirst, hrest⟩ := List.nodup_cons.1 h
    by_cases hname : name = first
    · subst hname
      -- The name does not stand among the later fields.
      have hnot : (name, v) ∉ fields := fun hmem => hfirst (List.mem_map.2 ⟨_, hmem, rfl⟩)
      simp [hnot, eq_comm]
    · rw [List.lookup_cons, beq_false_of_ne hname, ih hrest]
      simp [hname]

theorem lookup_of_perm (h : (fields.map (·.1)).Nodup) (hperm : fields'.Perm fields) :
    fields'.lookup name = fields.lookup name := by
  have h' : (fields'.map (·.1)).Nodup := (hperm.map _).nodup_iff.2 h
  ext v
  rw [lookup_eq_some_iff_mem h', lookup_eq_some_iff_mem h, hperm.mem_iff]

/-- A name that stood once is missing when it is left out. -/
theorem lookup_leaveOut_self {left right : List (String × Json)}
    (h : ((left ++ (name, v) :: right).map (·.1)).Nodup) : (left ++ right).lookup name = none := by
  rw [List.map_append, List.map_cons, List.nodup_middle, ← List.map_append] at h
  refine List.lookup_eq_none_iff.2 fun field hfield => ?_
  have hne : name ≠ field.1 := by
    rintro rfl
    exact (List.nodup_cons.1 h).1 (List.mem_map.2 ⟨field, hfield, rfl⟩)
  exact bne_iff_ne.2 hne

theorem lookup_leaveOut_of_ne {left right : List (String × Json)} {n : String} (hne : n ≠ name) :
    (left ++ right).lookup n = (left ++ (name, v) :: right).lookup n := by
  rw [List.lookup_append, List.lookup_append, List.lookup_cons, beq_false_of_ne hne]

/-- Fields are read by looking up their names. -/
theorem required?_of_lookup {α : Type} {read : Json → Option α}
    (h : fields'.lookup name = fields.lookup name) :
    required? fields' name read = required? fields name read := by
  rw [required?, h, required?]

theorem optional?_of_lookup {α : Type} {missing : α} {read : Json → Option α}
    (h : fields'.lookup name = fields.lookup name) :
    optional? fields' name missing read = optional? fields name missing read := by
  rw [optional?, h, optional?]

theorem optional?_of_missing {α : Type} {missing : α} {read : Json → Option α}
    (h : fields.lookup name = none) : optional? fields name missing read = some missing := by
  rw [optional?, h]

end KernelDiff.Json

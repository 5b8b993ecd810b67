import KernelDiff.Proofs.Execution.Alignment

namespace KernelDiff

/-!
# What stops an execution

An execution stops when the device reports an error, when a buffer has no memory on the device,
or when an input entry is missing or cannot be read. Entries are the caller's: where values
follow a policy, nothing but the device can stop an execution.

* `Generator.failure_of_scalar`, `Generator.failure_of_contents` — the failures of generators;
* `Signature.steady_execute` — the failures of an execution, and that it keeps whatever the
  device's answers keep.
-/

variable {σ : Type} {d : Device σ}

/-- The failure is about an entry of the caller. -/
def Failure.isInput : Failure → Bool
  | inputCount .. | unreadableValue .. => true
  | _ => false

/-! ### Generators -/

/-- A failed reading of a list of texts is the failed reading of the first that cannot be read. -/
theorem mapM_eq_error_iff {α β ε : Type} {f : α → Except ε β} {l : List α} {e : ε} :
    l.mapM f = .error e ↔
      ∃ before a after, l = before ++ a :: after ∧ (∀ x ∈ before, ∃ r, f x = .ok r) ∧
        f a = .error e := by
  induction l with
  | nil => simp [pure, Except.pure]
  | cons a l ih =>
    rw [List.mapM_cons]
    constructor
    · intro h
      cases ha : f a with
      | error e' =>
        rw [ha] at h
        cases h
        exact ⟨[], a, l, rfl, by simp, ha⟩
      | ok r =>
        cases hl : l.mapM f with
        | error e' =>
          rw [ha, hl] at h
          cases h
          obtain ⟨before, x, after, rfl, hbefore, hx⟩ := ih.1 hl
          exact ⟨a :: before, x, after, rfl, List.forall_mem_cons.2 ⟨⟨r, ha⟩, hbefore⟩, hx⟩
        | ok rest =>
          rw [ha, hl] at h
          cases h
    · rintro ⟨before, x, after, hl, hbefore, hx⟩
      cases before with
      | nil =>
        cases hl
        rw [hx]
        rfl
      | cons a' before =>
        cases hl
        obtain ⟨⟨r, ha⟩, hbefore⟩ := List.forall_mem_cons.1 hbefore
        rw [ha, ih.2 ⟨before, x, after, rfl, hbefore, hx⟩]
        rfl

/-- A list of texts can be read where each of them can. -/
theorem exists_mapM_eq_ok_iff {α β ε : Type} {f : α → Except ε β} {l : List α} :
    (∃ rs, l.mapM f = .ok rs) ↔ ∀ a ∈ l, ∃ r, f a = .ok r := by
  constructor
  · rintro ⟨rs, h⟩
    exact ((List.forall₂_and_left l rs).1
      ((mapM_eq_ok_iff.1 h).imp fun a r ha => ⟨⟨r, ha⟩, ha⟩)).1
  · intro h
    cases hl : l.mapM f with
    | ok rs => exact ⟨rs, rfl⟩
    | error e =>
      obtain ⟨before, a, after, rfl, -, ha⟩ := mapM_eq_error_iff.1 hl
      obtain ⟨r, hr⟩ := h a (by simp)
      rw [ha] at hr
      cases hr

theorem Element.failure_of_parse {t : ElementType} {s : String} {e : Failure}
    (h : parse t s = .error e) : e.isInput := by
  unfold parse at h
  split at h
  · cases h
  · cases h
    rfl

theorem Value.failure_of_parse {t : ElementType} {s : String} {e : Failure}
    (h : parse t s = .error e) : e.isInput := by
  unfold parse at h
  split at h
  · cases h
  · cases h
    rfl

namespace Generator

theorem isExplicit_nextSeed (g : Generator) : g.nextSeed.2.isExplicit = g.isExplicit := by
  unfold nextSeed
  split <;> rfl

theorem isExplicit_nextElements (t : ElementType) (count : Nat) (g : Generator) :
    (g.nextElements t count).2.isExplicit = g.isExplicit := by
  induction count generalizing g with
  | zero => rfl
  | succ count ih =>
    simp only [nextElements]
    rw [ih, isExplicit_nextSeed]

/-- Handing out an entry does not change whether there are entries; only a caller can have
    given too few of them. -/
theorem nextEntry_spec {g g' : Generator} {r : Except Failure (Option (List String))}
    (h : g.nextEntry = (r, g')) :
    g'.isExplicit = g.isExplicit ∧ ∀ e, r = .error e → g.isExplicit ∧ e.isInput := by
  unfold nextEntry at h
  split at h
  · next hnone =>
    cases h
    simp
  · next entries hsome =>
    split at h
    · cases h
      simp [isExplicit, hsome]
    · cases h
      refine ⟨rfl, ?_⟩
      rintro e he
      cases he
      simp [isExplicit, hsome, Failure.isInput]

/-- An entry is handed out by generators with entries only. -/
theorem isExplicit_of_nextEntry {g g' : Generator} {entry : List String}
    (h : g.nextEntry = (.ok (some entry), g')) : g.isExplicit := by
  unfold nextEntry at h
  split at h
  · cases h
  · next entries hsome => simp [isExplicit, hsome]

theorem failure_of_scalar {t : ElementType} {g g' : Generator} {r : Except Failure Value}
    (h : g.scalar t = (r, g')) :
    g'.isExplicit = g.isExplicit ∧ ∀ e, r = .error e → g.isExplicit ∧ e.isInput := by
  unfold scalar at h
  -- No entry left, a policy, one text, and any other number of texts.
  split at h
  · next hentry =>
    have hspec := nextEntry_spec hentry
    cases h
    refine ⟨hspec.1, ?_⟩
    rintro e he
    cases he
    exact hspec.2 _ rfl
  · next g₁ hentry =>
    have hkeep := isExplicit_nextSeed g₁
    rcases hseed : g₁.nextSeed with ⟨seed, g₂⟩
    rw [hseed] at h hkeep
    cases h
    exact ⟨hkeep.trans (nextEntry_spec hentry).1, by simp⟩
  · next text g₁ hentry =>
    cases h
    exact ⟨(nextEntry_spec hentry).1, fun e he =>
      ⟨isExplicit_of_nextEntry hentry, Value.failure_of_parse he⟩⟩
  · next entry g₁ _ hentry =>
    cases h
    refine ⟨(nextEntry_spec hentry).1, ?_⟩
    rintro e he
    cases he
    exact ⟨isExplicit_of_nextEntry hentry, rfl⟩

theorem failure_of_ofEntry {t : ElementType} {entry : List String} {length : Nat} {e : Failure}
    (h : ofEntry t entry length = .error e) : e.isInput := by
  unfold ofEntry at h
  cases hm : entry.mapM (Element.parse t) with
  | error e' =>
    rw [hm] at h
    cases h
    obtain ⟨-, s, -, -, -, hs⟩ := mapM_eq_error_iff.1 hm
    exact Element.failure_of_parse hs
  | ok elements =>
    rw [hm] at h
    cases h

theorem failure_of_contents {t : ElementType} {length : Nat} {g g' : Generator}
    {r : Except Failure (List UInt8)} (h : g.contents t length = (r, g')) :
    g'.isExplicit = g.isExplicit ∧ ∀ e, r = .error e → g.isExplicit ∧ e.isInput := by
  unfold contents at h
  split at h
  · next hentry =>
    have hspec := nextEntry_spec hentry
    cases h
    refine ⟨hspec.1, ?_⟩
    rintro e he
    cases he
    exact hspec.2 _ rfl
  · next g₁ hentry =>
    cases h
    exact ⟨(isExplicit_nextElements t _ g₁).trans (nextEntry_spec hentry).1, by simp⟩
  · next entry g₁ hentry =>
    cases h
    exact ⟨(nextEntry_spec hentry).1, fun e he =>
      ⟨isExplicit_of_nextEntry hentry, failure_of_ofEntry he⟩⟩

end Generator

/-! ### Executions -/

variable {P : σ → Prop} {E : Failure → Prop}

namespace Buffer

theorem steady_handle (hdetached : E .detachedBuffer) (b : Buffer) :
    (b.handle : Session σ Nat).Steady P E := by
  unfold handle
  split
  · exact Session.steady_pure _
  · exact Session.steady_throw hdetached

end Buffer

section Steady

variable (hP : ∀ c s, P s → P (d.answer c s).2) (hdevice : ∀ e, E (.device e))
variable (hdetached : E .detachedBuffer)

include hP hdevice

namespace Parameter

/-- The failures of a generator are those of its entries. -/
theorem steady_argument {sizes : LaunchSizes} {g : Generator} (p : Parameter)
    (hinput : g.isExplicit → ∀ e, e.isInput → E e) : (p.argument d sizes g).Steady P E := by
  -- Buffers are made in the same way in global and in constant memory.
  have hbuffer : (g.buffer d p.type sizes.globalSize.toNat p.isConst).Steady P E := by
    unfold Generator.buffer
    rcases hc : g.contents p.type sizes.globalSize.toNat with ⟨host?, g₁⟩
    refine (Session.steady_ofExcept fun e he => ?_).bind fun host => ?_
    · obtain ⟨hexplicit, hisInput⟩ := (Generator.failure_of_contents hc).2 e he
      exact hinput hexplicit e hisInput
    · refine Session.Steady.bind ?_ fun b => Session.steady_pure _
      exact (Device.steady_call hP hdevice _).bind fun handle => Session.steady_pure _
  unfold argument
  split
  · exact hbuffer.bind fun r => Session.steady_pure _
  · exact hbuffer.bind fun r => Session.steady_pure _
  · exact Session.steady_pure _
  · rcases hv : g.scalar p.type with ⟨v?, g₁⟩
    refine (Session.steady_ofExcept fun e he => ?_).bind fun v => Session.steady_pure _
    obtain ⟨hexplicit, hisInput⟩ := (Generator.failure_of_scalar hv).2 e he
    exact hinput hexplicit e hisInput

omit hP hdevice in
theorem isExplicit_of_makes {p : Parameter} {sizes : LaunchSizes} {g g' : Generator}
    {b b' : Bench σ} {a : Argument} (h : p.Makes d sizes g b a g' b') :
    g'.isExplicit = g.isExplicit := by
  cases h with
  | buffer space contents created => exact (Generator.failure_of_contents contents).1
  | scratch space => rfl
  | scalar space value => exact (Generator.failure_of_scalar value).1

end Parameter

namespace Signature

theorem steady_arguments {sizes : LaunchSizes} {g : Generator} (s : Signature)
    (hinput : g.isExplicit → ∀ e, e.isInput → E e) :
    (arguments d sizes s g).Steady P E := by
  induction s generalizing g with
  | nil => exact Session.steady_pure _
  | cons p s ih =>
    refine (Parameter.steady_argument hP hdevice p hinput).bind_of fun r b b' hr => ?_
    obtain ⟨a, g₁⟩ := r
    -- The generator that is left has entries exactly where the one before it had.
    have hsame := Parameter.isExplicit_of_makes (Parameter.makes_of_argument hr)
    have hrest := ih (g := g₁) (by rwa [hsame])
    exact hrest.bind fun rest => Session.steady_pure _

end Signature

include hdetached

namespace Arguments

theorem steady_upload (args : Arguments) : (args.upload d).Steady P E := by
  refine Session.steady_forM fun a _ => ?_
  cases a with
  | scalar v => exact Session.steady_pure _
  | scratch t length => exact Session.steady_pure _
  | buffer b =>
    refine (Buffer.steady_handle hdetached b).bind fun handle => ?_
    refine (Device.steady_call hP hdevice _).bind fun event => ?_
    exact Device.steady_recordEvent hP hdevice _ _

theorem steady_bind (args : Arguments) (kernel : Nat) : (args.bind d kernel).Steady P E := by
  refine Session.steady_forM fun a _ => ?_
  obtain ⟨a, i⟩ := a
  cases a with
  | scalar v => exact Device.steady_call hP hdevice _
  | scratch t length => exact Device.steady_call hP hdevice _
  | buffer b =>
    refine (Buffer.steady_handle hdetached b).bind fun handle => ?_
    exact Device.steady_call hP hdevice _

theorem steady_readOutputs (args : Arguments) : (args.readOutputs d).Steady P E := by
  refine Session.steady_mapM fun a _ => ?_
  cases a with
  | scalar v => exact Session.steady_pure _
  | scratch t length => exact Session.steady_pure _
  | buffer b =>
    refine Session.Steady.map ?_ _
    refine (Buffer.steady_handle hdetached b).bind fun handle => ?_
    split
    · exact Session.steady_pure _
    · refine (Device.steady_call hP hdevice _).bind fun r => ?_
      exact (Device.steady_recordEvent hP hdevice _ _).bind fun _ => Session.steady_pure _

end Arguments

/-- With arguments at hand only the device can stop an execution. -/
theorem Signature.steady_executeOn (kernel : Nat) (sizes : LaunchSizes) (inputs : Arguments) :
    Session.Steady P E (do
      Arguments.upload d inputs
      Arguments.bind d inputs kernel
      let event ← d.call (.launch kernel sizes.globalSize.toNat sizes.localSize.toNat)
      d.recordEvent .execution event
      let outputs ← Arguments.readOutputs d inputs
      return ({ inputs, outputs } : Execution)) := by
  refine (Arguments.steady_upload hP hdevice hdetached inputs).bind fun _ => ?_
  refine (Arguments.steady_bind hP hdevice hdetached inputs kernel).bind fun _ => ?_
  refine (Device.steady_call hP hdevice _).bind fun event => ?_
  refine (Device.steady_recordEvent hP hdevice _ _).bind fun _ => ?_
  refine (Arguments.steady_readOutputs hP hdevice hdetached inputs).bind fun outputs => ?_
  exact Session.steady_pure _

/-- **What stops an execution**: a report of the device or a buffer without memory there, and
    where a caller gives the values, an entry. Whatever stops it, the execution keeps what the
    device keeps. -/
theorem Signature.steady_execute (kernel : Nat) (s : Signature) (sizes : LaunchSizes)
    {source : InputSource} (hinput : source.generator.isExplicit → ∀ e, e.isInput → E e) :
    (s.execute d kernel sizes source).Steady P E := by
  refine (Signature.steady_arguments hP hdevice s hinput).bind fun inputs => ?_
  exact Signature.steady_executeOn hP hdevice hdetached kernel sizes inputs

end Steady

end KernelDiff

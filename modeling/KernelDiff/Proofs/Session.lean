import KernelDiff.Device.Session

namespace KernelDiff

/-!
# Reasoning about sessions

A session is taken apart step by step: what a session of several steps answers follows from
what each of its steps answers, on the bench that the step before it has left.

* `on_bind_eq_ok`, `on_bind_eq_error` — the two ways in which a sequence can end;
* `call_eq_ok`, `call_eq_error`, `recordEvent_eq_ok` — what a call leaves behind;
* `Session.Steady P E` — whether it succeeds or fails, the session keeps the property `P` of
  device states, and every failure of it has the property `E`.
-/

variable {σ α β : Type}

namespace Session

/-! ### Single steps -/

@[simp] theorem on_pure (a : α) (b : Bench σ) : on (pure a) b = (.ok a, b) := rfl

@[simp] theorem on_throw (e : Failure) (b : Bench σ) :
    on (throw e : Session σ α) b = (.error e, b) := rfl

@[simp] theorem on_modify (f : Bench σ → Bench σ) (b : Bench σ) :
    on (modify f) b = (.ok (), f b) := rfl

theorem on_bind (x : Session σ α) (f : α → Session σ β) (b : Bench σ) :
    on (x >>= f) b =
      match x.on b with
      | (.ok a, b₁) => (f a).on b₁
      | (.error e, b₁) => (.error e, b₁) := by
  show (ExceptT.bind x f) b = _
  unfold ExceptT.bind ExceptT.mk
  show (match x b with | (a, b₁) => ExceptT.bindCont f a b₁) = _
  unfold Session.on
  rcases x b with ⟨⟨e⟩ | ⟨a⟩, b₁⟩ <;> rfl

/-- A sequence succeeds when its first step does, and its rest on what that step has left. -/
theorem on_bind_eq_ok {x : Session σ α} {f : α → Session σ β} {b b' : Bench σ} {r : β} :
    on (x >>= f) b = (.ok r, b') ↔
      ∃ a b₁, x.on b = (.ok a, b₁) ∧ (f a).on b₁ = (.ok r, b') := by
  rw [on_bind]
  rcases hx : x.on b with ⟨⟨e⟩ | ⟨a⟩, b₁⟩
  · simp
  · constructor
    · intro h
      exact ⟨a, b₁, rfl, h⟩
    · rintro ⟨a', b₁', heq, h⟩
      cases heq
      exact h

/-- A sequence fails when its first step does, or its rest on what that step has left. -/
theorem on_bind_eq_error {x : Session σ α} {f : α → Session σ β} {b b' : Bench σ} {e : Failure} :
    on (x >>= f) b = (.error e, b') ↔
      x.on b = (.error e, b') ∨ ∃ a b₁, x.on b = (.ok a, b₁) ∧ (f a).on b₁ = (.error e, b') := by
  rw [on_bind]
  rcases hx : x.on b with ⟨⟨e'⟩ | ⟨a⟩, b₁⟩
  · simp
  · constructor
    · intro h
      exact .inr ⟨a, b₁, rfl, h⟩
    · rintro (h | ⟨a', b₁', heq, h⟩)
      · cases h
      · cases heq
        exact h

theorem on_map (x : Session σ α) (f : α → β) (b : Bench σ) :
    on (f <$> x) b = ((x.on b).1.map f, (x.on b).2) := by
  rw [← bind_pure_comp, on_bind]
  rcases x.on b with ⟨⟨e⟩ | ⟨a⟩, b₁⟩ <;> rfl

theorem on_map_eq_ok {x : Session σ α} {f : α → β} {b b' : Bench σ} {r : β} :
    on (f <$> x) b = (.ok r, b') ↔ ∃ a, x.on b = (.ok a, b') ∧ f a = r := by
  rw [← bind_pure_comp, on_bind_eq_ok]
  constructor
  · rintro ⟨a, b₁, hx, h⟩
    cases h
    exact ⟨a, hx, rfl⟩
  · rintro ⟨a, hx, rfl⟩
    exact ⟨a, b', hx, rfl⟩

theorem on_mapM_cons_eq_ok {f : α → Session σ β} {a : α} {l : List α} {b b' : Bench σ}
    {rs : List β} :
    on ((a :: l).mapM f) b = (.ok rs, b') ↔
      ∃ r b₁ rest, (f a).on b = (.ok r, b₁) ∧ on (l.mapM f) b₁ = (.ok rest, b') ∧
        rs = r :: rest := by
  rw [List.mapM_cons, on_bind_eq_ok]
  constructor
  · rintro ⟨r, b₁, hr, h⟩
    obtain ⟨rest, b₂, hrest, h⟩ := on_bind_eq_ok.1 h
    cases h
    exact ⟨r, b₁, rest, hr, hrest, rfl⟩
  · rintro ⟨r, b₁, rest, hr, hrest, rfl⟩
    exact ⟨r, b₁, hr, on_bind_eq_ok.2 ⟨rest, b', hrest, rfl⟩⟩

/-- A list of commands gives one result for each. -/
theorem length_of_mapM {f : α → Session σ β} {l : List α} {b b' : Bench σ} {rs : List β}
    (h : on (l.mapM f) b = (.ok rs, b')) : rs.length = l.length := by
  induction l generalizing b rs with
  | nil =>
    cases h
    rfl
  | cons a l ih =>
    obtain ⟨r, b₁, rest, -, hrest, rfl⟩ := on_mapM_cons_eq_ok.1 h
    rw [List.length_cons, List.length_cons, ih hrest]

theorem on_forM_cons_eq_ok {f : α → Session σ PUnit} {a : α} {l : List α} {b b' : Bench σ}
    {u : PUnit} :
    on ((a :: l).forM f) b = (.ok u, b') ↔
      ∃ b₁, (f a).on b = (.ok u, b₁) ∧ on (l.forM f) b₁ = (.ok u, b') := by
  show on (f a >>= fun _ => l.forM f) b = _ ↔ _
  rw [on_bind_eq_ok]
  constructor
  · rintro ⟨_, b₁, ha, h⟩
    exact ⟨b₁, ha, h⟩
  · rintro ⟨b₁, ha, h⟩
    exact ⟨u, b₁, ha, h⟩

theorem on_ofExcept (x : Except Failure α) (b : Bench σ) : on (ofExcept x) b = (x, b) := by
  cases x <;> rfl

/-- A session that is known to have a result is known to succeed. -/
theorem on_eq_of_toOption {x : Session σ α} {b : Bench σ} {a : α}
    (h : (x.on b).1.toOption = some a) : x.on b = (.ok a, (x.on b).2) := by
  rcases hx : x.on b with ⟨⟨e⟩ | ⟨r⟩, b'⟩
  · rw [hx] at h
    cases h
  · rw [hx] at h
    cases h
    rfl

theorem on_ofExcept_eq_ok {x : Except Failure α} {b b' : Bench σ} {a : α} :
    on (ofExcept x) b = (.ok a, b') ↔ x = .ok a ∧ b' = b := by
  rw [on_ofExcept, Prod.mk.injEq, eq_comm (a := b)]

end Session

namespace Device

variable (d : Device σ)

/-- A call succeeds when the device answers it; nothing but the device's state changes. -/
theorem call_eq_ok {c : Call} {a : c.Answer} {b b' : Bench σ} :
    (d.call c).on b = (.ok a, b') ↔
      ∃ s, d.answer c b.device = (.ok a, s) ∧ b' = { b with device := s } := by
  unfold Session.on call
  rcases d.answer c b.device with ⟨⟨e⟩ | ⟨r⟩, s⟩
  · simp
  · constructor
    · intro h
      cases h
      exact ⟨s, rfl, rfl⟩
    · rintro ⟨s', h, rfl⟩
      cases h
      rfl

/-- A call fails when the device reports an error. -/
theorem call_eq_error {c : Call} {e : Failure} {b b' : Bench σ} :
    (d.call c).on b = (.error e, b') ↔
      ∃ report s, d.answer c b.device = (.error report, s) ∧ e = .device report ∧
        b' = { b with device := s } := by
  unfold Session.on call
  rcases d.answer c b.device with ⟨⟨report⟩ | ⟨r⟩, s⟩
  · constructor
    · intro h
      cases h
      exact ⟨report, s, rfl, rfl, rfl⟩
    · rintro ⟨report', s', h, rfl, rfl⟩
      cases h
      rfl
  · simp

/-- What a call leaves of the device, whether it succeeds or not. -/
theorem device_call (c : Call) (b : Bench σ) :
    ((d.call c).on b).2.device = (d.answer c b.device).2 := by
  unfold Session.on call
  rcases d.answer c b.device with ⟨⟨e⟩ | ⟨r⟩, s⟩ <;> rfl

/-- The times of a command are had from three calls, one after the other. -/
theorem recordEvent_eq_ok {stage : Stage} {event : Nat} {b b' : Bench σ} {u : Unit}
    (h : (d.recordEvent stage event).on b = (.ok u, b')) :
    ∃ queued start finish b₁ b₂ b₃,
      (d.call (.timestamp event .queued)).on b = (.ok queued, b₁) ∧
      (d.call (.timestamp event .start)).on b₁ = (.ok start, b₂) ∧
      (d.call (.timestamp event .finish)).on b₂ = (.ok finish, b₃) ∧
      b' = { b₃ with profile := b₃.profile.record stage (.between queued start finish) } := by
  obtain ⟨queued, b₁, h₁, h⟩ := Session.on_bind_eq_ok.1 h
  obtain ⟨start, b₂, h₂, h⟩ := Session.on_bind_eq_ok.1 h
  obtain ⟨finish, b₃, h₃, h⟩ := Session.on_bind_eq_ok.1 h
  rw [Session.on_modify] at h
  cases h
  exact ⟨queued, start, finish, b₁, b₂, b₃, h₁, h₂, h₃, rfl⟩

end Device

/-! ### What a session keeps, and how it fails -/

namespace Session

variable {P : σ → Prop} {E : Failure → Prop}

/-- Whatever it comes to, the session keeps `P`, and it fails with failures in `E` only. -/
def Steady (P : σ → Prop) (E : Failure → Prop) (x : Session σ α) : Prop :=
  ∀ b, P b.device → P (x.on b).2.device ∧ ∀ e, (x.on b).1 = .error e → E e

theorem Steady.keeps {x : Session σ α} (hx : x.Steady P E) {b b' : Bench σ} {r : Except Failure α}
    (h : x.on b = (r, b')) (hb : P b.device) : P b'.device := by
  have := (hx b hb).1
  rwa [h] at this

theorem Steady.failure {x : Session σ α} (hx : x.Steady P E) {b b' : Bench σ} {e : Failure}
    (h : x.on b = (.error e, b')) (hb : P b.device) : E e := by
  refine (hx b hb).2 e ?_
  rw [h]

theorem steady_pure (a : α) : (pure a : Session σ α).Steady P E := by
  intro b hb
  exact ⟨hb, by simp⟩

theorem steady_throw {e : Failure} (he : E e) : (throw e : Session σ α).Steady P E := by
  intro b hb
  refine ⟨hb, fun e' h => ?_⟩
  cases h
  exact he

theorem steady_ofExcept {x : Except Failure α} (hx : ∀ e, x = .error e → E e) :
    (ofExcept x : Session σ α).Steady P E := by
  intro b hb
  rw [on_ofExcept]
  exact ⟨hb, hx⟩

/-- Steps that touch only the profile cannot go wrong. -/
theorem steady_modify {f : Bench σ → Bench σ} (hf : ∀ b, (f b).device = b.device) :
    (modify f : Session σ PUnit).Steady P E := by
  intro b hb
  rw [on_modify]
  exact ⟨by rwa [hf], by simp⟩

/-- Of the rest of a sequence only the cases count that its first step can lead to. -/
theorem Steady.bind_of {x : Session σ α} {f : α → Session σ β} (hx : x.Steady P E)
    (hf : ∀ a b b', x.on b = (.ok a, b') → (f a).Steady P E) : (x >>= f).Steady P E := by
  intro b hb
  have hkeep := hx b hb
  rw [on_bind]
  rcases hxb : x.on b with ⟨⟨e⟩ | ⟨a⟩, b₁⟩
  · rw [hxb] at hkeep
    exact ⟨hkeep.1, fun e' h => hkeep.2 e' (by cases h; rfl)⟩
  · rw [hxb] at hkeep
    exact hf a b b₁ hxb b₁ hkeep.1

theorem Steady.bind {x : Session σ α} {f : α → Session σ β} (hx : x.Steady P E)
    (hf : ∀ a, (f a).Steady P E) : (x >>= f).Steady P E :=
  hx.bind_of fun a _ _ _ => hf a

theorem Steady.map {x : Session σ α} (hx : x.Steady P E) (f : α → β) :
    (f <$> x).Steady P E := by
  rw [← bind_pure_comp]
  exact hx.bind fun a => steady_pure (f a)

theorem steady_mapM {f : α → Session σ β} {l : List α} (hf : ∀ a ∈ l, (f a).Steady P E) :
    (l.mapM f).Steady P E := by
  induction l with
  | nil => exact steady_pure []
  | cons a l ih =>
    rw [List.mapM_cons]
    refine (hf a (by simp)).bind fun r => ?_
    exact (ih fun x hx => hf x (by simp [hx])).bind fun rs => steady_pure (r :: rs)

theorem steady_forM {f : α → Session σ PUnit} {l : List α} (hf : ∀ a ∈ l, (f a).Steady P E) :
    (l.forM f).Steady P E := by
  induction l with
  | nil => exact steady_pure PUnit.unit
  | cons a l ih =>
    show (f a >>= fun _ => l.forM f).Steady P E
    exact (hf a (by simp)).bind fun _ => ih fun x hx => hf x (by simp [hx])

end Session

/-! ### Calls -/

namespace Device

variable {d : Device σ} {P : σ → Prop} {E : Failure → Prop}

/-- A call keeps what the device's answers keep, and fails with a report of the device. -/
theorem steady_call (hd : ∀ c s, P s → P (d.answer c s).2) (hE : ∀ e, E (.device e)) (c : Call) :
    (d.call c).Steady P E := by
  intro b hb
  refine ⟨?_, ?_⟩
  · rw [device_call]
    exact hd c b.device hb
  · intro e h
    unfold Session.on call at h
    rcases hc : d.answer c b.device with ⟨⟨e'⟩ | ⟨r⟩, s⟩
    · rw [hc] at h
      cases h
      exact hE e'
    · rw [hc] at h
      cases h

theorem steady_recordEvent (hd : ∀ c s, P s → P (d.answer c s).2) (hE : ∀ e, E (.device e))
    (stage : Stage) (event : Nat) : (d.recordEvent stage event).Steady P E := by
  refine (steady_call hd hE _).bind fun queued => ?_
  refine (steady_call hd hE _).bind fun start => ?_
  refine (steady_call hd hE _).bind fun finish => ?_
  exact Session.steady_modify fun _ => rfl

end Device

end KernelDiff

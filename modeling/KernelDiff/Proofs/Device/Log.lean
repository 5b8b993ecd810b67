import KernelDiff.Proofs.Device.Simulation

namespace KernelDiff

/-!
# Logs of calls

Any device can be made to keep a log of all calls, each with its answer. This changes nothing about
what is done on it. What a session adds to the log says what it has done on the device, also where
it fails; a session is `Tidy` if all its calls are of one kind and none comes after one that failed.

* `Device.logged`, `Device.inStep_logged` — the device with a log;
* `Halts` — a log in which nothing comes after a call that failed;
* `Session.Logs` — what a session adds to the log;
* `Session.Tidy`, `Session.tidy_forM` — tidy sessions, and that sequences of them are tidy.
-/

variable {σ α β : Type}

/-- A call with the answer to it. -/
structure Entry where
  call : Call
  answer : Except DeviceError call.Answer

/-- The call did not fail. -/
def Entry.Succeeded (e : Entry) : Prop :=
  ∃ a, e.answer = .ok a

instance (e : Entry) : Decidable e.Succeeded :=
  match h : e.answer with
  | .ok a => .isTrue ⟨a, h⟩
  | .error report => .isFalse fun ⟨a, ha⟩ => by rw [h] at ha; cases ha

/-- A state of a device, and the calls that have been made. -/
abbrev Logged (σ : Type) := σ × List Entry

/-- The device with a log of all calls. -/
def Device.logged (d : Device σ) : Device (Logged σ) where
  answer c s :=
    ((d.answer c s.1).1, (d.answer c s.1).2, s.2 ++ [⟨c, (d.answer c s.1).1⟩])

/-- The calls that have been made. -/
def Bench.log (b : Bench (Logged σ)) : List Entry :=
  b.device.2

/-- Keeping a log changes nothing. -/
theorem Device.inStep_logged (d : Device σ) : d.InStep (fun s t => s = t.1) Eq d.logged := by
  rintro c s t rfl
  refine ⟨?_, rfl⟩
  unfold logged
  simp only
  cases (d.answer c t.1).1 with
  | error e => exact .error rfl
  | ok a => exact .ok rfl

/-- A bench on a device that has kept a log. -/
def Bench.logging (b : Bench σ) (log : List Entry) : Bench (Logged σ) :=
  ⟨(b.device, log), b.profile⟩

theorem Failure.Alike.eq {e e' : Failure} (h : e.Alike Eq e') : e = e' := by
  cases h with
  | same => rfl
  | device alike => rw [alike]

theorem KernelRun.Alike.eq {r r' : KernelRun} (h : r.Alike Eq r') : r = r' := by
  cases h with
  | same => rfl
  | failed sizes alike => rw [alike]

theorem ResultsAlike.eq {ε : Type} {A : α → α → Prop} {E : ε → ε → Prop} {r r' : Except ε α}
    (h : ResultsAlike A E r r') (hA : ∀ a a', A a a' → a = a') (hE : ∀ e e', E e e' → e = e') :
    r = r' := by
  cases h with
  | ok alike => rw [hA _ _ alike]
  | error alike => rw [hE _ _ alike]

/-- On a device with a log a session comes to the same. -/
theorem Session.InStep.on_logged {x : Session σ α} {y : Session (Logged σ) α}
    (hxy : Session.InStep (fun s t => s = t.1) Eq x y) {b b' : Bench σ} {c : Bench (Logged σ)}
    (hb : b.InStep (fun s t => s = t.1) c) {r : Except Failure α} (hx : x.on b = (r, b')) :
    ∃ c', y.on c = (r, c') ∧ b'.InStep (fun s t => s = t.1) c' := by
  rcases hxy.cases hb with
    ⟨a, b₁, c₁, hx', hy, hbench⟩ | ⟨e, e', b₁, c₁, hx', hy, halike, hbench⟩
  · cases hx.symm.trans hx'
    exact ⟨c₁, hy, hbench⟩
  · cases hx.symm.trans hx'
    exact ⟨c₁, by rw [hy, halike.eq], hbench⟩

/-- A kernel has the same signature and the same runs with a log and without one. -/
theorem KernelHandle.signature_logged (d : Device σ) (k : KernelHandle) (b : Bench σ)
    (log : List Entry) :
    ((k.signature d.logged).on (b.logging log)).1 = ((k.signature d).on b).1 := by
  obtain ⟨halike, -⟩ := Signature.inStep_query d.inStep_logged k.kernel b (b.logging log) ⟨rfl, rfl⟩
  exact (halike.eq (fun _ _ => id) fun _ _ => Failure.Alike.eq).symm

theorem KernelHandle.run_logged (d : Device σ) (k : KernelHandle) (env : Environment)
    (i : Instance) (b : Bench σ) (log : List Entry) :
    ((k.run d.logged env i).on (b.logging log)).1 = ((k.run d env i).on b).1 := by
  obtain ⟨halike, -⟩ := k.alike_run d.inStep_logged env i (b := b) (c := b.logging log) ⟨rfl, rfl⟩
  refine (halike.eq (fun runs runs' h => ?_) fun _ _ => Failure.Alike.eq).symm
  exact List.forall₂_eq_eq_eq ▸ h.imp fun _ _ => KernelRun.Alike.eq

/-! ### Logs that halt -/

/-- Nothing comes after a call that failed. -/
def Halts (log : List Entry) : Prop :=
  log.Pairwise fun e _ => e.Succeeded

theorem halts_nil : Halts [] := List.Pairwise.nil

theorem halts_singleton (e : Entry) : Halts [e] := List.pairwise_singleton _ e

theorem halts_append {log log' : List Entry} (hlog : ∀ e ∈ log, e.Succeeded) (h : Halts log') :
    Halts (log ++ log') := by
  refine List.pairwise_append.2 ⟨?_, h, fun e he _ _ => hlog e he⟩
  exact List.pairwise_iff_getElem.2 fun n m hn _ _ => hlog _ (List.getElem_mem hn)

/-- The pieces of a log that belong to the items of a list, one after the other. -/
def InTurn (R : α → List Entry → Prop) (l : List α) (log : List Entry) : Prop :=
  ∃ pieces, List.Forall₂ R l pieces ∧ log = pieces.flatten

theorem inTurn_nil (R : α → List Entry → Prop) : InTurn R [] [] :=
  ⟨[], .nil, rfl⟩

theorem InTurn.cons {R : α → List Entry → Prop} {a : α} {l : List α} {piece log : List Entry}
    (h : InTurn R l log) (ha : R a piece) : InTurn R (a :: l) (piece ++ log) := by
  obtain ⟨pieces, hpieces, rfl⟩ := h
  exact ⟨piece :: pieces, .cons ha hpieces, rfl⟩

/-! ### What sessions log -/

namespace Session

/-- Whatever it comes to, what the session adds to the log has the property. -/
def Logs (x : Session (Logged σ) α) (P : Except Failure α → List Entry → Prop) : Prop :=
  ∀ b, ∃ log, (x.on b).2.log = b.log ++ log ∧ P (x.on b).1 log

variable {P : Except Failure α → List Entry → Prop}

theorem Logs.exists_log {x : Session (Logged σ) α} (hx : x.Logs P) {b b' : Bench (Logged σ)}
    {r : Except Failure α} (h : x.on b = (r, b')) : ∃ log, b'.log = b.log ++ log ∧ P r log := by
  have hb := hx b
  rwa [h] at hb

theorem logs_pure {a : α} (h : P (.ok a) []) : (pure a : Session (Logged σ) α).Logs P :=
  fun b => ⟨[], (List.append_nil b.log).symm, h⟩

theorem logs_throw {e : Failure} (h : P (.error e) []) :
    (throw e : Session (Logged σ) α).Logs P :=
  fun b => ⟨[], (List.append_nil b.log).symm, h⟩

theorem Logs.mono {x : Session (Logged σ) α} (hx : x.Logs P)
    {Q : Except Failure α → List Entry → Prop} (h : ∀ r log, P r log → Q r log) : x.Logs Q := by
  intro b
  obtain ⟨log, hlog, hP⟩ := hx b
  exact ⟨log, hlog, h _ _ hP⟩

/-- What comes after a step adds to what the step has logged. -/
theorem Logs.bind {x : Session (Logged σ) α} {f : α → Session (Logged σ) β}
    {R : Except Failure β → List Entry → Prop} (hx : x.Logs P)
    (herror : ∀ e log, P (.error e) log → R (.error e) log)
    (hok : ∀ a log, P (.ok a) log → (f a).Logs fun r log' => R r (log ++ log')) :
    (x >>= f).Logs R := by
  intro b
  obtain ⟨log, hlog, hP⟩ := hx b
  rw [on_bind]
  rcases hxb : x.on b with ⟨⟨e⟩ | ⟨a⟩, b₁⟩
  · rw [hxb] at hlog hP
    exact ⟨log, hlog, herror e log hP⟩
  · rw [hxb] at hlog hP
    obtain ⟨log', hlog', hR⟩ := hok a log hP b₁
    refine ⟨log ++ log', ?_, hR⟩
    rw [hlog', hlog, List.append_assoc]

/-- All calls of the session have the property `P`, and none comes after one that failed. If the
    session succeeds, no call has failed, and the log is one for the result. -/
def Tidy (P : Call → Prop) (Q : α → List Entry → Prop) (x : Session (Logged σ) α) : Prop :=
  x.Logs fun r log => (∀ e ∈ log, P e.call) ∧ Halts log ∧
    ∀ a, r = .ok a → (∀ e ∈ log, e.Succeeded) ∧ Q a log

section Tidy

variable {P : Call → Prop} {Q : α → List Entry → Prop} {R : β → List Entry → Prop}

theorem tidy_pure {a : α} (h : Q a []) : (pure a : Session (Logged σ) α).Tidy P Q := by
  refine logs_pure ⟨by simp, halts_nil, ?_⟩
  rintro _ ⟨⟩
  exact ⟨by simp, h⟩

theorem tidy_throw (e : Failure) : (throw e : Session (Logged σ) α).Tidy P Q :=
  logs_throw ⟨by simp, halts_nil, fun _ h => nomatch h⟩

theorem tidy_ofExcept {r : Except Failure α} (h : ∀ a, r = .ok a → Q a []) :
    (ofExcept r : Session (Logged σ) α).Tidy P Q := by
  cases r with
  | error e => exact tidy_throw e
  | ok a => exact tidy_pure (h a rfl)

theorem tidy_modify {f : Bench (Logged σ) → Bench (Logged σ)} (hf : ∀ b, (f b).device = b.device)
    {Q : PUnit → List Entry → Prop} (h : Q ⟨⟩ []) :
    (modify f : Session (Logged σ) PUnit).Tidy P Q := by
  refine fun b => ⟨[], ?_, by simp, halts_nil, fun _ _ => ⟨by simp, h⟩⟩
  rw [on_modify, List.append_nil]
  exact congrArg Prod.snd (hf b)

theorem Tidy.mono {x : Session (Logged σ) α} (hx : x.Tidy P Q) {P' : Call → Prop}
    {Q' : α → List Entry → Prop} (hP : ∀ c, P c → P' c) (hQ : ∀ a log, Q a log → Q' a log) :
    x.Tidy P' Q' := by
  refine Logs.mono hx fun r log h => ?_
  obtain ⟨hcalls, hhalts, hok⟩ := h
  exact ⟨fun e he => hP _ (hcalls e he), hhalts,
    fun a ha => ⟨(hok a ha).1, hQ a log (hok a ha).2⟩⟩

theorem Tidy.bind {x : Session (Logged σ) α} {f : α → Session (Logged σ) β} (hx : x.Tidy P Q)
    (hf : ∀ a log, Q a log → (f a).Tidy P fun r log' => R r (log ++ log')) :
    (x >>= f).Tidy P R := by
  refine Logs.bind hx ?_ ?_
  · rintro e log ⟨hcalls, hhalts, -⟩
    exact ⟨hcalls, hhalts, fun _ h => nomatch h⟩
  · rintro a log ⟨hcalls, -, hok⟩
    -- The session goes on only where no call has failed, so what follows may be put behind it.
    obtain ⟨hsucceeded, hQ⟩ := hok a rfl
    refine Logs.mono (hf a log hQ) ?_
    rintro r log' ⟨hcalls', hhalts', hok'⟩
    refine ⟨?_, halts_append hsucceeded hhalts', fun b hb => ⟨?_, (hok' b hb).2⟩⟩
    · exact fun e he => (List.mem_append.1 he).elim (hcalls e) (hcalls' e)
    · exact fun e he => (List.mem_append.1 he).elim (hsucceeded e) ((hok' b hb).1 e)

theorem Tidy.map {x : Session (Logged σ) α} (hx : x.Tidy P fun _ _ => True) (f : α → β) :
    (f <$> x).Tidy P fun _ _ => True := by
  rw [← bind_pure_comp]
  exact hx.bind fun a _ _ => tidy_pure trivial

theorem tidy_forM {f : α → Session (Logged σ) PUnit} {R : α → List Entry → Prop}
    (hf : ∀ a, (f a).Tidy P fun _ log => R a log) (l : List α) :
    (l.forM f).Tidy P fun _ log => InTurn R l log := by
  induction l with
  | nil => exact tidy_pure (inTurn_nil R)
  | cons a l ih =>
    exact (hf a).bind fun _ _ hpiece => ih.mono (fun _ => id) fun _ _ hrest => hrest.cons hpiece

theorem tidy_mapM {f : α → Session (Logged σ) β} (hf : ∀ a, (f a).Tidy P fun _ _ => True)
    (l : List α) : (l.mapM f).Tidy P fun _ _ => True := by
  induction l with
  | nil => exact tidy_pure trivial
  | cons a l ih =>
    rw [List.mapM_cons]
    exact (hf a).bind fun r _ _ => ih.bind fun rs _ _ => tidy_pure trivial

end Tidy

end Session

namespace Device

variable (d : Device σ) {P : Call → Prop}

/-- A call is all that is logged of it. -/
theorem logs_call (c : Call) :
    (d.logged.call c).Logs fun r log =>
      ∃ answer : Except DeviceError c.Answer, log = [⟨c, answer⟩] ∧
        r = answer.mapError Failure.device := by
  intro b
  refine ⟨[⟨c, (d.answer c b.device.1).1⟩], ?_, _, rfl, ?_⟩
  · unfold Bench.log
    rw [device_call]
    rfl
  · unfold Session.on call logged
    simp only
    cases (d.answer c b.device.1).1 <;> rfl

theorem tidy_call {c : Call} (hc : P c) :
    (d.logged.call c).Tidy P fun a log => log = [⟨c, .ok a⟩] := by
  refine Session.Logs.mono (d.logs_call c) ?_
  rintro _ _ ⟨answer, rfl, rfl⟩
  refine ⟨by simpa using hc, halts_singleton _, fun a ha => ?_⟩
  cases answer with
  | error e => cases ha
  | ok a =>
    cases ha
    exact ⟨by simp [Entry.Succeeded], rfl⟩

theorem tidy_call_bind {c : Call} (hc : P c) {f : c.Answer → Session (Logged σ) β}
    {R : β → List Entry → Prop} (hf : ∀ a, (f a).Tidy P fun r log => R r (⟨c, .ok a⟩ :: log)) :
    (d.logged.call c >>= f).Tidy P R := by
  refine (d.tidy_call hc).bind ?_
  rintro a _ rfl
  exact hf a

/-- The questions for the times of a command, with the answers. -/
def timings (event queued start finish : Nat) : List Entry :=
  [⟨.timestamp event .queued, .ok queued⟩, ⟨.timestamp event .start, .ok start⟩,
    ⟨.timestamp event .finish, .ok finish⟩]

theorem tidy_recordEvent (hP : ∀ event moment, P (.timestamp event moment)) (stage : Stage)
    (event : Nat) :
    (d.logged.recordEvent stage event).Tidy P fun _ log =>
      ∃ queued start finish, log = timings event queued start finish := by
  refine d.tidy_call_bind (hP event .queued) fun queued => ?_
  refine d.tidy_call_bind (hP event .start) fun start => ?_
  refine d.tidy_call_bind (hP event .finish) fun finish => ?_
  exact Session.tidy_modify (fun _ => rfl) ⟨queued, start, finish, rfl⟩

end Device

end KernelDiff

import KernelDiff.Proofs.Device.Log
import KernelDiff.Proofs.Execution.Entries

namespace KernelDiff

/-!
# Memory for the values of a caller

Entries are read on the host. All that a device has to do with the making of arguments from them is
memory for the buffers, which it may not have.

* `Session.Allocates` — a session that allocates and that fails otherwise only as it is wanted to;
* `Signature.allocates_argumentsFrom` — the making of arguments is such a session;
* `Signature.arguments_of_entries` — so arguments hold the entries of the caller for their
  parameters, or the failure names the first text that cannot be read.
-/

variable {σ : Type} {d : Device σ}

/-- The call allocates a buffer. -/
def Call.IsAllocation : Call → Prop
  | createBuffer .. => True
  | _ => False

namespace Session

variable {α β γ δ : Type} {view : α → γ} {view' : β → δ} {want : Except Failure γ}
  {want' : Except Failure δ}

/-- The session does nothing on the device but allocate buffers. It comes to what is wanted, as
    far as `view` shows it, or it fails because an allocation has failed. -/
def Allocates (view : α → γ) (want : Except Failure γ) (x : Session (Logged σ) α) : Prop :=
  x.Logs fun r log => (∀ e ∈ log, e.call.IsAllocation) ∧
    (r.map view = want ∨ (∃ report, r = .error (.device report)) ∧ ∃ e ∈ log, ¬e.Succeeded)

theorem allocates_pure (a : α) :
    (pure a : Session (Logged σ) α).Allocates view (.ok (view a)) :=
  logs_pure ⟨by simp, .inl rfl⟩

theorem allocates_throw (e : Failure) :
    (throw e : Session (Logged σ) α).Allocates view (.error e) :=
  logs_throw ⟨by simp, .inl rfl⟩

theorem Allocates.bind {x : Session (Logged σ) α} {f : α → Session (Logged σ) β}
    (hx : x.Allocates view want) (herror : ∀ e, want = .error e → want' = .error e)
    (hok : ∀ r, want = .ok (view r) → (f r).Allocates view' want') :
    (x >>= f).Allocates view' want' := by
  refine Logs.bind hx ?_ ?_
  · rintro e log ⟨hcalls, hwant | ⟨⟨report, hreport⟩, hfailed⟩⟩
    · exact ⟨hcalls, .inl (herror e hwant.symm).symm⟩
    · cases hreport
      exact ⟨hcalls, .inr ⟨⟨report, rfl⟩, hfailed⟩⟩
  · rintro r log ⟨hcalls, hwant | ⟨⟨report, hreport⟩, -⟩⟩
    · refine Logs.mono (hok r hwant.symm) ?_
      rintro result log' ⟨hcalls', hresult⟩
      refine ⟨fun e he => (List.mem_append.1 he).elim (hcalls e) (hcalls' e), ?_⟩
      refine hresult.imp_right fun ⟨hreport, e, he, hfailed⟩ => ⟨hreport, e, ?_, hfailed⟩
      exact List.mem_append_right log he
    · cases hreport

end Session

theorem Device.allocates_call {c : Call} (hc : c.IsAllocation) :
    (d.logged.call c).Allocates (fun _ => ()) (.ok ()) := by
  refine Session.Logs.mono (d.logs_call c) ?_
  rintro _ _ ⟨answer, rfl, rfl⟩
  refine ⟨by simpa using hc, ?_⟩
  cases answer with
  | error report =>
    refine .inr ⟨⟨report, rfl⟩, _, List.mem_singleton_self _, ?_⟩
    rintro ⟨a, ha⟩
    cases ha
  | ok a => exact .inl rfl

/-- Memory is allocated, and nothing else about an argument changes. -/
theorem Argument.allocates_placed (a : Argument) :
    (a.placed d.logged).Allocates Argument.detached (.ok a.detached) := by
  cases a with
  | scalar v => exact Session.allocates_pure _
  | scratch t length => exact Session.allocates_pure _
  | buffer b =>
    have hcall (access : Access) : (d.logged.call (.createBuffer access b.host.length)).Allocates
        (fun _ => ()) (.ok ()) := d.allocates_call (by exact trivial)
    show (buffer <$> b.allocate d.logged).Allocates detached _
    unfold Buffer.allocate
    simp only [map_bind]
    exact (hcall _).bind (by simp) fun handle _ => Session.allocates_pure _

namespace Parameter

variable {p : Parameter} {sizes : LaunchSizes} {g g' : Generator} {a : Argument}

/-- Values on the host have no memory on the device. -/
theorem detached_of_input (h : p.input sizes g = .ok (a, g')) : a.detached = a := by
  have hbuffer (hspace : p.space = .global ∨ p.space = .constant) : a.detached = a := by
    rw [input_of_buffer hspace] at h
    split at h
    · cases h
      rfl
    · cases h
  cases hspace : p.space with
  | global => exact hbuffer (.inl hspace)
  | constant => exact hbuffer (.inr hspace)
  | workGroup =>
    rw [input_of_scratch hspace] at h
    cases h
    rfl
  | workItem =>
    rw [input_of_scalar hspace] at h
    split at h
    · cases h
      rfl
    · cases h

theorem Holds.of_detached {entry : List String} (h : p.Holds sizes entry a.detached) :
    p.Holds sizes entry a := by
  cases a with
  | buffer b =>
    cases h with
    | buffer space type_eq readOnly_eq whole parsed length_eq elements_eq =>
      exact .buffer space type_eq readOnly_eq whole parsed length_eq elements_eq
  | _ => exact h

end Parameter

namespace Signature

variable {s : Signature} {sizes : LaunchSizes} {g : Generator}

/-- Arguments are the values for their parameters, unless there is no memory for them. -/
theorem allocates_argumentsFrom (s : Signature) (sizes : LaunchSizes) (g : Generator) :
    (s.argumentsFrom d.logged sizes g).Allocates
      (fun r => (r.1.map Argument.detached, r.2)) (s.inputsFrom sizes g) := by
  induction s generalizing g with
  | nil => exact Session.allocates_pure _
  | cons p s ih =>
    unfold argumentsFrom inputsFrom
    cases hp : p.input sizes g with
    | error e =>
      rw [Parameter.argument_of_input_error hp]
      exact Session.allocates_throw e
    | ok r =>
      obtain ⟨a, g₁⟩ := r
      rw [Parameter.argument_of_input hp]
      simp only [bind_map_left]
      refine a.allocates_placed.bind (by simp) fun made hmade => ?_
      have hmade : made.detached = a :=
        (Except.ok.inj hmade).symm.trans (Parameter.detached_of_input hp)
      refine (ih g₁).bind (fun e h => by simp only [h, Except.map]) fun r hr => ?_
      simp only [hr, Except.map, ← hmade]
      exact Session.allocates_pure _

/-- Keeping a log does not change what comes of making arguments. -/
theorem arguments_logged (d : Device σ) (s : Signature) (sizes : LaunchSizes) (g : Generator)
    (b : Bench σ) (log : List Entry) :
    ((s.arguments d.logged sizes g).on (b.logging log)).1 = ((s.arguments d sizes g).on b).1 := by
  obtain ⟨halike, -⟩ := inStep_arguments d.inStep_logged sizes s g b (b.logging log) ⟨rfl, rfl⟩
  exact (halike.eq (fun _ _ => id) fun _ _ => Failure.Alike.eq).symm

/-- What arguments hold does not depend on where their memory is. -/
theorem Filled.of_detached {entries : List (List String)} {args : Arguments}
    (h : s.Filled sizes entries (args.map Argument.detached)) : s.Filled sizes entries args := by
  have hplace {n : Nat} {a : Argument} (ha : args[n]? = some a) :
      (args.map Argument.detached)[n]? = some a.detached := by
    rw [List.getElem?_map, ha, Option.map_some]
  refine ⟨by rw [← h.length_eq, List.length_map], fun n p a hp ha hinput => ?_,
    fun n p a hp ha hspace => ?_⟩
  · obtain ⟨entry, hentry, hholds⟩ := h.input n p _ hp (hplace ha) hinput
    exact ⟨entry, hentry, hholds.of_detached⟩
  · have hscratch := h.scratch n p _ hp (hplace ha) hspace
    cases a with
    | scratch t length => exact hscratch
    | _ => cases hscratch

variable {entries : List (List String)} {b : Bench σ} {c : Bench (Logged σ)}
  {r : Except Failure (Arguments × Generator)}

/-- **Entries come to their parameters.** Let there be as many entries as parameters that take a
    value, and memory for all buffers. Arguments are made exactly where each of these parameters
    can read the entry in its place. They hold what the entries say, and no entry is left. For other
    entries the failure names the text for which the first of them cannot be read. -/
theorem arguments_of_entries (hcount : entries.length = s.inputCount)
    (h : (s.argumentsFrom d.logged sizes (.ofInputs entries)).on (b.logging []) = (r, c))
    (hmemory : ∀ e ∈ c.log, e.call.IsAllocation → e.Succeeded) :
    ((s.arguments d sizes (.ofInputs entries)).on b).1 = r.map Prod.fst ∧
    ((∃ made, r = .ok made) ↔ List.Forall₂ Parameter.Reads s.inputParameters entries) ∧
    (∀ args g, r = .ok (args, g) →
      s.Filled sizes entries args ∧ g = .ofEntries [] entries.length) ∧
    ∀ e, r = .error e ↔ ∃ p text, FirstOffence s.inputParameters entries p text ∧
      e = .unreadableValue text p.type.name := by
  have hview : r.map (fun r => (r.1.map Argument.detached, r.2)) =
      s.inputsFrom sizes (.ofEntries entries entries.length) := by
    obtain ⟨log, hlog, hcalls, hr⟩ := (allocates_argumentsFrom s sizes _).exists_log h
    rcases hr with hr | ⟨-, e, he, hfailed⟩
    · exact hr
    · exact absurd (hmemory e (hlog ▸ List.mem_append_right _ he) (hcalls e he)) hfailed
  -- Either all entries can be read or there is a first one that cannot, and this decides it.
  have hok (hreads : List.Forall₂ Parameter.Reads s.inputParameters entries) :
      ∃ args, r = .ok (args, .ofEntries [] entries.length) ∧ s.Filled sizes entries args := by
    obtain ⟨values, hvalues, hfilled⟩ := @inputsFrom_of_reads s sizes _ entries.length hreads
    rw [hvalues] at hview
    cases r with
    | error e => cases hview
    | ok made =>
      obtain ⟨args, g⟩ := made
      cases hview
      exact ⟨args, rfl, hfilled.of_detached⟩
  have herror {p : Parameter} {text : String}
      (hfirst : FirstOffence s.inputParameters entries p text) :
      r = .error (.unreadableValue text p.type.name) := by
    rw [inputsFrom_of_firstOffence hfirst] at hview
    cases r with
    | error e =>
      cases hview
      rfl
    | ok made => cases hview
  have hmade : ((s.arguments d sizes (.ofInputs entries)).on b).1 = r.map Prod.fst := by
    rw [← arguments_logged d s sizes _ b [], arguments_eq_argumentsFrom, Session.on_map, h]
  refine ⟨hmade, ?_⟩
  rcases reads_or_firstOffence (hcount.trans s.length_inputParameters.symm) with
    hreads | ⟨p, text, hfirst⟩
  · obtain ⟨args, rfl, hfilled⟩ := hok hreads
    refine ⟨iff_of_true ⟨_, rfl⟩ hreads, ?_, fun e => iff_of_false nofun ?_⟩
    · rintro _ _ ⟨⟩
      exact ⟨hfilled, rfl⟩
    · rintro ⟨p, text, hfirst, -⟩
      cases herror hfirst
  · obtain rfl := herror hfirst
    refine ⟨iff_of_false nofun fun hreads => ?_, nofun, fun e => ⟨?_, ?_⟩⟩
    · obtain ⟨args, hmade, -⟩ := hok hreads
      cases hmade
    · rintro ⟨⟩
      exact ⟨p, text, hfirst, rfl⟩
    · rintro ⟨q, text', hfirst', rfl⟩
      exact herror hfirst'

/-- Entries of different lengths around work-group memory: two elements for three work items, and
    four elements. Where the second text of the first entry is that of no element, it is named,
    though the entries behind it cannot be read either. -/
theorem arguments_of_entries_mixed :
    let entries :=
      [["1.5", "-2"], ["( 1 ,2,3,+04)", "(5,6,7,8)", "(0,0,0,0)", "(255,0,0,1)"], ["true"]]
    let wrong := [["1", "one", "2"], ["(1,2,3)"], []]
    entries.length = mixedSignature.inputCount ∧ wrong.length = mixedSignature.inputCount ∧
    (∃ args c, (mixedSignature.argumentsFrom Simulator.device.logged ⟨3, 1⟩ (.ofInputs entries)).on
        (startBench.logging []) = (.ok (args, .ofEntries [] 3), c) ∧
      (∀ e ∈ c.log, e.Succeeded) ∧ args.map Argument.size = [6, 16, 4, 4] ∧
      mixedSignature.Filled ⟨3, 1⟩ entries args) ∧
    ((mixedSignature.arguments Simulator.device ⟨3, 1⟩ (.ofInputs wrong)).on startBench).1 =
      .error (.unreadableValue "one" "half") := by
  intro entries wrong
  let made := mixedSignature.argumentsFrom Simulator.device.logged ⟨3, 1⟩ (.ofInputs entries)
  let failed := mixedSignature.argumentsFrom Simulator.device.logged ⟨3, 1⟩ (.ofInputs wrong)
  have hmade : ∀ e ∈ (made.on (startBench.logging [])).2.log, e.Succeeded := by decide +kernel
  have hfailed : ∀ e ∈ (failed.on (startBench.logging [])).2.log, e.Succeeded := by decide +kernel
  refine ⟨rfl, rfl, ?_, ?_⟩
  · have hsizes : (made.on (startBench.logging [])).1.toOption.map
        (fun r => r.1.map Argument.size) = some [6, 16, 4, 4] := by decide +kernel
    obtain ⟨⟨args, g⟩, hargs, hsizes⟩ := Option.map_eq_some_iff.1 hsizes
    have hon := Session.on_eq_of_toOption hargs
    obtain ⟨-, -, hresult, -⟩ := arguments_of_entries rfl hon fun e he _ => hmade e he
    obtain ⟨hfilled, rfl⟩ := hresult args g rfl
    exact ⟨args, _, hon, hmade, hsizes, hfilled⟩
  · obtain ⟨hresult, -, -, herror⟩ := @arguments_of_entries _ Simulator.device mixedSignature
      ⟨3, 1⟩ wrong startBench _ _ rfl rfl fun e he _ => hfailed e he
    have hfirst : FirstOffence mixedSignature.inputParameters wrong
        ⟨0, "half*", .scalar .half, .global, true, false⟩ "one" := by
      have hone : Element.parse (.scalar .half) "1" = .ok [0x00, 0x3c] := by decide +kernel
      have hword : Element.parse (.scalar .half) "one" =
          .error (.unreadableValue "one" "half") := by decide +kernel
      refine .here (@Parameter.Offends.element _ ["1"] ["2"] "one" nofun ?_ ?_)
      · simpa using ⟨_, hone⟩
      · intro bytes hbytes
        cases hword.symm.trans hbytes
    rw [hresult, (herror _).2 ⟨_, _, hfirst, rfl⟩]
    rfl

end Signature

end KernelDiff

import PseudoAsm.Log
import PseudoAsm.Proofs.Machine.Running

/-!
# The log beside the output

What the log is told of program text does not depend on how long one waits for the text to come to a
result, and errors are never among it.  So a subscriber to errors alone hears nothing while programs
run.

* `stages_of_runFrom` — a run that has ended has no further steps;
* `interpretEvents_of_answer` — **the events of program text are the same with every patience that
  suffices**;
* `Interprets` — what program text comes to and what is told of it, with every such patience;
* `level_ne_error` — the events of program text are no errors;
* `transcript` — what emissions leave on a console;
* `transcript_of_logOff` — **with the log off a console holds what is printed**.
-/

namespace PseudoAsm

/-! ### Patience -/

namespace Processor

variable {p : Processor} {program : Program} {m : Machine}

/-- A run that has ended has no further steps. -/
theorem stages_of_runFrom (hp : p.IgnoresSettings program) {patience more taken : Nat}
    {answer : Except Trap Status × Machine} (hunlimited : m.settings.maxSteps = none)
    (h : p.runFrom program patience taken m = some answer) (hmore : patience ≤ more) :
    p.stages program more m = p.stages program patience m := by
  induction patience generalizing more taken m with
  | zero =>
    rw [runFrom] at h
    cases h
  | succ patience ih =>
    obtain ⟨more, rfl⟩ : ∃ rest, more = rest + 1 := ⟨more - 1, by omega⟩
    have hsettings : ((p.step program).on m).2.settings = m.settings := settings_machineAt hp m 1
    rw [runFrom_allowed (Settings.allows_of_unlimited hunlimited _)] at h
    rw [stages, stages, stage]
    rcases hstep : (p.step program).on m with ⟨trap | status, after⟩
    · rfl
    · rw [hstep] at h hsettings
      cases status with
      | running =>
        have hafter : after.settings.maxSteps = none := by rw [hsettings, hunlimited]
        exact congrArg (_ :: ·) (ih hafter h (by omega))
      | ended | fellThrough => rfl

/-- The events of a run that returns are the same with more patience. -/
theorem runEvents_of_answer (hp : p.IgnoresSettings program) {patience more : Nat}
    {outcome : Except Trap (Option String) × Machine}
    (h : p.run patience program m = some outcome) (hmore : patience ≤ more) :
    p.runEvents more program m = p.runEvents patience program m := by
  obtain ⟨halted, hhalted, -⟩ := Option.map_eq_some_iff.1 h
  have hhistory : p.history more program m = p.history patience program m := by
    unfold history
    cases hlimit : m.settings.maxSteps with
    | some limit => rfl
    | none => exact stages_of_runFrom hp hlimit hhalted hmore
  rw [runEvents, runEvents, hhistory, hhalted, runFrom_mono hhalted hmore]

end Processor

section Interpreting

variable {settings : Settings} {source : String} {patience : Nat}

theorem interpret_of_assemble_error {cause : ResolveError} (h : assemble source = .error cause) :
    interpret patience settings source = some (.error (.unresolved cause)) := by
  rw [interpret, h]

theorem interpret_of_assemble_ok {program : Program} (h : assemble source = .ok program) :
    interpret patience settings source
      = (Processor.standard.run patience program (.fresh settings)).map fun outcome =>
          outcome.1.mapError .trapped := by
  rw [interpret, h]

/-- More patience keeps a result. -/
theorem interpret_mono {more : Nat} {result : Except Failure (Option String)}
    (h : interpret patience settings source = some result) (hmore : patience ≤ more) :
    interpret more settings source = some result := by
  cases hassembled : assemble source with
  | error cause =>
    rw [interpret_of_assemble_error hassembled] at h ⊢
    exact h
  | ok program =>
    rw [interpret_of_assemble_ok hassembled] at h ⊢
    obtain ⟨outcome, hrun, rfl⟩ := Option.map_eq_some_iff.1 h
    exact Option.map_eq_some_iff.2 ⟨outcome, Processor.run_mono hrun hmore, rfl⟩

/-- **The events of program text that comes to a result are the same with more patience.** -/
theorem interpretEvents_of_answer {more : Nat} {result : Except Failure (Option String)}
    (h : interpret patience settings source = some result) (hmore : patience ≤ more) :
    interpretEvents more settings source = interpretEvents patience settings source := by
  cases hassembled : assemble source with
  | error cause => rw [interpretEvents, interpretEvents, hassembled]
  | ok program =>
    have hp : Processor.standard.IgnoresSettings program := ignoresSettings .standard program
    rw [interpret_of_assemble_ok hassembled] at h
    obtain ⟨outcome, hrun, -⟩ := Option.map_eq_some_iff.1 h
    rw [interpretEvents, interpretEvents, hassembled]
    simp only [Processor.runEvents_of_answer hp hrun hmore]

/-- With some patience program text comes to a result, and the log is told some events. -/
def Interprets (settings : Settings) (source : String) (result : Except Failure (Option String))
    (events : List LogEvent) : Prop :=
  ∃ patience, interpret patience settings source = some result
    ∧ interpretEvents patience settings source = events

/-- Under a step limit every text comes to a result. -/
theorem exists_interprets (hlimit : settings.maxSteps ≠ none) (source : String) :
    ∃ result events, Interprets settings source result events := by
  obtain ⟨limit, hlimit⟩ := Option.ne_none_iff_exists'.1 hlimit
  cases hassembled : assemble source with
  | error cause => exact ⟨_, _, 0, interpret_of_assemble_error hassembled, rfl⟩
  | ok program =>
    have hp : Processor.standard.IgnoresSettings program := ignoresSettings .standard program
    obtain ⟨outcome, hrun⟩ := Processor.exists_run_of_limit (m := .fresh settings) hp hlimit
    exact ⟨_, _, limit + 1, by rw [interpret_of_assemble_ok hassembled, hrun, Option.map_some], rfl⟩

end Interpreting

/-! ### What events there are -/

section Events

variable {event : LogEvent}

/-- A resolution tells of targets. -/
theorem mem_resolutionEvents {targeted : List String} {program : Program}
    (h : event ∈ resolutionEvents targeted program) :
    ∃ label address index, event = .targetResolved label address index := by
  obtain ⟨⟨ins, index⟩, -, hevent⟩ := List.mem_filterMap.1 h
  obtain ⟨label, -, hevent⟩ := Option.bind_eq_some_iff.1 hevent
  obtain ⟨address, -, hevent⟩ := Option.bind_eq_some_iff.1 hevent
  cases hevent
  exact ⟨label, address, index, rfl⟩

example : resolutionEvents ["jmp"]
      [⟨"jmp", ["C"]⟩, ⟨"jmp", ["1"]⟩, ⟨"c:", []⟩, ⟨"jmp", ["d"]⟩, ⟨"jmp", ["c"]⟩]
    = [.targetResolved "C" 2 0] := by decide +kernel

/-- A run tells of its steps and of its end. -/
theorem mem_runEvents {p : Processor} {patience : Nat} {program : Program} {m : Machine}
    (h : event ∈ p.runEvents patience program m) :
    (∃ address ins, event = .stepBegun address ins)
      ∨ ∃ result output, event = Processor.haltEvent result output := by
  rcases List.mem_append.1 h with hstep | hhalt
  · obtain ⟨stage, -, hevent⟩ := List.mem_filterMap.1 hstep
    obtain ⟨executed, -, rfl⟩ := Option.map_eq_some_iff.1 hevent
    exact .inl ⟨_, _, rfl⟩
  · obtain ⟨halted, -, rfl⟩ := Option.map_eq_some_iff.1 (Option.mem_toList.1 hhalt)
    exact .inr ⟨_, _, rfl⟩

theorem level_haltEvent_ne_error (result : Except Trap Status) (output : Option String) :
    (Processor.haltEvent result output).level ≠ .error := by
  cases result with
  | error trap => nofun
  | ok status => cases status <;> nofun

/-- **The events of program text are no errors**: that a program failed is told by those who ran
it. -/
theorem level_ne_error {patience : Nat} {settings : Settings} {source : String}
    (h : event ∈ interpretEvents patience settings source) : event.level ≠ .error := by
  have hresolved (hresolving : event ∈ resolutionEvents InstructionSet.standard.addressMnemonics
      (Program.ofSource source)) : event.level ≠ .error := by
    obtain ⟨label, address, index, rfl⟩ := mem_resolutionEvents hresolving
    nofun
  unfold interpretEvents at h
  cases hassembled : assemble source with
  | error cause =>
    rw [hassembled] at h
    exact hresolved h
  | ok program =>
    rw [hassembled] at h
    rcases List.mem_append.1 h with hresolving | hrunning
    · exact hresolved hresolving
    · obtain ⟨address, ins, rfl⟩ | ⟨result, output, rfl⟩ := mem_runEvents hrunning
      · nofun
      · exact level_haltEvent_ne_error result output

end Events

/-! ### Transcripts -/

/-- Nothing is heard. -/
def LogOff (log : Option Subscriber) : Prop :=
  ∀ event, ¬LogEvent.IsHeard log event

/-- Errors at most are heard. -/
def ErrorsAlone (log : Option Subscriber) : Prop :=
  ∀ event, LogEvent.IsHeard log event → event.level = .error

/-- What emissions leave on a console. -/
def transcript (log : Option Subscriber) (emissions : List Emission) : String :=
  (({} : Console).emitAll log emissions).text

/-- What an emission leaves when the log is off. -/
def Emission.text : Emission → String
  | .printed text => text
  | .told _ => ""

/-- **With the log off a console holds what is printed.** -/
theorem transcript_of_logOff {log : Option Subscriber} (h : LogOff log)
    (emissions : List Emission) :
    transcript log emissions = String.join (emissions.map Emission.text) := by
  suffices haccumulated : ∀ console : Console, (console.emitAll log emissions).text
      = console.text ++ String.join (emissions.map Emission.text) from haccumulated {}
  induction emissions with
  | nil => simp [Console.emitAll]
  | cons emission emissions ih =>
    intro console
    rw [Console.emitAll_cons, ih]
    cases emission with
    | printed text => simp [Emission.text, String.append_assoc]
    | told event => simp [Emission.text, Console.emit_of_unheard (h event)]

end PseudoAsm

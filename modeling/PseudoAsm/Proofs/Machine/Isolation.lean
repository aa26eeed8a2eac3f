import Mathlib.Data.List.Forall2
import PseudoAsm.Proofs.Machine.Running

/-!
# What failed steps and finished runs leave behind

Nothing: a step that traps leaves the machine as it was, and a run that returns leaves it as if it
were new.

* `step_error_unchanged` — **a step that traps changes no part of the machine**, with every table
  of mnemonics;
* `Processor.Leaves` — a run comes to an answer and leaves a machine;
* `Processor.RunsInTurn` — programs run on one machine, one after the other;
* `leaves_iff` — a run leaves what the program leaves alone on a new machine, and only that;
* `runs_in_turn_isolated` — **no state crosses a run**, wherever the machine starts.
-/

namespace PseudoAsm

/-! ### Failed steps -/

/-- Where a step traps, the instruction under the pointer does, and the machine is left as it was. -/
theorem sent_eq_error {program : Program} {m after : Machine} {trap : Trap}
    {e : Except Trap (Flow × Machine)} (h : sent program m e = (.error trap, after)) :
    e = .error trap ∧ after = m := by
  cases e with
  | error raised =>
    cases h
    exact ⟨rfl, rfl⟩
  | ok executed =>
    obtain ⟨flow, left⟩ := executed
    cases flow <;> cases h

/-- **A step that traps changes nothing**: the machine afterwards is the machine before in every
part, whatever state it is in and whatever operations the mnemonics stand for. -/
theorem step_error_unchanged (instructions : InstructionSet) (program : Program)
    (m after : Machine) (trap : Trap)
    (h : (instructions.processor.step program).on m = (.error trap, after)) : after = m := by
  cases hfetch : instructions.processor.fetch program m.ip with
  | outside =>
    rw [Processor.step_outside hfetch] at h
    cases h
  | unknown name =>
    rw [Processor.step_unknown hfetch] at h
    cases h
    rfl
  | ready ins op =>
    rw [step_eq_sent hfetch] at h
    exact (sent_eq_error h).2

/-- A table in which `say` is a message and `push` a call. -/
def renamedInstructions : InstructionSet :=
  [⟨"say", .msg, .variadic⟩, ⟨"push", .call, .address⟩]

/-- A machine in the middle of its work. -/
def busyMachine : Machine where
  ip := 1
  status := .ofBits 23
  registers := .insert (.insert .empty "a" 7) "Kept" (-1)
  callStack := [9, 4]
  output := some "old"
  settings := { maxSteps := some 6 }

/-- A message that fails at its last part keeps the old output, and a call whose target is no
address leaves no return address. -/
theorem step_error_unchanged_busy :
    ((renamedInstructions.processor.step [⟨"push", ["x"]⟩, ⟨"say", ["'a = '", "A", "kept"]⟩]).on
        busyMachine = (.error (.unknownRegister "kept"), busyMachine))
      ∧ (renamedInstructions.processor.step [⟨"say", []⟩, ⟨"push", ["x"]⟩]).on busyMachine
        = (.error (.malformedNumericLiteral "x"), busyMachine) := by
  have hsay : ((renamedInstructions.processor.step
      [⟨"push", ["x"]⟩, ⟨"say", ["'a = '", "A", "kept"]⟩]).on busyMachine).1
        = .error (.unknownRegister "kept") := by decide +kernel
  have hpush : ((renamedInstructions.processor.step [⟨"say", []⟩, ⟨"push", ["x"]⟩]).on
      busyMachine).1 = .error (.malformedNumericLiteral "x") := by decide +kernel
  constructor
  · exact Prod.ext hsay (step_error_unchanged _ _ _ _ _ (Prod.ext hsay rfl))
  · exact Prod.ext hpush (step_error_unchanged _ _ _ _ _ (Prod.ext hpush rfl))

/-! ### Finished runs -/

namespace Processor

/-- With some patience the run of a program on a machine gives an answer and leaves a machine. -/
def Leaves (p : Processor) (program : Program) (m : Machine)
    (outcome : Except Trap (Option String) × Machine) : Prop :=
  ∃ patience, p.run patience program m = some outcome

/-- Programs are run one after the other, each on the machine that the run before it leaves, and
all runs return. -/
inductive RunsInTurn (p : Processor) :
    Machine → List Program → List (Except Trap (Option String) × Machine) → Prop
  | done (m : Machine) : RunsInTurn p m [] []
  | next {m : Machine} {program : Program} {programs : List Program}
      {outcome : Except Trap (Option String) × Machine}
      {outcomes : List (Except Trap (Option String) × Machine)}
      (hrun : p.Leaves program m outcome) (hrest : RunsInTurn p outcome.2 programs outcomes) :
      RunsInTurn p m (program :: programs) (outcome :: outcomes)

variable {p : Processor} {program : Program} {m : Machine}
  {outcome other : Except Trap (Option String) × Machine}

theorem Leaves.unique (h : p.Leaves program m outcome) (hother : p.Leaves program m other) :
    other = outcome := by
  obtain ⟨patience, hrun⟩ := h
  obtain ⟨patience', hrun'⟩ := hother
  exact run_unique hrun hrun'

/-- Of the state of a machine only its settings matter to a run, since the run starts by a reset. -/
theorem leaves_fresh_iff : p.Leaves program (.fresh m.settings) outcome
    ↔ p.Leaves program m outcome :=
  Iff.rfl

/-- A run leaves what the program leaves alone on a new machine, and only that. -/
theorem leaves_iff (hp : p.IgnoresSettings program) :
    p.Leaves program m outcome
      ↔ (∀ other, p.Leaves program (.fresh m.settings) other ↔ other = outcome)
        ∧ outcome.2 = .fresh m.settings := by
  constructor
  · intro h
    refine ⟨?_, ?_⟩
    · intro other
      constructor
      · intro hother
        exact h.unique (leaves_fresh_iff.1 hother)
      · rintro rfl
        exact leaves_fresh_iff.2 h
    · obtain ⟨patience, hrun⟩ := h
      exact run_reset hp hrun
  · rintro ⟨honly, -⟩
    exact leaves_fresh_iff.1 ((honly outcome).2 rfl)

end Processor

/-- **No state crosses a run.**  Programs run one after the other on a machine in any state whatever
answer one by one what each of them answers alone on a new machine with the same settings, and after
each of them the machine is that new machine.  If all of them return alone, they do in turn. -/
theorem runs_in_turn_isolated (m : Machine) (programs : List Program)
    (outcomes : List (Except Trap (Option String) × Machine)) :
    Processor.standard.RunsInTurn m programs outcomes
      ↔ List.Forall₂ (fun program outcome =>
          (∀ other, Processor.standard.Leaves program (.fresh m.settings) other ↔ other = outcome)
            ∧ outcome.2 = .fresh m.settings) programs outcomes := by
  have hp (program : Program) : Processor.standard.IgnoresSettings program :=
    ignoresSettings .standard program
  induction programs generalizing m outcomes with
  | nil =>
    constructor
    · intro h
      cases h
      exact .nil
    · intro h
      cases h
      exact .done m
  | cons program programs ih =>
    constructor
    · intro h
      cases h with
      | @next _ _ _ outcome outcomes hrun hrest =>
        obtain ⟨honly, hleft⟩ := (Processor.leaves_iff (hp program)).1 hrun
        rw [hleft] at hrest
        exact .cons ⟨honly, hleft⟩ ((ih (.fresh m.settings) outcomes).1 hrest)
    · intro h
      cases h with
      | @cons _ outcome _ outcomes halone hothers =>
        have hrest := (ih (.fresh m.settings) outcomes).2 hothers
        rw [← halone.2] at hrest
        exact .next ((Processor.leaves_iff (hp program)).2 halone) hrest

/-- Four programs that end, fall through, trap and go on for ever.  The third one reads the register
that the first one writes, and returns where the second one calls. -/
def mixedPrograms : List Program :=
  [[⟨"mov", ["b", "5"]⟩, ⟨"msg", ["b"]⟩, ⟨"end", []⟩],
    [⟨"call", ["1"]⟩, ⟨"msg", ["'lost'"]⟩],
    [⟨"msg", ["'b = '", "b"]⟩, ⟨"ret", []⟩],
    [⟨"jmp", ["0"]⟩]]

/-- What they answer with a limit of six steps, and the machines that they leave. -/
def mixedOutcomes : List (Except Trap (Option String) × Machine) :=
  [(.ok (some "5"), .fresh { maxSteps := some 6 }),
    (.ok none, .fresh { maxSteps := some 6 }),
    (.error (.unknownRegister "b"), .fresh { maxSteps := some 6 }),
    (.error (.stepLimit 6), .fresh { maxSteps := some 6 })]

/-- The four programs answer on a machine in the middle of its work what they answer alone. -/
theorem runs_in_turn_isolated_mixed :
    Processor.standard.RunsInTurn busyMachine mixedPrograms mixedOutcomes
      ∧ List.Forall₂ (fun program outcome =>
          (∀ other, Processor.standard.Leaves program (.fresh { maxSteps := some 6 }) other
            ↔ other = outcome) ∧ outcome.2 = .fresh { maxSteps := some 6 })
        mixedPrograms mixedOutcomes := by
  have hruns : Processor.standard.RunsInTurn busyMachine mixedPrograms mixedOutcomes := by
    refine .next ⟨8, ?_⟩ (.next ⟨8, ?_⟩ (.next ⟨8, ?_⟩ (.next ⟨8, ?_⟩ (.done _)))) <;>
      decide +kernel
  exact ⟨hruns, (runs_in_turn_isolated busyMachine mixedPrograms mixedOutcomes).1 hruns⟩

end PseudoAsm

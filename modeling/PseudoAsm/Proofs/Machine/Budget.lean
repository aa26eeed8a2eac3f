import PseudoAsm.Proofs.Machine.Running

/-!
# The step limit

What a step limit makes of a run, with every table of mnemonics.

* `Machine.limitedTo` — a machine with a step limit, or with none;
* `Processor.Returns` — a run comes to an answer;
* `Processor.runCounted` — the loop of a run, erased by `runCounted_answer` to the run itself, with
  the counter and the machine of every step it takes;
* `returns_limitedTo_of_haltsAt`, `returns_limitedTo_of_goesOn` — the only answer of a machine that
  halts within its limit, and of one that does not;
* `step_budget` — **a run reports its limit exactly if so many steps leave the machine running, and
  answers as without a limit otherwise**.
-/

namespace PseudoAsm

/-- The machine with a step limit, or with none. -/
def Machine.limitedTo (m : Machine) (limit : Option Nat) : Machine :=
  m.withSettings { maxSteps := limit }

namespace Processor

variable {p : Processor} {program : Program} {m : Machine}

/-- With some patience the run of a program comes to an answer, and the machine is reset. -/
def Returns (p : Processor) (program : Program) (m : Machine)
    (answer : Except Trap (Option String)) : Prop :=
  ∃ patience, p.run patience program m = some (answer, m.reset)

/-! ### The only answer -/

/-- A run that answers once its patience is long enough has one answer. -/
theorem returns_iff_of_run {n : Nat} {found answer : Except Trap (Option String)}
    (hrun : ∀ patience, p.run patience program m
      = if n < patience then some (found, m.reset) else none) :
    p.Returns program m answer ↔ answer = found := by
  constructor
  · rintro ⟨patience, hanswer⟩
    rw [hrun patience] at hanswer
    by_cases hn : n < patience
    · rw [if_pos hn, Option.some.injEq, Prod.mk.injEq] at hanswer
      exact hanswer.1.symm
    · rw [if_neg hn] at hanswer
      cases hanswer
  · rintro rfl
    refine ⟨n + 1, ?_⟩
    rw [hrun (n + 1), if_pos (Nat.lt_succ_self n)]

/-- A machine that halts within its limit has one answer, the same for every limit. -/
theorem returns_limitedTo_of_haltsAt (hp : p.IgnoresSettings program) {n : Nat}
    (hhalts : p.HaltsAt program (.fresh {}) n) {limit : Option Nat}
    (hlimit : ∀ steps, limit = some steps → n < steps) {answer : Except Trap (Option String)} :
    p.Returns program (m.limitedTo limit) answer
      ↔ answer = released (p.resultAt program (.fresh {}) n)
          (p.machineAt program (.fresh {}) (n + 1)).output := by
  have hhalts' : p.HaltsAt program (m.limitedTo limit).reset n :=
    (haltsAt_withSettings hp (.fresh {}) _ n).2 hhalts
  have hresult : p.resultAt program (m.limitedTo limit).reset n
      = p.resultAt program (.fresh {}) n :=
    resultAt_withSettings hp (.fresh {}) { maxSteps := limit } n
  have houtput : (p.machineAt program (m.limitedTo limit).reset (n + 1)).output
      = (p.machineAt program (.fresh {}) (n + 1)).output := by
    have hmachine := machineAt_withSettings hp (.fresh {}) { maxSteps := limit } (n + 1)
    exact (congrArg Machine.output hmachine :)
  have hrun := run_of_haltsAt hp hhalts' hlimit
  rw [hresult, houtput] at hrun
  exact returns_iff_of_run hrun

/-- A machine that does not halt within its limit reports it, and nothing else. -/
theorem returns_limitedTo_of_goesOn (hp : p.IgnoresSettings program) {limit : Nat}
    (hgoes : p.GoesOn program (.fresh {}) limit) {answer : Except Trap (Option String)} :
    p.Returns program (m.limitedTo (some limit)) answer ↔ answer = .error (.stepLimit limit) := by
  have hgoes' : p.GoesOn program (m.limitedTo (some limit)).reset limit :=
    (goesOn_withSettings hp (.fresh {}) _ limit).2 hgoes
  exact returns_iff_of_run (run_of_limit hp hgoes' rfl)

/-! ### The counter -/

/-- A step that a run takes: the counter as it is raised for the step, and the machine before. -/
structure Turn where
  counter : Nat
  machine : Machine

/-- The answer of the loop of a run, with the steps it took. -/
structure CountedRun where
  answer : Option (Except Trap Status × Machine)
  turns : List Turn

/-- `runFrom`, with the steps it takes. -/
def runCounted (p : Processor) (program : Program) :
    (patience taken : Nat) → Machine → CountedRun
  | 0, _, _ => ⟨none, []⟩
  | patience + 1, taken, m =>
    match m.settings.maxSteps.filter (· ≤ taken) with
    | some limit => ⟨some (.error (.stepLimit limit), m), []⟩
    | none =>
      let turn : Turn := ⟨taken + 1, m⟩
      match (p.step program).on m with
      | (.ok .running, after) =>
        let rest := runCounted p program patience (taken + 1) after
        ⟨rest.answer, turn :: rest.turns⟩
      | halted => ⟨some halted, [turn]⟩

/-- Counting changes nothing. -/
theorem runCounted_answer (p : Processor) (program : Program) (patience taken : Nat)
    (m : Machine) :
    (p.runCounted program patience taken m).answer = p.runFrom program patience taken m := by
  induction patience generalizing taken m with
  | zero => rfl
  | succ patience ih =>
    rw [runCounted, runFrom]
    cases m.settings.maxSteps.filter (· ≤ taken) with
    | some limit => rfl
    | none =>
      rcases (p.step program).on m with ⟨trap | status, after⟩
      · rfl
      · cases status with
        | running => exact ih (taken + 1) after
        | ended | fellThrough => rfl

/-- The counter rises by one with every turn. -/
theorem runCounted_counters (p : Processor) (program : Program) (patience taken : Nat)
    (m : Machine) :
    (p.runCounted program patience taken m).turns.map Turn.counter
      = List.range' (taken + 1) (p.runCounted program patience taken m).turns.length := by
  induction patience generalizing taken m with
  | zero => rfl
  | succ patience ih =>
    rw [runCounted]
    cases m.settings.maxSteps.filter (· ≤ taken) with
    | some limit => rfl
    | none =>
      rcases (p.step program).on m with ⟨trap | status, after⟩
      · rfl
      · cases status with
        | running => exact congrArg ((taken + 1) :: ·) (ih (taken + 1) after)
        | ended | fellThrough => rfl

/-- The turns of a run with a limit are its stages, as many as the limit leaves at most. -/
theorem runCounted_stages (hp : p.IgnoresSettings program) {limit taken : Nat}
    (hlimit : m.settings.maxSteps = some limit) (patience : Nat) :
    (p.runCounted program patience taken m).turns.map (fun turn => p.stage program turn.machine)
      = p.stages program (min patience (limit - taken)) m := by
  induction patience generalizing taken m with
  | zero =>
    rw [Nat.zero_min]
    rfl
  | succ patience ih =>
    rw [runCounted]
    by_cases hfull : limit ≤ taken
    · have hfilter : m.settings.maxSteps.filter (· ≤ taken) = some limit := by
        rw [hlimit, Option.filter_some, if_pos (decide_eq_true hfull)]
      rw [hfilter, show limit - taken = 0 by omega, Nat.min_zero]
      rfl
    · have hfilter : m.settings.maxSteps.filter (· ≤ taken) = none := by
        rw [hlimit, Option.filter_some, if_neg (by rw [decide_eq_true_iff]; exact hfull)]
      have hleft : min (patience + 1) (limit - taken) = min patience (limit - (taken + 1)) + 1 := by
        omega
      rw [hfilter, hleft, stages]
      rcases hstep : (p.step program).on m with ⟨result, after⟩
      have hstage : p.stage program m = ⟨p.event? program m, result, after⟩ := by
        rw [stage, hstep]
      have hafter : after.settings.maxSteps = some limit := by
        rw [← hlimit, ← settings_machineAt hp m 1, machineAt_succ, machineAt_zero, hstep]
      rw [hstage]
      rcases result with trap | status
      · exact congrArg ([·]) hstage
      · cases status with
        | running =>
          show p.stage program m :: _ = _ :: _
          rw [hstage, ih hafter]
        | ended | fellThrough => exact congrArg ([·]) hstage

/-- A run with a limit takes no more steps than that. -/
theorem length_runCounted_le (hp : p.IgnoresSettings program) {limit : Nat}
    (hlimit : m.settings.maxSteps = some limit) (patience : Nat) :
    (p.runCounted program patience 0 m).turns.length ≤ limit := by
  have hstaged : (p.runCounted program patience 0 m).turns.map
      (fun turn => p.stage program turn.machine) = p.stages program (min patience (limit - 0)) m :=
    runCounted_stages hp hlimit patience
  have hlength := congrArg List.length hstaged
  rw [List.length_map] at hlength
  have hstages := length_stages_le p program (min patience (limit - 0)) m
  omega

/-- The counter of a run with a limit stays within it. -/
theorem counter_le (hp : p.IgnoresSettings program) {limit patience : Nat}
    (hlimit : m.settings.maxSteps = some limit) {turn : Turn}
    (hturn : turn ∈ (p.runCounted program patience 0 m).turns) : turn.counter ≤ limit := by
  have hmem := List.mem_map_of_mem (f := Turn.counter) hturn
  rw [runCounted_counters, List.mem_range'_1] at hmem
  have hlength := length_runCounted_le hp hlimit patience
  omega

/-- The stages of a run with a limit are the turns of its loop, if the patience suffices. -/
theorem runCounted_history (hp : p.IgnoresSettings program) {limit patience : Nat}
    (hlimit : m.settings.maxSteps = some limit) (hpatience : limit ≤ patience) :
    (p.runCounted program patience 0 m.reset).turns.map (fun turn => p.stage program turn.machine)
      = p.history patience program m := by
  have hreset : m.reset.settings.maxSteps = some limit := hlimit
  rw [runCounted_stages hp hreset, history, hlimit, Option.getD_some, Nat.sub_zero,
    Nat.min_eq_right hpatience]

/-- The loop of a run with a 64-bit limit gives the executor at most as many instructions as the
limit, those of the listed stages, and its counter does not overflow. -/
theorem exists_turns (hp : p.IgnoresSettings program) (m : Machine) {limit : Nat}
    (hlimit : limit < Numeral.nat64Bound) (patience : Nat) :
    ∃ turns : List Turn,
      p.runCounted program patience 0 (.fresh { maxSteps := some limit })
        = ⟨p.runFrom program patience 0 (.fresh { maxSteps := some limit }), turns⟩
      ∧ (turns.filterMap fun turn => p.event? program turn.machine).length ≤ limit
      ∧ (limit ≤ patience → turns.map (fun turn => p.stage program turn.machine)
          = p.history patience program (m.limitedTo (some limit)))
      ∧ ∀ turn ∈ turns, turn.counter < Numeral.nat64Bound := by
  have hanswer := p.runCounted_answer program patience 0 (.fresh { maxSteps := some limit })
  refine ⟨_, by rw [← hanswer], ?_, ?_, ?_⟩
  · exact Nat.le_trans (List.length_filterMap_le _ _) (length_runCounted_le hp rfl patience)
  · intro hpatience
    have hlimited : (m.limitedTo (some limit)).settings.maxSteps = some limit := rfl
    exact runCounted_history hp hlimited hpatience
  · intro turn hturn
    exact Nat.lt_of_le_of_lt (counter_le hp rfl hturn) hlimit

end Processor

/-! ### The budget -/

theorem released_neverLimits {result : Except Trap Status} (h : NeverLimits result)
    (output : Option String) : NeverLimits (Processor.released result output) := by
  intro limit hlimit
  cases result with
  | error trap => exact h limit (by cases hlimit; rfl)
  | ok status => cases status <;> cases hlimit

/-- **The exact meaning of a step limit.**  A run of a machine with a limit reports the limit if and
only if that many steps from the fresh machine all leave it running; otherwise it answers exactly
what the run without a limit answers.  It always answers, and only one thing.  Its loop gives the
executor at most as many instructions as the limit, the listed ones, and its counter stays within 64
bits.  An answer other than the limit is also the answer with every greater limit and with none. -/
theorem step_budget (instructions : InstructionSet) (program : Program) (m : Machine)
    (limit : Nat) (hlimit : limit < Numeral.nat64Bound) :
    (instructions.processor.Returns program (m.limitedTo (some limit)) (.error (.stepLimit limit))
      ↔ instructions.processor.GoesOn program (.fresh { maxSteps := some limit }) limit)
    ∧ (¬instructions.processor.GoesOn program (.fresh { maxSteps := some limit }) limit →
      ∀ answer, instructions.processor.Returns program (m.limitedTo (some limit)) answer
        ↔ instructions.processor.Returns program (m.limitedTo none) answer)
    ∧ (∃ answer, ∀ other,
      instructions.processor.Returns program (m.limitedTo (some limit)) other ↔ other = answer)
    ∧ (∀ patience, ∃ turns : List Processor.Turn,
      instructions.processor.runCounted program patience 0 (.fresh { maxSteps := some limit })
        = ⟨instructions.processor.runFrom program patience 0 (.fresh { maxSteps := some limit }),
          turns⟩
      ∧ (turns.filterMap fun turn => instructions.processor.event? program turn.machine).length
        ≤ limit
      ∧ (limit ≤ patience →
        turns.map (fun turn => instructions.processor.stage program turn.machine)
          = instructions.processor.history patience program (m.limitedTo (some limit)))
      ∧ ∀ turn ∈ turns, turn.counter < Numeral.nat64Bound)
    ∧ ∀ answer, instructions.processor.Returns program (m.limitedTo (some limit)) answer →
      answer ≠ .error (.stepLimit limit) →
      ∀ greater : Option Nat, (∀ steps, greater = some steps → limit ≤ steps) →
        ∀ other, instructions.processor.Returns program (m.limitedTo greater) other
          ↔ other = answer := by
  have hp : instructions.processor.IgnoresSettings program := ignoresSettings instructions program
  have hfresh : instructions.processor.GoesOn program (.fresh { maxSteps := some limit }) limit
      ↔ instructions.processor.GoesOn program (.fresh {}) limit :=
    Processor.goesOn_withSettings hp (.fresh {}) _ limit
  have hturns := Processor.exists_turns hp m hlimit
  rw [hfresh]
  rcases Processor.goesOn_or_haltsAt instructions.processor program (.fresh {}) limit with
    hgoes | ⟨n, hn, hhalts⟩
  · -- The limit is reached: it is the only answer.
    have honly : ∀ answer, instructions.processor.Returns program (m.limitedTo (some limit)) answer
        ↔ answer = .error (.stepLimit limit) := by
      intro answer
      exact Processor.returns_limitedTo_of_goesOn hp hgoes
    refine ⟨iff_of_true ((honly _).2 rfl) hgoes, fun hnot => absurd hgoes hnot, ⟨_, honly⟩, hturns,
      ?_⟩
    intro answer hanswer hne
    exact absurd ((honly answer).1 hanswer) hne
  · -- The machine halts before: every limit from this one on, and none, leaves the same answer.
    have honly : ∀ greater : Option Nat, (∀ steps, greater = some steps → limit ≤ steps) →
        ∀ answer, instructions.processor.Returns program (m.limitedTo greater) answer
          ↔ answer = Processor.released
            (instructions.processor.resultAt program (.fresh {}) n)
            (instructions.processor.machineAt program (.fresh {}) (n + 1)).output := by
      intro greater hgreater answer
      apply Processor.returns_limitedTo_of_haltsAt hp hhalts
      intro steps hsteps
      exact Nat.lt_of_lt_of_le hn (hgreater steps hsteps)
    have hlimited := honly (some limit) fun steps hsteps => Nat.le_of_eq (Option.some.inj hsteps)
    have hunlimited := honly none fun steps hsteps => by cases hsteps
    refine ⟨iff_of_false ?_ (hhalts.not_goesOn hn), ?_, ⟨_, hlimited⟩, hturns, ?_⟩
    · rw [hlimited]
      exact (released_neverLimits (step_neverLimits instructions program _) _ limit).symm
    · intro _ answer
      rw [hlimited, hunlimited]
    · intro answer hanswer _ greater hgreater other
      rw [honly greater hgreater, (hlimited answer).1 hanswer]

/-- A program of two steps. -/
def briefProgram : Program :=
  [⟨"msg", ["'done'"]⟩, ⟨"end", []⟩]

/-- A limit of one step cuts the brief program off; from two steps on no limit matters to it. -/
theorem step_budget_brief :
    1 < Numeral.nat64Bound ∧ 2 < Numeral.nat64Bound
      ∧ InstructionSet.standard.processor.Returns briefProgram ((Machine.fresh {}).limitedTo (some 1))
        (.error (.stepLimit 1))
      ∧ ∀ greater : Option Nat, (∀ steps, greater = some steps → 2 ≤ steps) →
        ∀ other, InstructionSet.standard.processor.Returns briefProgram
            ((Machine.fresh {}).limitedTo greater) other
          ↔ other = .ok (some "done") := by
  have hone : 1 < Numeral.nat64Bound := by decide
  have htwo : 2 < Numeral.nat64Bound := by decide
  obtain ⟨hreports, -⟩ := step_budget .standard briefProgram (.fresh {}) 1 hone
  obtain ⟨-, -, -, -, hlasting⟩ := step_budget .standard briefProgram (.fresh {}) 2 htwo
  refine ⟨hone, htwo, hreports.2 ?_, hlasting (.ok (some "done")) ⟨3, rfl⟩ nofun⟩
  intro i hi
  obtain rfl : i = 0 := by omega
  rfl

end PseudoAsm

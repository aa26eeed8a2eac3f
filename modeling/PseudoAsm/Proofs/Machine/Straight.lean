import PseudoAsm.Proofs.Machine.Frame

/-!
# Straight-line code

Instructions that only advance are executed one after the other, wherever in a program they stand.
What they do can be told without the program and its addresses.

* `StandardInstruction` — an instruction under the standard name of its operation;
* `StandsAt` — the place of a sequence of such instructions in a program;
* `effects` — what a sequence makes of a machine, one effect after the other;
* `effects_eq_ok_iff` — **a machine stepped through a straight-line sequence comes to its effects**.
-/

namespace PseudoAsm

/-- An instruction under the standard name of its operation. -/
structure StandardInstruction where
  operation : Operation
  params : List String
deriving DecidableEq, Repr

/-- The instruction itself. -/
def StandardInstruction.instruction (step : StandardInstruction) : Instruction :=
  ⟨step.operation.mnemonic, step.params⟩

/-- A sequence of instructions stands in a program from an address on. -/
def StandsAt (program : Program) (address : Nat) (sequence : List StandardInstruction) : Prop :=
  sequence.map StandardInstruction.instruction <+: program.drop address

/-- What a sequence of instructions makes of a machine, or the trap of the first one that fails. -/
def effects (m : Machine) : List StandardInstruction → Except Trap Machine
  | [] => .ok m
  | step :: rest => do
    let (_, after) ← effect step.instruction step.operation m
    effects { after with ip := m.ip + 1 } rest

variable {program : Program} {m after : Machine} {step : StandardInstruction}
  {sequence rest : List StandardInstruction}

/-- The first instruction of a sequence is ready to be executed, and the others stand behind it. -/
theorem StandsAt.cons {a : Nat} (h : StandsAt program a (step :: rest)) :
    Processor.standard.fetch program a = .ready step.instruction step.operation
      ∧ StandsAt program (a + 1) rest := by
  obtain ⟨behind, hbehind⟩ := h
  rw [List.map_cons, List.cons_append] at hbehind
  constructor
  · apply Processor.fetch_standard
    rw [← List.head?_drop, ← hbehind, List.head?_cons]
    rfl
  · unfold StandsAt
    rw [← List.tail_drop, ← hbehind, List.tail_cons]
    exact List.prefix_append _ behind

/-- An instruction that only advances passes control to the following one. -/
theorem eq_next_of_advance {ins : Instruction} {op : Operation} {flow : Flow}
    (hop : op.controlEffect = .advance) (h : effect ins op m = .ok (flow, after)) :
    flow = .next := by
  have htransferred := transferred_of_effect h
  rw [hop] at htransferred
  cases htransferred
  rfl

/-- **A machine stepped through a straight-line sequence comes to its effects.**  The effects do not
fail exactly if no step traps, and then they are what the steps leave. -/
theorem effects_eq_ok_iff (hstraight : ∀ step ∈ sequence, step.operation.controlEffect = .advance)
    (hstands : StandsAt program m.ip sequence) :
    effects m sequence = .ok after
      ↔ (∀ i < sequence.length, ∃ status, Processor.standard.resultAt program m i = .ok status)
        ∧ Processor.standard.machineAt program m sequence.length = after := by
  induction sequence generalizing m with
  | nil =>
    have hnone : ∀ i < [].length (α := StandardInstruction), ∃ status,
        Processor.standard.resultAt program m i = .ok status := by
      intro i hi
      exact absurd hi (Nat.not_lt_zero i)
    rw [effects, Except.ok.injEq, and_iff_right hnone]
    rfl
  | cons step rest ih =>
    obtain ⟨hfetch, hbehind⟩ := hstands.cons
    obtain ⟨hop, hstraight⟩ := List.forall_mem_cons.1 hstraight
    cases heffect : effect step.instruction step.operation m with
    | error trap =>
      refine iff_of_false ?_ ?_
      · rw [effects, heffect]
        nofun
      · rintro ⟨hsteps, -⟩
        obtain ⟨status, hstatus⟩ := hsteps 0 (Nat.succ_pos _)
        obtain ⟨flow, left, hok⟩ := exists_effect_of_ok hfetch hstatus
        rw [heffect] at hok
        cases hok
    | ok executed =>
      obtain ⟨flow, left⟩ := executed
      have hnext := eq_next_of_advance hop heffect
      subst hnext
      have hstep := step_next hfetch heffect
      have hafter : ((Processor.standard.step program).on m).2 = { left with ip := m.ip + 1 } := by
        rw [hstep]
      have hrest := ih (m := { left with ip := m.ip + 1 }) hstraight hbehind
      rw [← hafter, Processor.machineAt_step] at hrest
      rw [effects, heffect]
      show effects { left with ip := m.ip + 1 } rest = .ok after ↔ _
      rw [← hafter, hrest]
      refine and_congr_left fun _ => ⟨?_, ?_⟩
      · intro hsteps i hi
        cases i with
        | zero => exact ⟨_, congrArg Prod.fst hstep⟩
        | succ i =>
          obtain ⟨status, hstatus⟩ := hsteps i (Nat.lt_of_succ_lt_succ hi)
          rw [Processor.resultAt_step] at hstatus
          exact ⟨status, hstatus⟩
      · intro hsteps i hi
        rw [Processor.resultAt_step]
        exact hsteps (i + 1) (Nat.succ_lt_succ hi)

end PseudoAsm

import PseudoAsm.Proofs.Machine.Control
import PseudoAsm.Proofs.Resolution.Shift
import PseudoAsm.Proofs.Resolution.Symbolic

/-!
# Resolution preserves meaning

A resolved program, run on the ordinary machine, and the unresolved program that it was made of,
run on the symbolic machine, go in lock step.  The simulation relation is an equation: the ordinary
state is the symbolic one with its positions read as addresses, `Symbolic.located`.

* `on_execute_located` — one instruction: the executor on a shifted instruction answers what the
  symbolic machine answers, up to that reading;
* `step_located` — one step, label definitions skipped on the way;
* `resolved_lockstep` — **any number of steps**: the same results and corresponding states.
-/

namespace PseudoAsm

open Symbolic

/-! ### Flows in positions and in addresses -/

/-- A flow with its target read by `f`. -/
def Flow.mapTarget (f : Nat → Nat) : Flow → Flow
  | .next => .next
  | .jump target => .jump (f target)
  | .stop => .stop

theorem Flow.target?_mapTarget {f : Nat → Nat} {position address : Nat}
    (h : f (position + 1) = address + 1) (flow : Flow) :
    (flow.mapTarget f).target? address = (flow.target? position).map f := by
  cases flow with
  | next => rw [mapTarget, target?, target?, Option.map_some, h]
  | jump target => rfl
  | stop => rfl

/-- Two computations that begin alike show the same if they go on to show the same. -/
theorem outcome_bind {α β γ : Type} {m : Machine} (e : Except Trap α)
    {f : α → Except Trap (β × Machine)} {g : α → Except Trap γ} {read : γ → β}
    (h : ∀ x, Action.outcome m (f x) = ((g x).map read, m)) :
    Action.outcome m (e >>= f) = ((e >>= g).map read, m) := by
  cases e with
  | error trap => rfl
  | ok x => exact h x

section Instructions

variable {targeted : List String} {program : Program} {ins out : Instruction} {op : Operation}
  (s : Machine)

/-- A shifted target leads to the address of its symbolic destination. -/
theorem jumpTo_located (hsize : program.Addressable)
    (h : Shifted targeted program ins out) (hmem : ins.name ∈ targeted) :
    jumpTo out op = (destination program ins op).map (Flow.mapTarget program.addressAt) := by
  obtain ⟨target, hparam, hempty⟩ := h.target hmem
  have htoken : operand ins op 0 = .ok target := operand_eq_ok_iff.2 ⟨hparam, hempty⟩
  cases hdefinition : program.definition? target with
  | some position =>
    have hlt := (addressAt_lt_nat64Bound hsize hdefinition).2
    have hstated : statedTarget? out = some (program.addressAt position) := by
      rw [h.symbolic target position hmem hparam hdefinition, statedTarget?,
        Instruction.param?_withTarget, Option.bind_some, Numeral.nat64?_toString hlt]
    rw [jumpTo_eq_ok_iff.2 ⟨_, hstated, rfl⟩, destination_of_definition htoken hdefinition]
    rfl
  | none =>
    obtain ⟨rfl, address, hnumeral, -⟩ := h.literal target hmem hparam hdefinition
    have hstated : statedTarget? out = some address := by
      rw [statedTarget?, hparam, Option.bind_some, hnumeral]
    rw [jumpTo_eq_ok_iff.2 ⟨_, hstated, rfl⟩, destination_of_address htoken hdefinition hnumeral]
    show Except.ok (Flow.jump address)
      = Except.ok (Flow.jump (program.addressAt (program.positionOf address)))
    rw [Program.addressAt_positionOf]

theorem jumpIf_located (hsize : program.Addressable)
    (h : Shifted targeted program ins out) (hmem : ins.name ∈ targeted)
    (taken : Bool) :
    Action.outcome (located program s) ((jumpIf taken out op).map (·, located program s))
      = ((if taken then destination program ins op else .ok .next).map
          (Flow.mapTarget program.addressAt), located program s) := by
  rw [Action.outcome_map_self]
  cases taken with
  | false => rfl
  | true => rw [jumpIf, if_pos rfl, if_pos rfl, jumpTo_located hsize h hmem]

/-- A call pushes the address of the position that the symbolic call pushes. -/
theorem call_located (hsize : program.Addressable)
    (h : Shifted targeted program ins out) (hmem : ins.name ∈ targeted) :
    Action.outcome (located program s) (effect out .call (located program s))
      = ((perform program (program.settle s.ip) ins .call s).1.map
          (Flow.mapTarget program.addressAt),
        located program (perform program (program.settle s.ip) ins .call s).2) := by
  simp only [effect, perform]
  rw [jumpTo_located hsize h hmem]
  cases destination program ins .call with
  | error trap => rfl
  | ok flow =>
    show (Except.ok (flow.mapTarget program.addressAt),
      { located program s with
        callStack := (program.addressAt s.ip + 1) :: s.callStack.map program.addressAt }) = _
    rw [← Program.addressAt_settle_succ]
    rfl

theorem ret_located :
    Action.outcome (located program s) (effect ins .ret (located program s))
      = ((perform program (program.settle s.ip) ins .ret s).1.map
          (Flow.mapTarget program.addressAt),
        located program (perform program (program.settle s.ip) ins .ret s).2) := by
  cases hstack : s.callStack with
  | nil =>
    simp only [effect, perform, located, hstack, List.map_nil, Program.addressAt_settle]
    rfl
  | cons back below =>
    simp only [effect, perform, located, hstack, List.map_cons]
    rfl

/-- An offset leads to the address of its symbolic displacement. -/
theorem relativeJump_located (offset : Int32) :
    relativeJump (program.addressAt s.ip) offset
      = (displacement program (program.settle s.ip) offset).map
          (Flow.mapTarget program.addressAt) := by
  simp only [relativeJump, displacement, Program.addressAt_settle]
  by_cases hnegative : (program.addressAt s.ip : Int) + offset.toInt < 0
  · rw [if_pos hnegative, if_pos hnegative]
    rfl
  · rw [if_neg hnegative, if_neg hnegative]
    show _ = Except.ok (Flow.jump (program.addressAt (program.positionOf _)))
    rw [Program.addressAt_positionOf]

theorem jnz_located :
    Action.outcome (located program s) (effect ins .jnz (located program s))
      = ((perform program (program.settle s.ip) ins .jnz s).1.map
          (Flow.mapTarget program.addressAt),
        located program (perform program (program.settle s.ip) ins .jnz s).2) := by
  apply outcome_bind
  intro first
  apply outcome_bind
  intro x
  by_cases hx : x = 0
  · rw [if_pos hx, if_pos hx]
    rfl
  · rw [if_neg hx, if_neg hx]
    apply outcome_bind
    intro second
    show Action.outcome _ (s.value second >>= _) = ((s.value second >>= _).map _, _)
    apply outcome_bind
    intro offset
    show Action.outcome _ ((relativeJump (program.addressAt s.ip) offset).map (·, _)) = _
    rw [Action.outcome_map_self, relativeJump_located]

/-- An operation that only advances reads neither the pointer, traps apart, nor the call stack. -/
theorem advance_located (hop : op.controlEffect = .advance) :
    Action.outcome (located program s) (effect ins op (located program s))
      = ((perform program (program.settle s.ip) ins op s).1.map
          (Flow.mapTarget program.addressAt),
        located program (perform program (program.settle s.ip) ins op s).2) := by
  rw [perform_advance hop, Program.addressAt_settle, on_execute,
    show located program s = { { s with ip := program.addressAt s.ip } with
      callStack := s.callStack.map program.addressAt } from rfl, effect_advance_frame hop]
  cases heffect : effect ins op { s with ip := program.addressAt s.ip } with
  | error trap => rfl
  | ok executed =>
    obtain ⟨flow, after⟩ := executed
    have htransferred := transferred_of_effect heffect
    rw [hop] at htransferred
    obtain ⟨hip, hstack⟩ := htransferred
    simp only [Except.map, Action.outcome, located, Flow.mapTarget, hip, hstack]

/-- **One instruction.**  The executor on a shifted instruction answers what the symbolic machine
answers, positions read as addresses. -/
theorem on_execute_located (hsize : program.Addressable)
    (h : Shifted InstructionSet.standard.addressMnemonics program ins out)
    (hname : op.mnemonic = ins.name) :
    (execute out op).on (located program s)
      = ((perform program (program.settle s.ip) ins op s).1.map
          (Flow.mapTarget program.addressAt),
        located program (perform program (program.settle s.ip) ins op s).2) := by
  have htargeted := InstructionSet.mem_addressMnemonics_standard_iff op
  rw [hname] at htargeted
  have hkept : op.operands ≠ .address → out = ins := fun hne =>
    h.untargeted fun hmem => hne (htargeted.1 hmem)
  rw [on_execute]
  cases op with
  | jmp => exact jumpIf_located s hsize h (htargeted.2 rfl) true
  | je | jne | jg | jge | jl | jle => exact jumpIf_located s hsize h (htargeted.2 rfl) _
  | call => exact call_located s hsize h (htargeted.2 rfl)
  | ret => rw [hkept (by decide)]; exact ret_located s
  | jnz => rw [hkept (by decide)]; exact jnz_located s
  | mov | inc | dec | add | sub | mul | div | cmp | msg =>
    rw [hkept (by decide)]
    exact advance_located s rfl
  | stop => rfl

end Instructions

/-! ### One step -/

section Steps

variable {program resolved : Program}

/-- **One step.**  A resolved program steps as the unresolved one does on the symbolic machine. -/
theorem step_located (hsize : program.Addressable)
    (h : resolve InstructionSet.standard.addressMnemonics program = .ok resolved) (s : Machine) :
    (Processor.standard.step resolved).on (located program s)
      = ((Symbolic.step program s).1, located program (Symbolic.step program s).2) := by
  have hget := program.getElem?_settle s.ip
  cases hins : program[program.settle s.ip]? with
  | none =>
    rw [hins, eq_comm, List.getElem?_eq_none_iff, ← length_of_resolve h] at hget
    rw [Processor.step_outside (Processor.fetch_eq_outside_iff.2 hget), Symbolic.step_outside hins]
  | some ins =>
    rw [hins, eq_comm] at hget
    obtain ⟨out, hout, hshifted⟩ := exists_shifted h hget
    cases hrow : InstructionSet.standard.find? ins.name with
    | none =>
      have hfetch : Processor.standard.fetch resolved (located program s).ip
          = .unknown ins.name :=
        Processor.fetch_eq_unknown_iff.2 ⟨out, hout, hshifted.name_eq ▸ hrow, hshifted.name_eq⟩
      rw [Processor.step_unknown hfetch, Symbolic.step_unknown hins hrow]
      rfl
    | some row =>
      have hfetch : Processor.standard.fetch resolved (located program s).ip
          = .ready out row.operation :=
        Processor.fetch_eq_ready_iff.2 ⟨hout, row, hshifted.name_eq ▸ hrow, rfl⟩
      rw [Processor.step_ready hfetch,
        show Processor.standard.executor out row.operation = execute out row.operation from rfl,
        on_execute_located s hsize hshifted (InstructionSet.mnemonic_operation_of_find? hrow),
        Symbolic.step_ready hins hrow]
      rcases perform program (program.settle s.ip) ins row.operation s with ⟨answer, after⟩
      cases answer with
      | error trap => rfl
      | ok flow =>
        have htarget := flow.target?_mapTarget (program.addressAt_settle_succ s.ip)
        simp only [Except.map]
        rw [show (located program s).ip = program.addressAt s.ip from rfl, htarget]
        cases flow.target? (program.settle s.ip) with
        | none => rfl
        | some target =>
          simp only [Option.map_some, statusAt, length_of_resolve h,
            Program.settle_lt_length_iff]
          rfl

/-! ### Any number of steps -/

/-- **Resolution preserves meaning.**  After any number of steps from the initial state the next
step of the resolved program gives the result that it gives on the symbolic machine, and the states
correspond: the same registers, flags, output and settings, and the pointer and every return
address the address of the symbolic one's position. -/
theorem resolved_lockstep (hsize : program.Addressable)
    (h : resolve InstructionSet.standard.addressMnemonics program = .ok resolved)
    (settings : Settings) (n : Nat) :
    Processor.standard.resultAt resolved (.fresh settings) n
        = Symbolic.resultAt program (.fresh settings) n
      ∧ Processor.standard.machineAt resolved (.fresh settings) n
        = located program (Symbolic.machineAt program (.fresh settings) n) := by
  have hstates : Processor.standard.machineAt resolved (.fresh settings) n
      = located program (Symbolic.machineAt program (.fresh settings) n) := by
    induction n with
    | zero => rw [Processor.machineAt_zero, Symbolic.machineAt, located_fresh]
    | succ n ih =>
      rw [Processor.machineAt_succ, ih, step_located hsize h]
      rfl
  refine ⟨?_, hstates⟩
  rw [Processor.resultAt, hstates, step_located hsize h]
  rfl

/-- The sample program after nine steps, with three calls under way. -/
theorem resolved_lockstep_sample :
    sampleProgram.Addressable
      ∧ resolve InstructionSet.standard.addressMnemonics sampleProgram = .ok sampleResolved
      ∧ Processor.standard.resultAt sampleResolved (.fresh {}) 9
        = Symbolic.resultAt sampleProgram (.fresh {}) 9
      ∧ Processor.standard.machineAt sampleResolved (.fresh {}) 9
        = located sampleProgram (Symbolic.machineAt sampleProgram (.fresh {}) 9) := by
  have hsize : sampleProgram.Addressable := by decide
  have hresolve : resolve InstructionSet.standard.addressMnemonics sampleProgram
      = .ok sampleResolved := by decide +kernel
  exact ⟨hsize, hresolve, resolved_lockstep hsize hresolve {} 9⟩

end Steps

end PseudoAsm

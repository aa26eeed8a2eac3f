import PseudoAsm.Proofs.Machine.Calls
import PseudoAsm.Proofs.Resolution.Shift

/-!
# What resolution promises the machine

Resolution reads every target once, before the program runs; the machine reads it again whenever it
jumps.  Both read it as the same numeral, so a jump of a resolved program never fails.  Where the
pointer can go from there is known as well: a jump goes to an address that resolution has checked, a
return goes behind a call, and only a relative jump, whose offset nobody checks, can leave the
program by more than its end.

* `Program.IsResolved` — no label definitions, and addresses for targets;
* `isResolved_of_resolve` — resolution makes such programs;
* `effect_of_hasAddress` — an instruction with an address for its target does not trap;
* `target_le_of_transferred` — an executed instruction stays in the program, relative jumps apart;
* `Confined` — what this means for a step;
* `resolved_steps_confined` — **every step of a resolved program is confined**.
-/

namespace PseudoAsm

variable {program resolved : Program} {ins : Instruction} {op : Operation} {m after : Machine}
  {flow : Flow}

/-! ### Resolved programs -/

/-- A program has no label definitions, and every target in it is one of its addresses. -/
structure Program.IsResolved (program : Program) : Prop where
  code : ∀ ins ∈ program, ins.isLabel = false
  targets : ∀ ins ∈ program, ins.name ∈ InstructionSet.standard.addressMnemonics →
    ins.HasAddress program.length

/-- **Resolution makes resolved programs.** -/
theorem isResolved_of_resolve (hsize : program.Addressable)
    (h : resolve InstructionSet.standard.addressMnemonics program = .ok resolved) :
    resolved.IsResolved where
  code := by
    intro out hout
    obtain ⟨ins, hins, hshifted⟩ := exists_source h hout
    obtain ⟨address, hget⟩ := List.mem_iff_getElem?.1 hins
    rw [Instruction.isLabel, hshifted.name_eq]
    exact Program.isLabel_of_getElem?_body hget
  targets := by
    intro out hout hmem
    obtain ⟨ins, -, hshifted⟩ := exists_source h hout
    rw [hshifted.name_eq] at hmem
    show out.HasAddress (List.length resolved)
    rw [length_of_resolve h]
    exact hasAddress_of_shifted hsize hshifted hmem

/-- What a resolved program executes has an address of it for its target, if it takes one. -/
theorem Program.IsResolved.hasAddress (h : program.IsResolved) {address : Nat}
    (hfetch : Processor.standard.fetch program address = .ready ins op)
    (hop : op.operands = .address) : ins.HasAddress program.length := by
  obtain ⟨hins, row, hrow, rfl⟩ := Processor.fetch_eq_ready_iff.1 hfetch
  have hname := InstructionSet.mnemonic_operation_of_find? hrow
  have hmem := (InstructionSet.mem_addressMnemonics_standard_iff row.operation).2 hop
  rw [hname] at hmem
  exact h.targets ins (List.mem_of_getElem? hins) hmem

/-! ### Jumps to addresses -/

theorem exists_statedTarget? {size : Nat} (h : ins.HasAddress size) :
    ∃ target ≤ size, statedTarget? ins = some target := by
  obtain ⟨token, target, hparam, hnumeral, hle⟩ := h
  refine ⟨target, hle, ?_⟩
  rw [statedTarget?, hparam, Option.bind_some, hnumeral]

/-- An instruction whose target is an address does not trap, whether it jumps or not. -/
theorem effect_of_hasAddress {size : Nat} (h : ins.HasAddress size) (hop : op.operands = .address)
    (m : Machine) : ∃ flow after, effect ins op m = .ok (flow, after) := by
  obtain ⟨target, -, htarget⟩ := exists_statedTarget? h
  have hjump : jumpTo ins op = .ok (.jump target) := jumpTo_eq_ok_iff.2 ⟨target, htarget, rfl⟩
  have hjumpIf (taken : Bool) :
      ∃ flow after, (jumpIf taken ins op).map (·, m) = .ok (flow, after) := by
    cases taken with
    | false => exact ⟨.next, m, rfl⟩
    | true => exact ⟨.jump target, m, by rw [jumpIf, if_pos rfl, hjump]; rfl⟩
  cases op with
  | jmp | je | jne | jg | jge | jl | jle => exact hjumpIf _
  | call =>
    refine ⟨.jump target, { m with callStack := (m.ip + 1) :: m.callStack }, ?_⟩
    rw [effect, hjump]
    rfl
  | mov | inc | dec | add | sub | mul | div | cmp | jnz | ret | msg | stop => cases hop

theorem eq_jnz_of_controlEffect (h : op.controlEffect = .relative) : op = .jnz := by
  cases op <;> first | rfl | cases h

/-- Whatever goes to a target takes an address. -/
theorem operands_of_controlEffect
    (h : op.controlEffect = .branch ∨ op.controlEffect = .conditional ∨ op.controlEffect = .call) :
    op.operands = .address := by
  cases op <;> first | rfl | simp only [Operation.controlEffect, reduceCtorEq, or_self] at h

/-- **An executed instruction stays in the program or goes to its end**, unless it is a relative
jump: its target is an address of the program, and so is every return address. -/
theorem target_le_of_transferred {size target : Nat}
    (h : Transferred ins m op.controlEffect flow after) (hop : op ≠ .jnz) (hlt : m.ip < size)
    (haddress : op.operands = .address → ins.HasAddress size)
    (hstack : ∀ r ∈ m.callStack, r ≤ size) (htarget : flow.target? m.ip = some target) :
    target ≤ size := by
  have hstated {found : Nat} (hop : op.operands = .address)
      (hfound : statedTarget? ins = some found) : found ≤ size := by
    obtain ⟨address, hle, hother⟩ := exists_statedTarget? (haddress hop)
    rw [hother, Option.some.injEq] at hfound
    exact hfound ▸ hle
  generalize hcontrol : op.controlEffect = control at h
  cases h with
  | advance | passed =>
    cases htarget
    exact hlt
  | branch hfound =>
    cases htarget
    exact hstated (operands_of_controlEffect (.inl hcontrol)) hfound
  | taken hfound =>
    cases htarget
    exact hstated (operands_of_controlEffect (.inr (.inl hcontrol))) hfound
  | call hfound =>
    cases htarget
    exact hstated (operands_of_controlEffect (.inr (.inr hcontrol))) hfound
  | back hback =>
    cases htarget
    exact hstack target (hback ▸ List.mem_cons_self)
  | moved | stayed => exact absurd (eq_jnz_of_controlEffect hcontrol) hop
  | stop => cases htarget

/-! ### Steps -/

/-- What a step of a machine keeps to. -/
structure Confined (program : Program) (m : Machine) : Prop where
  /-- The pointer is at no label definition. -/
  code : ∀ ins, program[m.ip]? = some ins → ins.isLabel = false
  /-- An instruction that takes an address does not trap, whatever the flags tell it to do. -/
  jumps : ∀ ins op word, Processor.standard.fetch program m.ip = .ready ins op →
    op.operands = .address →
      ∃ status, ((Processor.standard.step program).on { m with status := word }).1 = .ok status
  /-- An executed instruction that is no relative jump leaves the pointer in the program, or at its
  end. -/
  inside : ∀ ins op status, Processor.standard.fetch program m.ip = .ready ins op → op ≠ .jnz →
    ((Processor.standard.step program).on m).1 = .ok status →
      ((Processor.standard.step program).on m).2.ip ≤ program.length
  /-- Only a relative jump traps because of where it would lead. -/
  outOfRange : ∀ source target,
    ((Processor.standard.step program).on m).1 = .error (.addressOutOfRange source target) →
      ∃ ins, Processor.standard.fetch program m.ip = .ready ins .jnz
  /-- Only a relative jump moves the pointer beyond the end of the program. -/
  beyond : program.length < ((Processor.standard.step program).on m).2.ip →
    ((Processor.standard.step program).on m).2.ip ≠ m.ip →
      ∃ ins, Processor.standard.fetch program m.ip = .ready ins .jnz

/-- An instruction that does not trap makes a step that does not. -/
theorem exists_status_of_effect
    (hfetch : Processor.standard.fetch program m.ip = .ready ins op)
    (heffect : effect ins op m = .ok (flow, after)) :
    ∃ status, ((Processor.standard.step program).on m).1 = .ok status := by
  rw [step_standard hfetch, heffect]
  cases flow with
  | stop => exact ⟨.ended, rfl⟩
  | next | jump => exact ⟨statusAt program _, rfl⟩

/-- A step that is not stopped by a trap stays in the program or goes to its end, unless it is a
relative jump. -/
theorem Program.IsResolved.ip_le (h : program.IsResolved)
    (hstack : ∀ r ∈ m.callStack, r ≤ program.length)
    (hfetch : Processor.standard.fetch program m.ip = .ready ins op) (hop : op ≠ .jnz)
    {result : Except Trap Status} (hstep : Stepped program m result after) :
    after.ip ≤ program.length := by
  have hlt : m.ip < program.length := by
    obtain ⟨hins, -⟩ := Processor.fetch_eq_ready_iff.1 hfetch
    exact (List.getElem?_eq_some_iff.1 hins).1
  cases hstep with
  | outside | unknown | trapped => exact Nat.le_of_lt hlt
  | ended hfetch' heffect htarget =>
    obtain ⟨-, rfl⟩ := stop_of_transferred (transferred_of_effect heffect) htarget
    exact Nat.le_of_lt hlt
  | moved hfetch' heffect htarget =>
    rw [hfetch, Fetched.ready.injEq] at hfetch'
    obtain ⟨rfl, rfl⟩ := hfetch'
    exact target_le_of_transferred (transferred_of_effect heffect) hop hlt (h.hasAddress hfetch)
      hstack htarget

/-- **A step of a resolved program is confined**, if the return addresses are. -/
theorem Program.IsResolved.confined (h : program.IsResolved)
    (hstack : ∀ r ∈ m.callStack, r ≤ program.length) : Confined program m where
  code := by
    intro ins hins
    exact h.code ins (List.mem_of_getElem? hins)
  jumps := by
    intro ins op word hfetch hop
    obtain ⟨flow, after, heffect⟩ :=
      effect_of_hasAddress (h.hasAddress hfetch hop) hop { m with status := word }
    exact exists_status_of_effect hfetch heffect
  inside := by
    intro ins op status hfetch hop _
    exact h.ip_le hstack hfetch hop (stepped program m)
  outOfRange := by
    intro source target hresult
    have hstepped := stepped program m
    rw [hresult] at hstepped
    generalize ((Processor.standard.step program).on m).2 = after at hstepped
    cases hstepped with
    | @trapped ins op trap hfetch heffect =>
      obtain ⟨rfl, -⟩ := effect_raises ins op m _ heffect
      exact ⟨ins, hfetch⟩
  beyond := by
    intro hbeyond hmoved
    have hstepped := stepped program m
    generalize ((Processor.standard.step program).on m).1 = result at hstepped
    generalize ((Processor.standard.step program).on m).2 = after at hstepped hbeyond hmoved
    have hjump {ins : Instruction} {op : Operation}
        (hfetch : Processor.standard.fetch program m.ip = .ready ins op) :
        ∃ ins, Processor.standard.fetch program m.ip = .ready ins .jnz := by
      by_cases hop : op = .jnz
      · exact ⟨ins, hop ▸ hfetch⟩
      · have hle := h.ip_le hstack hfetch hop hstepped
        omega
    cases hstepped with
    | outside | unknown => exact absurd rfl hmoved
    | trapped hfetch | ended hfetch | moved hfetch => exact hjump hfetch

/-! ### Every run -/

/-- **The promise of resolution.**  In every state that steps of a resolved program lead to from a
fresh machine, the pointer is at no label definition, an instruction that takes an address does not
trap, whether its jump is taken or not, and an instruction that is executed and is no relative jump
leaves the pointer at most at the end of the program.  Only relative jumps trap because of where
they would lead or move the pointer farther. -/
theorem resolved_steps_confined (hsize : program.Addressable)
    (h : resolve InstructionSet.standard.addressMnemonics program = .ok resolved)
    (settings : Settings) (n : Nat) :
    Confined resolved (Processor.standard.machineAt resolved (.fresh settings) n) :=
  (isResolved_of_resolve hsize h).confined fun _ hr => returnAddress_le hr

/-- Every step of the sample program is confined; the first calls a subroutine. -/
theorem resolved_steps_confined_sample :
    sampleProgram.Addressable
      ∧ resolve InstructionSet.standard.addressMnemonics sampleProgram = .ok sampleResolved
      ∧ (∀ n, Confined sampleResolved (Processor.standard.machineAt sampleResolved (.fresh {}) n))
      ∧ ∀ word, ∃ status,
        ((Processor.standard.step sampleResolved).on { status := word }).1 = .ok status := by
  have hsize : sampleProgram.Addressable := by decide
  have hresolve : resolve InstructionSet.standard.addressMnemonics sampleProgram
      = .ok sampleResolved := by decide +kernel
  have hconfined := resolved_steps_confined hsize hresolve {}
  refine ⟨hsize, hresolve, hconfined, ?_⟩
  intro word
  exact (hconfined 0).jumps ⟨"call", ["3"]⟩ .call word (by decide +kernel) rfl

end PseudoAsm

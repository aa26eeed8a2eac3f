import PseudoAsm.Proofs.Machine.Control
import PseudoAsm.Proofs.Machine.Stepping
import PseudoAsm.Proofs.Machine.Traps

/-!
# What instructions leave alone

Not every part of a machine matters to every instruction, whatever the mnemonics mean.

* `InstructionSet.processor` — the standard executor with any table of mnemonics;
* `sent`, `step_eq_sent` — its steps in terms of the effect of the instruction under the pointer;
* `stop_of_transferred` — an instruction that ends the program leaves the machine as it was;
* `effect_settings`, `step_settings` — **no instruction and no step reads or changes the settings**;
* `effect_frame` — **no instruction changes more than one part of the machine**, the pointer apart,
  and its operation tells which, so that only a message changes the output and only a comparison
  the status word;
* `effect_neverLimits`, `step_neverLimits` — no instruction and no step reports a step limit.
-/

namespace PseudoAsm

variable {ins : Instruction} {op : Operation} {m after : Machine} {flow : Flow}

/-! ### The pointer -/

/-- Only an end sends the pointer nowhere, and it leaves the machine as it was. -/
theorem stop_of_transferred {control : ControlEffect} {address : Nat}
    (h : Transferred ins m control flow after) (htarget : flow.target? address = none) :
    control = .stop ∧ after = m := by
  cases h with
  | stop => exact ⟨rfl, rfl⟩
  | advance | branch | taken | passed | moved | stayed | call | back => cases htarget

/-! ### Settings -/

/-- A machine with other settings. -/
def Machine.withSettings (m : Machine) (settings : Settings) : Machine :=
  { m with settings := settings }

@[simp] theorem Machine.settings_withSettings (m : Machine) (settings : Settings) :
    (m.withSettings settings).settings = settings := rfl

theorem Machine.withSettings_settings (m : Machine) : m.withSettings m.settings = m := rfl

theorem adjusted_settings (settings : Settings) (f : Int32 → Except Trap Int32) :
    adjusted ins op (m.withSettings settings) f
      = (adjusted ins op m f).map fun e => (e.1, e.2.withSettings settings) := by
  simp only [adjusted, map_bind]
  rfl

theorem combined_settings (settings : Settings) (f : Int32 → Int32 → Except Trap Int32) :
    combined ins op (m.withSettings settings) f
      = (combined ins op m f).map fun e => (e.1, e.2.withSettings settings) := by
  simp only [combined, map_bind, adjusted_settings]
  rfl

theorem map_pair_settings (settings : Settings) (e : Except Trap Flow) :
    e.map (·, m.withSettings settings)
      = (e.map (·, m)).map fun e => (e.1, e.2.withSettings settings) := by
  cases e <;> rfl

/-- **No instruction reads or changes the settings.** -/
theorem effect_settings (ins : Instruction) (op : Operation) (m : Machine) (settings : Settings) :
    effect ins op (m.withSettings settings)
      = (effect ins op m).map fun e => (e.1, e.2.withSettings settings) := by
  cases op with
  | mov | cmp | call =>
    simp only [effect, map_bind]
    rfl
  | inc | dec => exact adjusted_settings settings _
  | add | sub | mul | div => exact combined_settings settings _
  | jmp | je | jne | jg | jge | jl | jle => exact map_pair_settings settings _
  | jnz =>
    simp only [effect, map_bind]
    apply bind_congr
    intro first
    apply bind_congr
    intro x
    by_cases hx : x = 0
    · rw [if_pos hx, if_pos hx]
      rfl
    · rw [if_neg hx, if_neg hx]
      simp only [map_bind]
      rfl
  | ret =>
    have hkept : (m.withSettings settings).callStack = m.callStack := rfl
    cases hstack : m.callStack with
    | nil =>
      simp only [effect, hkept, hstack]
      rfl
    | cons back below =>
      simp only [effect, hkept, hstack]
      rfl
  | msg =>
    simp only [effect, map_bind]
    rw [message_eq_of_registers (m.withSettings settings) m rfl]
    rfl
  | stop => rfl

/-- The result and the machine of a step whose instruction has an effect. -/
def sent (program : Program) (m : Machine) :
    Except Trap (Flow × Machine) → Except Trap Status × Machine
  | .error trap => (.error trap, m)
  | .ok (flow, after) =>
    match flow.target? m.ip with
    | none => (.ok .ended, after)
    | some target => (.ok (statusAt program target), { after with ip := target })

/-- A table of mnemonics with the standard executor. -/
def InstructionSet.processor (instructions : InstructionSet) : Processor :=
  { instructions := instructions }

/-- The step of an instruction that the table has. -/
theorem step_eq_sent {instructions : InstructionSet} {program : Program}
    (h : instructions.processor.fetch program m.ip = .ready ins op) :
    (instructions.processor.step program).on m = sent program m (effect ins op m) := by
  rw [Processor.step_ready h,
    show instructions.processor.executor ins op = execute ins op from rfl, on_execute]
  cases effect ins op m <;> rfl

theorem step_standard {program : Program}
    (h : Processor.standard.fetch program m.ip = .ready ins op) :
    (Processor.standard.step program).on m = sent program m (effect ins op m) := by
  rw [show Processor.standard = InstructionSet.standard.processor from rfl, step_eq_sent h]

/-- The step of a standard instruction that passes control to the following one. -/
theorem step_next {program : Program}
    (hfetch : Processor.standard.fetch program m.ip = .ready ins op)
    (heffect : effect ins op m = .ok (.next, after)) :
    (Processor.standard.step program).on m
      = (.ok (statusAt program (m.ip + 1)), { after with ip := m.ip + 1 }) := by
  rw [step_standard hfetch, heffect]
  rfl

/-- An instruction under the pointer has an effect if the step does not trap. -/
theorem exists_effect_of_ok {program : Program} {status : Status}
    (hfetch : Processor.standard.fetch program m.ip = .ready ins op)
    (hstatus : ((Processor.standard.step program).on m).1 = .ok status) :
    ∃ flow after, effect ins op m = .ok (flow, after) := by
  rw [step_standard hfetch] at hstatus
  cases heffect : effect ins op m with
  | error trap =>
    rw [heffect] at hstatus
    cases hstatus
  | ok executed => exact ⟨executed.1, executed.2, rfl⟩

theorem sent_settings (program : Program) (settings : Settings)
    (e : Except Trap (Flow × Machine)) :
    sent program (m.withSettings settings) (e.map fun e => (e.1, e.2.withSettings settings))
      = ((sent program m e).1, (sent program m e).2.withSettings settings) := by
  cases e with
  | error trap => rfl
  | ok executed =>
    obtain ⟨flow, after⟩ := executed
    cases flow <;> rfl

/-- **No step reads or changes the settings.** -/
theorem step_settings (instructions : InstructionSet) (program : Program) (m : Machine)
    (settings : Settings) :
    (instructions.processor.step program).on (m.withSettings settings)
      = (((instructions.processor.step program).on m).1,
        ((instructions.processor.step program).on m).2.withSettings settings) := by
  have hip : (m.withSettings settings).ip = m.ip := rfl
  cases hfetch : instructions.processor.fetch program m.ip with
  | outside => rw [Processor.step_outside hfetch, Processor.step_outside (hip ▸ hfetch)]
  | unknown name => rw [Processor.step_unknown hfetch, Processor.step_unknown (hip ▸ hfetch), hip]
  | ready ins op =>
    rw [step_eq_sent hfetch, step_eq_sent (hip ▸ hfetch), effect_settings, sent_settings]

/-! ### Parts of a machine -/

/-- The parts of a machine that instructions change, the pointer apart. -/
inductive MachinePart where
  | registers
  | status
  | callStack
  | output
deriving DecidableEq

/-- The one part of a machine that an operation may change. -/
def Operation.writes? : Operation → Option MachinePart
  | .mov | .inc | .dec | .add | .sub | .mul | .div => some .registers
  | .cmp => some .status
  | .call | .ret => some .callStack
  | .msg => some .output
  | .jmp | .je | .jne | .jg | .jge | .jl | .jle | .jnz | .stop => none

/-- A machine with at most one part taken from another. -/
def Machine.taking (m other : Machine) : Option MachinePart → Machine
  | some .registers => { m with registers := other.registers }
  | some .status => { m with status := other.status }
  | some .callStack => { m with callStack := other.callStack }
  | some .output => { m with output := other.output }
  | none => m

theorem taking_of_adjusted {f : Int32 → Except Trap Int32}
    (h : adjusted ins op m f = .ok (flow, after)) : after = m.taking after (some .registers) := by
  obtain ⟨name, -, h⟩ := bind_eq_ok_iff.1 h
  obtain ⟨⟨value, registers⟩, -, h⟩ := bind_eq_ok_iff.1 h
  cases h
  rfl

theorem taking_of_combined {f : Int32 → Int32 → Except Trap Int32}
    (h : combined ins op m f = .ok (flow, after)) : after = m.taking after (some .registers) := by
  obtain ⟨token, -, h⟩ := bind_eq_ok_iff.1 h
  obtain ⟨value, -, h⟩ := bind_eq_ok_iff.1 h
  exact taking_of_adjusted h

/-- **An instruction changes no part of the machine but that of its operation.** -/
theorem effect_frame (h : effect ins op m = .ok (flow, after)) :
    after = m.taking after op.writes? := by
  cases op with
  | mov =>
    obtain ⟨name, -, h⟩ := bind_eq_ok_iff.1 h
    obtain ⟨token, -, h⟩ := bind_eq_ok_iff.1 h
    obtain ⟨value, -, h⟩ := bind_eq_ok_iff.1 h
    cases h
    rfl
  | inc | dec => exact taking_of_adjusted h
  | add | sub | mul | div => exact taking_of_combined h
  | cmp =>
    obtain ⟨first, -, h⟩ := bind_eq_ok_iff.1 h
    obtain ⟨x, -, h⟩ := bind_eq_ok_iff.1 h
    obtain ⟨second, -, h⟩ := bind_eq_ok_iff.1 h
    obtain ⟨y, -, h⟩ := bind_eq_ok_iff.1 h
    cases h
    rfl
  | msg =>
    obtain ⟨text, -, h⟩ := bind_eq_ok_iff.1 h
    cases h
    rfl
  | jmp | je | jne | jg | jge | jl | jle | jnz | call | ret | stop =>
    cases transferred_of_effect h <;> rfl

/-- Only a message changes the output. -/
theorem output_of_effect (h : effect ins op m = .ok (flow, after)) (hop : op ≠ .msg) :
    after.output = m.output := by
  rw [effect_frame h]
  cases op <;> first | rfl | exact absurd rfl hop

/-- Only a comparison changes the status word. -/
theorem status_of_effect (h : effect ins op m = .ok (flow, after)) (hop : op ≠ .cmp) :
    after.status = m.status := by
  rw [effect_frame h]
  cases op <;> first | rfl | exact absurd rfl hop

/-- A message leaves the text of its parameters, which it takes from the registers. -/
theorem effect_msg_eq_ok_iff :
    effect ins .msg m = .ok (flow, after)
      ↔ ∃ text, m.message ins.params = .ok text ∧ flow = .next
        ∧ after = { m with output := some text } := by
  constructor
  · intro h
    obtain ⟨text, htext, h⟩ := bind_eq_ok_iff.1 h
    cases h
    exact ⟨text, htext, rfl, rfl⟩
  · rintro ⟨text, htext, rfl, rfl⟩
    exact bind_eq_ok_iff.2 ⟨text, htext, rfl⟩

/-! ### Step limits -/

/-- A computation that reports no step limit. -/
def NeverLimits {α : Type} (e : Except Trap α) : Prop :=
  ∀ limit, e ≠ .error (.stepLimit limit)

theorem NeverLimits.ok {α : Type} (x : α) : NeverLimits (.ok x) := by
  intro limit h
  cases h

/-- No instruction reports a step limit. -/
theorem effect_neverLimits (ins : Instruction) (op : Operation) (m : Machine) :
    NeverLimits (effect ins op m) := by
  intro limit h
  exact effect_raises ins op m _ h

theorem sent_neverLimits {program : Program} {e : Except Trap (Flow × Machine)}
    (h : NeverLimits e) : NeverLimits (sent program m e).1 := by
  cases e with
  | error trap =>
    intro limit hlimit
    exact h limit (by cases hlimit; rfl)
  | ok executed =>
    obtain ⟨flow, after⟩ := executed
    cases flow <;> exact .ok _

/-- **No step reports a step limit.** -/
theorem step_neverLimits (instructions : InstructionSet) (program : Program) (m : Machine) :
    NeverLimits ((instructions.processor.step program).on m).1 := by
  cases hfetch : instructions.processor.fetch program m.ip with
  | outside =>
    rw [Processor.step_outside hfetch]
    exact .ok _
  | unknown name =>
    rw [Processor.step_unknown hfetch]
    intro limit h
    cases h
  | ready ins op =>
    rw [step_eq_sent hfetch]
    exact sent_neverLimits (effect_neverLimits ins op m)

end PseudoAsm

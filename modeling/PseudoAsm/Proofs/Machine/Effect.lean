import PseudoAsm.Machine.Processor

/-!
# The effect of an instruction

The executor changes a machine as it goes and may trap on the way.  This file says what comes out
of it as one function from machine to machine, in which no state is threaded:

* `effect` — the flow and the machine that an instruction leaves, or its trap;
* `Operation.jumps?` — whether a jump operation jumps, as the status word tells;
* `on_execute` — **the executor has exactly this effect**, and leaves the machine alone if it
  traps.
-/

namespace PseudoAsm

/-! ### Actions that trap before they change anything -/

/-- What an action shows that either traps and leaves the machine `m`, or gives a value and another
machine. -/
def Action.outcome {α : Type} (m : Machine) : Except Trap (α × Machine) → Except Trap α × Machine
  | .ok (x, after) => (.ok x, after)
  | .error trap => (.error trap, m)

/-- A computation without a machine may come first in such an action. -/
theorem Action.on_liftM_bind {α β : Type} {m : Machine} (e : Except Trap α) {f : α → Action β}
    {g : α → Except Trap (β × Machine)} (h : ∀ x, (f x).on m = Action.outcome m (g x)) :
    Action.on (liftM e >>= f) m = Action.outcome m (e >>= g) := by
  rw [Action.on_bind, Action.on_liftM]
  cases e with
  | ok x => exact h x
  | error trap => rfl

theorem Action.outcome_map_self {α : Type} (m : Machine) (e : Except Trap α) :
    Action.outcome m (e.map (·, m)) = (e, m) := by
  cases e <;> rfl

theorem Action.on_liftM_outcome {α : Type} (m : Machine) (e : Except Trap α) :
    Action.on (liftM e : Action α) m = Action.outcome m (e.map (·, m)) := by
  rw [Action.on_liftM, Action.outcome_map_self]

/-! ### Effects -/

/-- The machine with the register in the first parameter replaced. -/
def adjusted (ins : Instruction) (op : Operation) (m : Machine)
    (f : Int32 → Except Trap Int32) : Except Trap (Flow × Machine) := do
  let name ← operand ins op 0
  let (_, registers) ← m.registers.modify name f
  return (.next, { m with registers := registers })

/-- The machine with the register in the first parameter combined with the value in the second. -/
def combined (ins : Instruction) (op : Operation) (m : Machine)
    (f : Int32 → Int32 → Except Trap Int32) : Except Trap (Flow × Machine) := do
  let token ← operand ins op 1
  let value ← m.value token
  adjusted ins op m fun old => f old value

/-- Whether an operation jumps to the address in its first parameter under a status word; nothing
for the operations that are no such jumps, and for calls, which do more than jump. -/
def Operation.jumps? (status : StatusWord) : Operation → Option Bool
  | .jmp => some true
  | .je => some status.zero
  | .jne => some !status.zero
  | .jg => some (!status.zero && !status.negative)
  | .jge => some !status.negative
  | .jl => some status.negative
  | .jle => some (status.zero || status.negative)
  | _ => none

/-- The flow and the machine that an instruction leaves under an operation, or its trap. -/
def effect (ins : Instruction) (op : Operation) (m : Machine) : Except Trap (Flow × Machine) :=
  match op with
  | .mov => do
    let name ← operand ins op 0
    let token ← operand ins op 1
    let value ← m.value token
    return (.next, { m with registers := m.registers.write name value })
  | .inc => adjusted ins op m fun v => .ok (v + 1)
  | .dec => adjusted ins op m fun v => .ok (v - 1)
  | .add => combined ins op m fun v w => .ok (v + w)
  | .sub => combined ins op m fun v w => .ok (v - w)
  | .mul => combined ins op m fun v w => .ok (v * w)
  | .div => combined ins op m (quotient m.ip)
  | .cmp => do
    let first ← operand ins op 0
    let x ← m.value first
    let second ← operand ins op 1
    let y ← m.value second
    return (.next, { m with status := .ofOrdering (compare x.toInt y.toInt) })
  | .jmp | .je | .jne | .jg | .jge | .jl | .jle =>
    (jumpIf ((op.jumps? m.status).getD false) ins op).map (·, m)
  | .jnz => do
    let first ← operand ins op 0
    let x ← m.value first
    if x = 0 then return (.next, m)
    let second ← operand ins op 1
    let offset ← m.value second
    let flow ← relativeJump m.ip offset
    return (flow, m)
  | .call => do
    let flow ← jumpTo ins op
    return (flow, { m with callStack := (m.ip + 1) :: m.callStack })
  | .ret =>
    match m.callStack with
    | [] => .error (.callStackUnderflow m.ip)
    | back :: below => .ok (.jump back, { m with callStack := below })
  | .msg => do
    let text ← m.message ins.params
    return (.next, { m with output := some text })
  | .stop => .ok (.stop, m)

/-- A move writes the value of its second operand. -/
theorem effect_mov {ins : Instruction} {m : Machine} {name token : String} {value : Int32}
    (hname : operand ins .mov 0 = .ok name) (htoken : operand ins .mov 1 = .ok token)
    (hvalue : m.value token = .ok value) :
    effect ins .mov m = .ok (.next, { m with registers := m.registers.write name value }) := by
  rw [effect, hname, htoken]
  show (m.value token >>= _) = _
  rw [hvalue]
  rfl

theorem on_adjustRegister (ins : Instruction) (op : Operation) (m : Machine)
    (f : Int32 → Except Trap Int32) :
    (adjustRegister ins op f).on m = Action.outcome m (adjusted ins op m f) := by
  unfold adjustRegister adjusted
  rw [Action.on_bind, Action.on_get]
  apply Action.on_liftM_bind
  intro name
  apply Action.on_liftM_bind
  intro registers
  rfl

theorem on_combineRegister (ins : Instruction) (op : Operation) (m : Machine)
    (f : Int32 → Int32 → Except Trap Int32) :
    (combineRegister ins op f).on m = Action.outcome m (combined ins op m f) := by
  unfold combineRegister combined
  rw [Action.on_bind, Action.on_get]
  apply Action.on_liftM_bind
  intro token
  apply Action.on_liftM_bind
  intro value
  exact on_adjustRegister ins op m _

/-- **What execution comes to.**  The executor leaves what `effect` says, and on a trap the machine
as it was. -/
theorem on_execute (ins : Instruction) (op : Operation) (m : Machine) :
    (execute ins op).on m = Action.outcome m (effect ins op m) := by
  unfold execute
  rw [Action.on_bind, Action.on_get]
  cases op with
  | mov =>
    apply Action.on_liftM_bind
    intro name
    apply Action.on_liftM_bind
    intro token
    apply Action.on_liftM_bind
    intro value
    rfl
  | inc => exact on_adjustRegister ins .inc m _
  | dec => exact on_adjustRegister ins .dec m _
  | add => exact on_combineRegister ins .add m _
  | sub => exact on_combineRegister ins .sub m _
  | mul => exact on_combineRegister ins .mul m _
  | div => exact on_combineRegister ins .div m _
  | cmp =>
    apply Action.on_liftM_bind
    intro first
    apply Action.on_liftM_bind
    intro x
    apply Action.on_liftM_bind
    intro second
    apply Action.on_liftM_bind
    intro y
    rfl
  | jmp | je | jne | jg | jge | jl | jle => exact Action.on_liftM_outcome m _
  | jnz =>
    apply Action.on_liftM_bind
    intro first
    apply Action.on_liftM_bind
    intro x
    by_cases hx : x = 0
    · rw [if_pos hx, if_pos hx]
      rfl
    · rw [if_neg hx, if_neg hx]
      apply Action.on_liftM_bind
      intro second
      apply Action.on_liftM_bind
      intro offset
      exact Action.on_liftM_outcome m _
  | call =>
    apply Action.on_liftM_bind
    intro flow
    rfl
  | ret =>
    cases hstack : m.callStack with
    | nil => simp only [effect, hstack, Action.on_throw, Action.outcome]
    | cons back below => simp only [effect, hstack]; rfl
  | msg =>
    apply Action.on_liftM_bind
    intro text
    rfl
  | stop => rfl

end PseudoAsm

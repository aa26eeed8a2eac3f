import PseudoAsm.Instruction
import PseudoAsm.InstructionSet
import PseudoAsm.Text.Numeral

/-!
# Control-flow edges

Where control can go from an instruction, as far as its text tells.  A call is assumed to return to
the following instruction, and nothing is assumed about where a return goes.

* `Edge`, `EdgeKind` — a possible move of the pointer and its reason;
* `Edge.leaving` — the edges that leave an instruction, a jump or call before the fallthrough;
* `isUndetermined` — an instruction some of whose successors the text does not tell.
-/

namespace PseudoAsm

/-- Why control can pass from one address to another. -/
inductive EdgeKind where
  | fallthrough
  | branch
  | conditional
  | call
deriving DecidableEq, Repr, Inhabited

/-- A possible move of the pointer. -/
structure Edge where
  source : Nat
  target : Nat
  kind : EdgeKind
deriving DecidableEq, Repr, Inhabited

/-- What an operation means for control. -/
inductive ControlEffect where
  /-- On to the following instruction. -/
  | advance
  /-- To the target. -/
  | branch
  /-- To the target or to the following instruction. -/
  | conditional
  /-- By the offset or to the following instruction. -/
  | relative
  /-- To the target, and back to the following instruction later. -/
  | call
  /-- Back to where the latest call came from. -/
  | back
  /-- Nowhere. -/
  | stop
deriving DecidableEq, Repr

/-- What an operation means for control. -/
def Operation.controlEffect : Operation → ControlEffect
  | .jmp => .branch
  | .je | .jne | .jg | .jge | .jl | .jle => .conditional
  | .jnz => .relative
  | .call => .call
  | .ret => .back
  | .stop => .stop
  | .mov | .inc | .dec | .add | .sub | .mul | .div | .cmp | .msg => .advance

/-! ### Targets as the text tells them -/

/-- The address in the first parameter. -/
def statedTarget? (ins : Instruction) : Option Nat :=
  ins.param? 0 |>.bind Numeral.nat64?

/-- The address that the numeral in the second parameter leads to from an address, unless it is
negative. -/
def statedOffset? (address : Nat) (ins : Instruction) : Option Nat := do
  let offset ← Numeral.int32? (← ins.param? 1)
  let target := (address : Int) + offset.toInt
  if target < 0 then none else some target.toNat

/-- The address that an instruction may transfer control to, if its text tells one, and the kind of
the transfer; nothing for an operation that only goes on, back or nowhere. -/
def transfer? (address : Nat) (ins : Instruction) : ControlEffect → Option (Option Nat × EdgeKind)
  | .branch => some (statedTarget? ins, .branch)
  | .conditional => some (statedTarget? ins, .conditional)
  | .relative => some (statedOffset? address ins, .conditional)
  | .call => some (statedTarget? ins, .call)
  | .advance | .back | .stop => none

/-- Whether control may pass to the following instruction. -/
def ControlEffect.fallsThrough : ControlEffect → Bool
  | .advance | .conditional | .relative | .call => true
  | .branch | .back | .stop => false

/-! ### The edges of an instruction -/

/-- The edges that leave an instruction under an operation. -/
def Edge.leaving (address : Nat) (ins : Instruction) (op : Operation) : List Edge :=
  let jump :=
    match transfer? address ins op.controlEffect with
    | some (some target, kind) => [⟨address, target, kind⟩]
    | _ => []
  let onward :=
    if op.controlEffect.fallsThrough then [⟨address, address + 1, .fallthrough⟩] else []
  jump ++ onward

/-- Whether the text of an instruction does not tell where its operation transfers control to. -/
def isUndetermined (address : Nat) (ins : Instruction) (op : Operation) : Bool :=
  match transfer? address ins op.controlEffect with
  | some (none, _) => true
  | _ => false

/-- The edges of an instruction are its transfer, if the text tells one, and its fallthrough. -/
theorem Edge.mem_leaving_iff {address : Nat} {ins : Instruction} {op : Operation} {edge : Edge} :
    edge ∈ Edge.leaving address ins op ↔ edge.source = address
      ∧ (transfer? address ins op.controlEffect = some (some edge.target, edge.kind)
        ∨ (op.controlEffect.fallsThrough = true ∧ edge.target = address + 1
          ∧ edge.kind = .fallthrough)) := by
  obtain ⟨source, target, kind⟩ := edge
  have honward : ⟨source, target, kind⟩ ∈
      (if op.controlEffect.fallsThrough then [(⟨address, address + 1, .fallthrough⟩ : Edge)]
        else [])
      ↔ source = address ∧ op.controlEffect.fallsThrough = true ∧ target = address + 1
        ∧ kind = .fallthrough := by
    cases op.controlEffect.fallsThrough <;>
      simp only [if_true, Bool.false_eq_true, if_false, List.mem_singleton, Edge.mk.injEq,
        List.not_mem_nil, false_and, and_false, true_and]
  rw [Edge.leaving, List.mem_append, honward, and_or_left]
  refine or_congr_left ?_
  split
  · next found other hfound =>
    simp only [hfound, List.mem_singleton, Edge.mk.injEq, Option.some.injEq, Prod.mk.injEq,
      eq_comm (a := target), eq_comm (a := kind)]
  · next hnone =>
    simp only [List.not_mem_nil, false_iff, not_and]
    intro _ h
    exact hnone target kind h

theorem Edge.source_of_mem_leaving {address : Nat} {ins : Instruction} {op : Operation}
    {edge : Edge} (h : edge ∈ Edge.leaving address ins op) : edge.source = address :=
  (Edge.mem_leaving_iff.1 h).1

theorem Edge.length_leaving_le (address : Nat) (ins : Instruction) (op : Operation) :
    (Edge.leaving address ins op).length ≤ 2 := by
  simp only [Edge.leaving, List.length_append]
  split <;> split <;> simp

end PseudoAsm

import PseudoAsm.Analysis.Edge
import PseudoAsm.Proofs.Machine.Effect
import PseudoAsm.Proofs.Outcome

/-!
# How control passes on

Every operation has one of seven meanings for control, its `controlEffect`.  This file ties that
classification to what execution does.

* `Transferred` — the flows that a control effect allows, and what they do to the call stack;
* `transferred_of_effect` — **every executed instruction transfers control as its operation's
  control effect says**;
* `effect_advance_frame` — an operation that only advances neither reads nor writes the call stack.
-/

namespace PseudoAsm

variable {ins : Instruction} {op : Operation} {m after : Machine} {flow : Flow}

/-- The flow and the machine that an executed instruction with a control effect may leave. -/
inductive Transferred (ins : Instruction) (m : Machine) : ControlEffect → Flow → Machine → Prop
  | advance {after : Machine} (hip : after.ip = m.ip) (hstack : after.callStack = m.callStack) :
      Transferred ins m .advance .next after
  | branch {target : Nat} (h : statedTarget? ins = some target) :
      Transferred ins m .branch (.jump target) m
  | taken {target : Nat} (h : statedTarget? ins = some target) :
      Transferred ins m .conditional (.jump target) m
  | passed : Transferred ins m .conditional .next m
  | moved {token : String} {offset : Int32} (hparam : ins.param? 1 = some token)
      (hvalue : m.value token = .ok offset) (hrange : 0 ≤ (m.ip : Int) + offset.toInt) :
      Transferred ins m .relative (.jump ((m.ip : Int) + offset.toInt).toNat) m
  | stayed : Transferred ins m .relative .next m
  | call {target : Nat} (h : statedTarget? ins = some target) :
      Transferred ins m .call (.jump target) { m with callStack := (m.ip + 1) :: m.callStack }
  | back {address : Nat} {below : List Nat} (h : m.callStack = address :: below) :
      Transferred ins m .back (.jump address) { m with callStack := below }
  | stop : Transferred ins m .stop .stop m

/-! ### Reading operands -/

theorem operand_eq_ok_iff {index : Nat} {token : String} :
    operand ins op index = .ok token ↔ ins.param? index = some token ∧ token.isEmpty = false := by
  unfold operand
  cases hparam : ins.param? index with
  | none => simp only [reduceCtorEq, false_and]
  | some found =>
    constructor
    · intro h
      cases hempty : found.isEmpty with
      | true => simp only [hempty, if_true, reduceCtorEq] at h
      | false =>
        simp only [hempty, Bool.false_eq_true, if_false, Except.ok.injEq] at h
        rw [← h]
        exact ⟨rfl, hempty⟩
    · rintro ⟨hfound, hempty⟩
      rw [Option.some.injEq] at hfound
      simp only [hfound, hempty, Bool.false_eq_true, if_false]

theorem operand_of_ne_empty {index : Nat} {token : String} (hne : token ≠ "")
    (hparam : ins.param? index = some token) : operand ins op index = .ok token := by
  refine operand_eq_ok_iff.2 ⟨hparam, ?_⟩
  rw [Bool.eq_false_iff, Ne, String.isEmpty_iff]
  exact hne

/-- An instruction jumps exactly to the address that its text states. -/
theorem jumpTo_eq_ok_iff :
    jumpTo ins op = .ok flow ↔ ∃ target, statedTarget? ins = some target ∧ flow = .jump target := by
  constructor
  · intro h
    obtain ⟨token, htoken, h⟩ := bind_eq_ok_iff.1 h
    obtain ⟨hparam, -⟩ := operand_eq_ok_iff.1 htoken
    cases hnumeral : Numeral.nat64? token with
    | none => simp only [hnumeral, reduceCtorEq] at h
    | some target =>
      simp only [hnumeral, Except.ok.injEq] at h
      refine ⟨target, ?_, h.symm⟩
      rw [statedTarget?, hparam, Option.bind_some, hnumeral]
  · rintro ⟨target, htarget, rfl⟩
    obtain ⟨token, hparam, hnumeral⟩ := Option.bind_eq_some_iff.1 htarget
    have htoken : operand ins op 0 = .ok token :=
      operand_eq_ok_iff.2 ⟨hparam, Numeral.isEmpty_of_nat64? hnumeral⟩
    refine bind_eq_ok_iff.2 ⟨token, htoken, ?_⟩
    simp only [hnumeral]

theorem relativeJump_eq_ok {source : Nat} {offset : Int32}
    (h : relativeJump source offset = .ok flow) :
    0 ≤ (source : Int) + offset.toInt ∧ flow = .jump ((source : Int) + offset.toInt).toNat := by
  unfold relativeJump at h
  by_cases hnegative : (source : Int) + offset.toInt < 0
  · simp only [if_pos hnegative, reduceCtorEq] at h
  · simp only [if_neg hnegative, Except.ok.injEq] at h
    exact ⟨by omega, h.symm⟩

/-! ### Transfers -/

theorem transferred_of_adjusted {f : Int32 → Except Trap Int32}
    (h : adjusted ins op m f = .ok (flow, after)) : Transferred ins m .advance flow after := by
  obtain ⟨name, -, h⟩ := bind_eq_ok_iff.1 h
  obtain ⟨⟨value, registers⟩, -, h⟩ := bind_eq_ok_iff.1 h
  cases h
  exact .advance rfl rfl

theorem transferred_of_combined {f : Int32 → Int32 → Except Trap Int32}
    (h : combined ins op m f = .ok (flow, after)) : Transferred ins m .advance flow after := by
  obtain ⟨token, -, h⟩ := bind_eq_ok_iff.1 h
  obtain ⟨value, -, h⟩ := bind_eq_ok_iff.1 h
  exact transferred_of_adjusted h

theorem jumpTo_map_eq_ok (h : (jumpTo ins op).map (·, m) = .ok (flow, after)) :
    ∃ target, statedTarget? ins = some target ∧ flow = .jump target ∧ after = m := by
  cases hjump : jumpTo ins op with
  | error trap => rw [hjump] at h; cases h
  | ok answered =>
    rw [hjump] at h
    cases h
    obtain ⟨target, htarget, rfl⟩ := jumpTo_eq_ok_iff.1 hjump
    exact ⟨target, htarget, rfl, rfl⟩

theorem transferred_of_jumpIf {taken : Bool}
    (h : (jumpIf taken ins op).map (·, m) = .ok (flow, after)) :
    Transferred ins m .conditional flow after := by
  cases taken with
  | false =>
    cases h
    exact .passed
  | true =>
    obtain ⟨target, htarget, rfl, rfl⟩ := jumpTo_map_eq_ok h
    exact .taken htarget

/-- **Every executed instruction transfers control as its control effect says.** -/
theorem transferred_of_effect (h : effect ins op m = .ok (flow, after)) :
    Transferred ins m op.controlEffect flow after := by
  cases op with
  | mov =>
    obtain ⟨name, -, h⟩ := bind_eq_ok_iff.1 h
    obtain ⟨token, -, h⟩ := bind_eq_ok_iff.1 h
    obtain ⟨value, -, h⟩ := bind_eq_ok_iff.1 h
    cases h
    exact .advance rfl rfl
  | inc | dec => exact transferred_of_adjusted h
  | add | sub | mul | div => exact transferred_of_combined h
  | cmp =>
    obtain ⟨first, -, h⟩ := bind_eq_ok_iff.1 h
    obtain ⟨x, -, h⟩ := bind_eq_ok_iff.1 h
    obtain ⟨second, -, h⟩ := bind_eq_ok_iff.1 h
    obtain ⟨y, -, h⟩ := bind_eq_ok_iff.1 h
    cases h
    exact .advance rfl rfl
  | jmp =>
    obtain ⟨target, htarget, rfl, rfl⟩ := jumpTo_map_eq_ok h
    exact .branch htarget
  | je | jne | jg | jge | jl | jle => exact transferred_of_jumpIf h
  | jnz =>
    obtain ⟨first, -, h⟩ := bind_eq_ok_iff.1 h
    obtain ⟨x, -, h⟩ := bind_eq_ok_iff.1 h
    by_cases hx : x = 0
    · rw [if_pos hx] at h
      cases h
      exact .stayed
    · rw [if_neg hx] at h
      obtain ⟨second, hsecond, h⟩ := bind_eq_ok_iff.1 h
      obtain ⟨offset, hoffset, h⟩ := bind_eq_ok_iff.1 h
      obtain ⟨answered, hanswered, h⟩ := bind_eq_ok_iff.1 h
      cases h
      obtain ⟨hrange, rfl⟩ := relativeJump_eq_ok hanswered
      exact .moved (operand_eq_ok_iff.1 hsecond).1 hoffset hrange
  | call =>
    obtain ⟨answered, hanswered, h⟩ := bind_eq_ok_iff.1 h
    cases h
    obtain ⟨target, htarget, rfl⟩ := jumpTo_eq_ok_iff.1 hanswered
    exact .call htarget
  | ret =>
    unfold effect at h
    cases hstack : m.callStack with
    | nil => simp only [hstack, reduceCtorEq] at h
    | cons address below =>
      simp only [hstack, Except.ok.injEq, Prod.mk.injEq] at h
      rw [← h.1, ← h.2]
      exact .back hstack
  | msg =>
    obtain ⟨text, -, h⟩ := bind_eq_ok_iff.1 h
    cases h
    exact .advance rfl rfl
  | stop =>
    cases h
    exact .stop

/-! ### Operations that only advance -/

/-- A message reads nothing but registers. -/
theorem message_eq_of_registers (m m' : Machine) (h : m.registers = m'.registers)
    (parts : List String) : m.message parts = m'.message parts := by
  induction parts with
  | nil => rfl
  | cons part rest ih =>
    rw [Machine.message, Machine.message, ih, Machine.messagePart, Machine.messagePart, h]

theorem adjusted_callStack (stack : List Nat) (f : Int32 → Except Trap Int32) :
    adjusted ins op { m with callStack := stack } f
      = (adjusted ins op m f).map fun e => (e.1, { e.2 with callStack := stack }) := by
  simp only [adjusted, map_bind]
  rfl

theorem combined_callStack (stack : List Nat) (f : Int32 → Int32 → Except Trap Int32) :
    combined ins op { m with callStack := stack } f
      = (combined ins op m f).map fun e => (e.1, { e.2 with callStack := stack }) := by
  simp only [combined, map_bind, adjusted_callStack]
  rfl

/-- **An operation that only advances neither reads nor writes the call stack.** -/
theorem effect_advance_frame (hop : op.controlEffect = .advance) (stack : List Nat) :
    effect ins op { m with callStack := stack }
      = (effect ins op m).map fun e => (e.1, { e.2 with callStack := stack }) := by
  cases op with
  | mov | cmp =>
    simp only [effect, map_bind]
    rfl
  | inc | dec => exact adjusted_callStack stack _
  | add | sub | mul | div => exact combined_callStack stack _
  | msg =>
    simp only [effect, map_bind]
    rw [message_eq_of_registers { m with callStack := stack } m rfl]
    rfl
  | jmp | je | jne | jg | jge | jl | jle | jnz | call | ret | stop => cases hop

end PseudoAsm

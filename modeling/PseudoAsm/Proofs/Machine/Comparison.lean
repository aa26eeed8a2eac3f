import PseudoAsm.Proofs.Machine.Calls

/-!
# Conditional jumps and the last comparison

The status word tells a conditional jump how the values of the last comparison compare.  They
compare as integers, so that no difference is cut to 32 bits, and nothing that is executed after the
comparison makes a difference, not even arithmetic on the registers that it has read.

* `compared?`, `isSome_compared?` — the values that an executed comparison compares;
* `lastCompared` — those of the last comparison among the first steps, two zeros if there is none;
* `Stepped.status` — what one step does to the status word;
* `status_machineAt` — **the status word is that of the values compared last**;
* `Operation.condition?`, `jumps?_ofOrdering` — what each conditional jump asks of two integers;
* `jumps_obey_comparison` — **it is taken exactly if the values compared last satisfy it**.
-/

namespace PseudoAsm

variable {program : Program} {m after : Machine} {ins : Instruction} {op : Operation} {flow : Flow}

/-! ### Compared values -/

/-- The values of the first two parameters of an instruction under an operation. -/
def Machine.operandValues (m : Machine) (ins : Instruction) (op : Operation) :
    Except Trap (Int32 × Int32) := do
  let first ← operand ins op 0
  let x ← m.value first
  let second ← operand ins op 1
  let y ← m.value second
  return (x, y)

/-- The values that the instruction under the pointer compares, if it is a comparison and both of its
parameters have a value. -/
def compared? (program : Program) (m : Machine) : Option (Int32 × Int32) :=
  match Processor.standard.fetch program m.ip with
  | .ready ins .cmp => (m.operandValues ins .cmp).toOption
  | _ => none

/-- The values that the step after the first `i` compares. -/
def comparedAt? (program : Program) (m : Machine) (i : Nat) : Option (Int32 × Int32) :=
  compared? program (Processor.standard.machineAt program m i)

/-- The values that were compared last in the first `n` steps, two zeros if none were. -/
def lastCompared (program : Program) (m : Machine) (n : Nat) : Int32 × Int32 :=
  ((List.range n).filterMap (comparedAt? program m)).getLastD (0, 0)

theorem lastCompared_succ (program : Program) (m : Machine) (n : Nat) :
    lastCompared program m (n + 1)
      = (comparedAt? program m n).getD (lastCompared program m n) := by
  unfold lastCompared
  rw [List.range_succ, List.filterMap_append]
  cases hvalues : comparedAt? program m n with
  | none =>
    rw [List.filterMap_cons_none hvalues, List.filterMap_nil, List.append_nil, Option.getD_none]
  | some values =>
    rw [List.filterMap_cons_some hvalues, List.filterMap_nil, List.getLastD_concat,
      Option.getD_some]

theorem compared?_of_ne_cmp (hfetch : Processor.standard.fetch program m.ip = .ready ins op)
    (hop : op ≠ .cmp) : compared? program m = none := by
  unfold compared?
  rw [hfetch]
  cases op <;> first | rfl | exact absurd rfl hop

theorem compared?_cmp (hfetch : Processor.standard.fetch program m.ip = .ready ins .cmp) :
    compared? program m = (m.operandValues ins .cmp).toOption := by
  unfold compared?
  rw [hfetch]

/-! ### The status word -/

/-- The status word after the comparison of two values. -/
def StatusWord.ofCompared (values : Int32 × Int32) : StatusWord :=
  .ofOrdering (compare values.1.toInt values.2.toInt)

/-- A comparison leaves the status word of the values of its operands. -/
theorem effect_cmp (ins : Instruction) (m : Machine) :
    effect ins .cmp m = (m.operandValues ins .cmp).map fun values =>
      (.next, { m with status := .ofCompared values }) := by
  simp only [effect, Machine.operandValues, map_bind]
  rfl

/-- An instruction that traps compares nothing. -/
theorem compared?_of_error {trap : Trap}
    (hfetch : Processor.standard.fetch program m.ip = .ready ins op)
    (heffect : effect ins op m = .error trap) : compared? program m = none := by
  by_cases hop : op = .cmp
  · subst hop
    rw [effect_cmp] at heffect
    rw [compared?_cmp hfetch]
    cases hvalues : m.operandValues ins .cmp with
    | error raised => rfl
    | ok values =>
      rw [hvalues] at heffect
      cases heffect
  · exact compared?_of_ne_cmp hfetch hop

/-- An instruction that is executed compares values exactly if it is a comparison, and then leaves
their status word. -/
theorem compared?_of_ok (hfetch : Processor.standard.fetch program m.ip = .ready ins op)
    (heffect : effect ins op m = .ok (flow, after)) :
    (compared? program m).isSome = (op == .cmp)
      ∧ after.status = ((compared? program m).map StatusWord.ofCompared).getD m.status := by
  by_cases hop : op = .cmp
  · subst hop
    rw [effect_cmp] at heffect
    rw [compared?_cmp hfetch]
    cases hvalues : m.operandValues ins .cmp with
    | error raised =>
      rw [hvalues] at heffect
      cases heffect
    | ok values =>
      rw [hvalues] at heffect
      cases heffect
      exact ⟨rfl, rfl⟩
  · rw [compared?_of_ne_cmp hfetch hop]
    exact ⟨(beq_eq_false_iff_ne.2 hop).symm, status_of_effect heffect hop⟩

/-- **A step leaves the status word of the values that it compares**, and the word as it was if it
compares none. -/
theorem Stepped.status {result : Except Trap Status} (h : Stepped program m result after) :
    after.status = ((compared? program m).map StatusWord.ofCompared).getD m.status := by
  cases h with
  | outside hfetch | unknown hfetch =>
    unfold compared?
    rw [hfetch]
    rfl
  | trapped hfetch heffect =>
    rw [compared?_of_error hfetch heffect]
    rfl
  | ended hfetch heffect htarget | moved hfetch heffect htarget =>
    have hstatus := (compared?_of_ok hfetch heffect).2
    exact hstatus

/-- The instruction under the pointer compares values exactly if it is a comparison that is
executed. -/
theorem isSome_compared? (program : Program) (m : Machine) :
    (compared? program m).isSome = performs program .cmp m := by
  cases hfetch : Processor.standard.fetch program m.ip with
  | outside | unknown =>
    unfold compared? performs
    rw [hfetch]
    rfl
  | ready ins op =>
    have hstep := step_standard hfetch
    cases heffect : effect ins op m with
    | error trap =>
      rw [heffect] at hstep
      rw [compared?_of_error hfetch heffect, performs_of_error (congrArg Prod.fst hstep)]
      rfl
    | ok executed =>
      obtain ⟨flow, after⟩ := executed
      rw [(compared?_of_ok hfetch heffect).1]
      rw [heffect] at hstep
      cases htarget : flow.target? m.ip with
      | none =>
        simp only [sent, htarget] at hstep
        rw [performs_of_ok hfetch (congrArg Prod.fst hstep)]
      | some target =>
        simp only [sent, htarget] at hstep
        rw [performs_of_ok hfetch (congrArg Prod.fst hstep)]

/-- **The status word is that of the values compared last.** -/
theorem status_machineAt (program : Program) (settings : Settings) (n : Nat) :
    (Processor.standard.machineAt program (.fresh settings) n).status
      = .ofCompared (lastCompared program (.fresh settings) n) := by
  induction n with
  | zero => rfl
  | succ n ih =>
    rw [(stepped_at program (.fresh settings) n).status, lastCompared_succ, ih, comparedAt?]
    cases compared? program (Processor.standard.machineAt program (.fresh settings) n) <;> rfl

/-! ### The flags as comparisons of integers -/

theorem zero_ofOrdering_compare (x y : Int) :
    (StatusWord.ofOrdering (compare x y)).zero = decide (x = y) := by
  rcases Int.lt_trichotomy x y with hlt | heq | hgt
  · rw [Int.compare_eq_lt.2 hlt, decide_eq_false (Int.ne_of_lt hlt)]
    rfl
  · rw [Int.compare_eq_eq.2 heq, decide_eq_true heq]
    rfl
  · rw [Int.compare_eq_gt.2 hgt, decide_eq_false (Int.ne_of_gt hgt)]
    rfl

theorem negative_ofOrdering_compare (x y : Int) :
    (StatusWord.ofOrdering (compare x y)).negative = decide (x < y) := by
  rcases Int.lt_trichotomy x y with hlt | heq | hgt
  · rw [Int.compare_eq_lt.2 hlt, decide_eq_true hlt]
    rfl
  · rw [Int.compare_eq_eq.2 heq, decide_eq_false (Int.not_lt_of_ge (Int.le_of_eq heq.symm))]
    rfl
  · rw [Int.compare_eq_gt.2 hgt, decide_eq_false (Int.not_lt_of_ge (Int.le_of_lt hgt))]
    rfl

/-- The flags tell the sign of the exact difference. -/
theorem sign_ofOrdering_compare (x y : Int) :
    (StatusWord.ofOrdering (compare x y)).sign = (x - y).sign := by
  rw [StatusWord.sign, zero_ofOrdering_compare, negative_ofOrdering_compare]
  rcases Int.lt_trichotomy x y with hlt | heq | hgt
  · rw [Int.sign_eq_neg_one_of_neg (by omega), decide_eq_false (Int.ne_of_lt hlt),
      decide_eq_true hlt]
    rfl
  · rw [heq, Int.sub_self, Int.sign_zero, decide_eq_true rfl]
    rfl
  · rw [Int.sign_eq_one_of_pos (by omega), decide_eq_false (Int.ne_of_gt hgt),
      decide_eq_false (Int.not_lt_of_ge (Int.le_of_lt hgt))]
    rfl

/-! ### Conditional jumps -/

/-- What a conditional jump asks of the values compared last. -/
def Operation.condition? : Operation → Option (Int → Int → Bool)
  | .je => some fun x y => decide (x = y)
  | .jne => some fun x y => decide (x ≠ y)
  | .jg => some fun x y => decide (x > y)
  | .jge => some fun x y => decide (x ≥ y)
  | .jl => some fun x y => decide (x < y)
  | .jle => some fun x y => decide (x ≤ y)
  | _ => none

/-- **The flags decide what a conditional jump asks.** -/
theorem jumps?_ofOrdering {condition : Int → Int → Bool} (h : op.condition? = some condition)
    (x y : Int) : op.jumps? (.ofOrdering (compare x y)) = some (condition x y) := by
  have hzero := zero_ofOrdering_compare x y
  have hnegative := negative_ofOrdering_compare x y
  cases op with
  | je =>
    cases h
    exact congrArg some hzero
  | jl =>
    cases h
    exact congrArg some hnegative
  | jne =>
    cases h
    rw [Operation.jumps?, hzero, ← decide_not]
  | jge =>
    cases h
    rw [Operation.jumps?, hnegative, ← decide_not]
    exact congrArg some (decide_eq_decide.2 Int.not_lt)
  | jg =>
    cases h
    rw [Operation.jumps?, hzero, hnegative, ← decide_not, ← decide_not, ← Bool.decide_and]
    exact congrArg some (decide_eq_decide.2 (by omega))
  | jle =>
    cases h
    rw [Operation.jumps?, hzero, hnegative, ← Bool.decide_or]
    exact congrArg some (decide_eq_decide.2 (by omega))
  | _ => cases h

/-- The effect of a conditional jump whose text states an address. -/
theorem effect_of_condition? {condition : Int → Int → Bool} {x y : Int} {target : Nat}
    (h : op.condition? = some condition) (hstatus : m.status = .ofOrdering (compare x y))
    (htarget : statedTarget? ins = some target) :
    effect ins op m = .ok (if condition x y then .jump target else .next, m) := by
  have hjumps := jumps?_ofOrdering h x y
  have hjump : jumpTo ins op = .ok (.jump target) := jumpTo_eq_ok_iff.2 ⟨target, htarget, rfl⟩
  have heffect : effect ins op m
      = (jumpIf ((op.jumps? m.status).getD false) ins op).map (·, m) := by
    cases op <;> first | rfl | cases h
  rw [heffect, hstatus, hjumps, Option.getD_some, jumpIf]
  cases condition x y with
  | true => rw [if_pos rfl, if_pos rfl, hjump]; rfl
  | false => rfl

/-- **Conditional jumps obey the last comparison.**  After any number of steps from a fresh machine
the flags tell the sign of the exact difference of the values compared last, and are never set both.
A conditional jump to an address that its text states is taken exactly if these values, as
integers, satisfy what it asks; else it passes control on.  Nothing else in the machine changes. -/
theorem jumps_obey_comparison (program : Program) (settings : Settings) (n : Nat) :
    (∀ i < n, (comparedAt? program (.fresh settings) i).isSome
      = performedAt program (.fresh settings) .cmp i)
    ∧ ∃ x y : Int32, lastCompared program (.fresh settings) n = (x, y)
      ∧ (Processor.standard.machineAt program (.fresh settings) n).status.sign
        = (x.toInt - y.toInt).sign
      ∧ ¬((Processor.standard.machineAt program (.fresh settings) n).status.zero = true
        ∧ (Processor.standard.machineAt program (.fresh settings) n).status.negative = true)
      ∧ ∀ ins op condition target,
        Processor.standard.fetch program
            (Processor.standard.machineAt program (.fresh settings) n).ip = .ready ins op →
        op.condition? = some condition → statedTarget? ins = some target →
          (execute ins op).on (Processor.standard.machineAt program (.fresh settings) n)
            = (.ok (if condition x.toInt y.toInt then .jump target else .next),
              Processor.standard.machineAt program (.fresh settings) n)
          ∧ (Processor.standard.step program).on
              (Processor.standard.machineAt program (.fresh settings) n)
            = (.ok (statusAt program (if condition x.toInt y.toInt then target
                else (Processor.standard.machineAt program (.fresh settings) n).ip + 1)),
              { Processor.standard.machineAt program (.fresh settings) n with
                ip := if condition x.toInt y.toInt then target
                  else (Processor.standard.machineAt program (.fresh settings) n).ip + 1 }) := by
  refine ⟨fun i _ => isSome_compared? program _, ?_⟩
  obtain ⟨⟨x, y⟩, hvalues⟩ : ∃ values, lastCompared program (.fresh settings) n = values :=
    ⟨_, rfl⟩
  have hstatus := status_machineAt program settings n
  rw [hvalues, StatusWord.ofCompared] at hstatus
  generalize Processor.standard.machineAt program (.fresh settings) n = m at hstatus ⊢
  refine ⟨x, y, hvalues, ?_, ?_, ?_⟩
  · rw [hstatus, sign_ofOrdering_compare]
  · rw [hstatus, zero_ofOrdering_compare, negative_ofOrdering_compare, decide_eq_true_eq,
      decide_eq_true_eq]
    omega
  · intro ins op condition target hfetch hcondition htarget
    have heffect := effect_of_condition? hcondition hstatus htarget
    constructor
    · rw [on_execute, heffect]
      rfl
    · rw [step_standard hfetch, heffect]
      cases condition x.toInt y.toInt <;> rfl

/-- A comparison whose difference is no word.  Afterwards a subroutine changes the register that it
has read, so that a new comparison would find the opposite. -/
def wideProgram : Program :=
  [⟨"mov", ["low", "-2147483648"]⟩, ⟨"cmp", ["LOW", "2147483647"]⟩, ⟨"call", ["4"]⟩, ⟨"end", []⟩,
    ⟨"sub", ["low", "1"]⟩, ⟨"jl", ["3"]⟩]

/-- The jump at the end of the wide program is taken. -/
theorem jumps_obey_comparison_wide :
    lastCompared wideProgram (.fresh {}) 4 = (-2147483648, 2147483647)
      ∧ (Processor.standard.machineAt wideProgram (.fresh {}) 4).registers.get? "low"
        = some 2147483647
      ∧ (Processor.standard.machineAt wideProgram (.fresh {}) 4).status.sign = -1
      ∧ Processor.standard.resultAt wideProgram (.fresh {}) 4 = .ok .running
      ∧ (Processor.standard.machineAt wideProgram (.fresh {}) 5).ip = 3 := by
  have hvalues : lastCompared wideProgram (.fresh {}) 4 = (-2147483648, 2147483647) := by
    decide +kernel
  obtain ⟨-, x, y, hlast, hsign, -, hjumps⟩ := jumps_obey_comparison wideProgram {} 4
  rw [hvalues, Prod.mk.injEq] at hlast
  obtain ⟨rfl, rfl⟩ := hlast
  obtain ⟨-, hstep⟩ := hjumps ⟨"jl", ["3"]⟩ .jl _ 3 (by decide +kernel) rfl (by decide +kernel)
  refine ⟨hvalues, by decide +kernel, hsign, ?_, ?_⟩
  · rw [Processor.resultAt, hstep]
    rfl
  · rw [Processor.machineAt_succ, hstep]
    rfl

end PseudoAsm

import PseudoAsm.Proofs.Machine.Frame

/-!
# Calls and returns

The call stack of the standard machine in terms of the calls and returns that it has executed.
Every executed return matches one earlier call, the latest that no return before it matches.

* `performs`, `performedAt` — an instruction is executed under an operation without a trap;
* `Matches`, `Unmatched` — which return matches which call, and the calls still under way;
* `StackStep`, `stack_step` — what one step does to the call stack;
* `open_machineAt` — **the call stack lists the return addresses of the unmatched calls**;
* `call_stack_discipline` — what follows for return addresses, returns, the depth and underflows.
-/

namespace PseudoAsm

variable {program : Program} {m : Machine} {ins : Instruction} {op : Operation}

/-! ### Executed instructions -/

/-- The step of a machine executes an instruction under the operation, and it does not trap. -/
def performs (program : Program) (op : Operation) (m : Machine) : Bool :=
  match Processor.standard.fetch program m.ip with
  | .ready _ found => found == op && ((Processor.standard.step program).on m).1.isOk
  | _ => false

/-- The step after the first `i` executes an instruction under the operation. -/
def performedAt (program : Program) (m : Machine) (op : Operation) (i : Nat) : Bool :=
  performs program op (Processor.standard.machineAt program m i)

/-- How many of the first `n` steps execute an instruction under the operation. -/
def executed (program : Program) (m : Machine) (op : Operation) (n : Nat) : Nat :=
  (List.range n).countP (performedAt program m op)

theorem executed_succ (program : Program) (m : Machine) (op : Operation) (n : Nat) :
    executed program m op (n + 1)
      = executed program m op n + if performedAt program m op n then 1 else 0 := by
  rw [executed, List.range_succ, List.countP_append, List.countP_singleton, executed]

theorem fetch_of_performs (h : performs program op m = true) :
    ∃ ins, Processor.standard.fetch program m.ip = .ready ins op := by
  unfold performs at h
  cases hfetch : Processor.standard.fetch program m.ip with
  | outside | unknown => rw [hfetch] at h; cases h
  | ready ins found =>
    rw [hfetch, Bool.and_eq_true, beq_iff_eq] at h
    exact ⟨ins, by rw [h.1]⟩

/-- Where the step answers, the instruction under the pointer is executed. -/
theorem performs_of_ok {status : Status}
    (hfetch : Processor.standard.fetch program m.ip = .ready ins op)
    (hstep : ((Processor.standard.step program).on m).1 = .ok status) (other : Operation) :
    performs program other m = (op == other) := by
  rw [performs, hfetch, hstep]
  exact Bool.and_true _

theorem performs_of_error {trap : Trap}
    (hstep : ((Processor.standard.step program).on m).1 = .error trap) (other : Operation) :
    performs program other m = false := by
  unfold performs
  cases Processor.standard.fetch program m.ip with
  | outside | unknown => rfl
  | ready ins found =>
    rw [hstep]
    exact Bool.and_false _

theorem performs_of_outside (hfetch : Processor.standard.fetch program m.ip = .outside)
    (other : Operation) : performs program other m = false := by
  rw [performs, hfetch]

/-! ### One step of the call stack -/

/-- What a step may do to the call stack. -/
inductive StackStep (program : Program) (m after : Machine) : Prop
  /-- A call is executed and its return address pushed. -/
  | called (hcall : performs program .call m = true) (hret : performs program .ret m = false)
      (hstack : after.callStack = (m.ip + 1) :: m.callStack)
  /-- A return is executed, and the pointer goes to the address that it takes from the stack. -/
  | returned (hret : performs program .ret m = true) (hcall : performs program .call m = false)
      (hstack : m.callStack = after.ip :: after.callStack)
  /-- Neither is executed. -/
  | kept (hcall : performs program .call m = false) (hret : performs program .ret m = false)
      (hstack : after.callStack = m.callStack)

theorem eq_call_of_controlEffect (h : op.controlEffect = .call) : op = .call := by
  cases op <;> first | rfl | cases h

theorem eq_ret_of_controlEffect (h : op.controlEffect = .back) : op = .ret := by
  cases op <;> first | rfl | cases h

/-- An executed instruction that neither calls nor returns keeps the stack. -/
theorem StackStep.of_other {after : Machine} {status : Status}
    (hfetch : Processor.standard.fetch program m.ip = .ready ins op)
    (hstep : ((Processor.standard.step program).on m).1 = .ok status)
    (hcall : op.controlEffect ≠ .call) (hret : op.controlEffect ≠ .back)
    (hstack : after.callStack = m.callStack) : StackStep program m after := by
  have hperforms := performs_of_ok hfetch hstep
  refine .kept ?_ ?_ hstack
  · rw [hperforms, beq_eq_false_iff_ne]
    rintro rfl
    exact hcall rfl
  · rw [hperforms, beq_eq_false_iff_ne]
    rintro rfl
    exact hret rfl

/-- **Every step calls, returns or keeps the stack.** -/
theorem stack_step (program : Program) (m : Machine) :
    StackStep program m ((Processor.standard.step program).on m).2 := by
  have hstepped := stepped program m
  generalize hresult : ((Processor.standard.step program).on m).1 = result at hstepped
  generalize ((Processor.standard.step program).on m).2 = after at hstepped ⊢
  cases hstepped with
  | outside hfetch =>
    exact .kept (performs_of_outside hfetch _) (performs_of_outside hfetch _) rfl
  | unknown | trapped =>
    exact .kept (performs_of_error hresult _) (performs_of_error hresult _) rfl
  | ended hfetch heffect htarget =>
    have htransferred := transferred_of_effect heffect
    generalize hcontrol : Operation.controlEffect _ = control at htransferred
    cases htransferred with
    | stop => exact .of_other hfetch hresult (by rw [hcontrol]; nofun) (by rw [hcontrol]; nofun) rfl
    | _ => cases htarget
  | moved hfetch heffect htarget =>
    have htransferred := transferred_of_effect heffect
    have hperforms := performs_of_ok hfetch hresult
    generalize hcontrol : Operation.controlEffect _ = control at htransferred
    cases htransferred with
    | advance hip hstack =>
      exact .of_other hfetch hresult (by rw [hcontrol]; nofun) (by rw [hcontrol]; nofun) hstack
    | branch | taken | passed | moved | stayed =>
      exact .of_other hfetch hresult (by rw [hcontrol]; nofun) (by rw [hcontrol]; nofun) rfl
    | call =>
      rw [eq_call_of_controlEffect hcontrol] at hperforms
      exact .called (hperforms .call) (hperforms .ret) rfl
    | back hstack =>
      rw [eq_ret_of_controlEffect hcontrol] at hperforms
      cases htarget
      exact .returned (hperforms .ret) (hperforms .call) hstack
    | stop => cases htarget

/-- A return underflows exactly if the stack is empty. -/
theorem underflows_iff (hfetch : Processor.standard.fetch program m.ip = .ready ins .ret) :
    ((Processor.standard.step program).on m).1 = .error (.callStackUnderflow m.ip)
      ↔ m.callStack = [] := by
  rw [step_standard hfetch]
  cases hstack : m.callStack with
  | nil => simp only [effect, hstack, sent]
  | cons back below => simp only [effect, hstack, sent, Flow.target?, reduceCtorEq]

/-! ### Matching -/

/-- The return executed in step `j` matches the call executed in step `i`: among the calls before
it that no return before it matches, that is the latest. -/
def Matches (program : Program) (m : Machine) (j i : Nat) : Prop :=
  performedAt program m .ret j = true
  ∧ (i < j ∧ performedAt program m .call i = true ∧ ∀ k < j, ¬Matches program m k i)
  ∧ ∀ other < j, performedAt program m .call other = true →
    (∀ k < j, ¬Matches program m k other) → other ≤ i
termination_by j

/-- The call executed in step `i` is not matched by a return in the first `n` steps. -/
def Unmatched (program : Program) (m : Machine) (n i : Nat) : Prop :=
  i < n ∧ performedAt program m .call i = true ∧ ∀ k < n, ¬Matches program m k i

/-- A return matches the latest unmatched call. -/
theorem matches_iff {j i : Nat} :
    Matches program m j i ↔ performedAt program m .ret j = true ∧ Unmatched program m j i
      ∧ ∀ other, Unmatched program m j other → other ≤ i := by
  rw [Matches]
  constructor
  · rintro ⟨hret, hunmatched, hlatest⟩
    exact ⟨hret, hunmatched, fun other ⟨hlt, hcall, hno⟩ => hlatest other hlt hcall hno⟩
  · rintro ⟨hret, hunmatched, hlatest⟩
    exact ⟨hret, hunmatched, fun other hlt hcall hno => hlatest other ⟨hlt, hcall, hno⟩⟩

theorem not_matches_of_ret {j i : Nat} (hret : performedAt program m .ret j = false) :
    ¬Matches program m j i := by
  intro hmatches
  rw [(matches_iff.1 hmatches).1] at hret
  cases hret

/-- A step adds the call that it executes and takes away the call that it matches. -/
theorem unmatched_succ_iff {n i : Nat} :
    Unmatched program m (n + 1) i
      ↔ (i = n ∧ performedAt program m .call n = true)
        ∨ (Unmatched program m n i ∧ ¬Matches program m n i) := by
  constructor
  · rintro ⟨hi, hcall, hno⟩
    rcases Nat.lt_succ_iff_lt_or_eq.1 hi with hlt | rfl
    · exact .inr ⟨⟨hlt, hcall, fun k hk => hno k (by omega)⟩, hno n (Nat.lt_succ_self n)⟩
    · exact .inl ⟨rfl, hcall⟩
  · rintro (⟨rfl, hcall⟩ | ⟨⟨hlt, hcall, hno⟩, hn⟩)
    · refine ⟨Nat.lt_succ_self i, hcall, ?_⟩
      intro k hk hmatches
      obtain ⟨-, ⟨hik, -⟩, -⟩ := matches_iff.1 hmatches
      omega
    · refine ⟨Nat.lt_succ_of_lt hlt, hcall, ?_⟩
      intro k hk
      rcases Nat.lt_succ_iff_lt_or_eq.1 hk with hkn | rfl
      · exact hno k hkn
      · exact hn

/-! ### The calls under way -/

/-- The list of the unmatched calls, the latest first. -/
structure Open (program : Program) (m : Machine) (n : Nat) (calls : List Nat) : Prop where
  descending : calls.Pairwise (· > ·)
  mem_iff : ∀ i, i ∈ calls ↔ Unmatched program m n i

namespace Open

variable {n : Nat} {calls : List Nat}

theorem zero (program : Program) (m : Machine) : Open program m 0 [] where
  descending := .nil
  mem_iff := by
    intro i
    exact iff_of_false List.not_mem_nil fun h => Nat.not_lt_zero i h.1

theorem call (h : Open program m n calls) (hcall : performedAt program m .call n = true)
    (hret : performedAt program m .ret n = false) : Open program m (n + 1) (n :: calls) where
  descending := .cons (fun i hi => ((h.mem_iff i).1 hi).1) h.descending
  mem_iff := by
    intro i
    have hno : ¬Matches program m n i := not_matches_of_ret hret
    rw [List.mem_cons, h.mem_iff, unmatched_succ_iff, and_iff_left hcall, and_iff_left hno]

/-- A return matches the first call of the list. -/
theorem matches_head {i : Nat} (h : Open program m n (i :: calls))
    (hret : performedAt program m .ret n = true) : Matches program m n i := by
  refine matches_iff.2 ⟨hret, (h.mem_iff i).1 List.mem_cons_self, ?_⟩
  intro other hother
  rcases List.mem_cons.1 ((h.mem_iff other).2 hother) with rfl | hmem
  · exact Nat.le_refl other
  · exact Nat.le_of_lt (List.rel_of_pairwise_cons h.descending hmem)

theorem ret {i : Nat} (h : Open program m n (i :: calls))
    (hret : performedAt program m .ret n = true) (hcall : performedAt program m .call n = false) :
    Open program m (n + 1) calls where
  descending := h.descending.of_cons
  mem_iff := by
    intro k
    rw [unmatched_succ_iff, hcall, ← h.mem_iff, List.mem_cons]
    constructor
    · intro hk
      refine .inr ⟨.inr hk, ?_⟩
      intro hmatches
      have hle := (matches_iff.1 hmatches).2.2 i ((h.mem_iff i).1 List.mem_cons_self)
      have hlt := List.rel_of_pairwise_cons h.descending hk
      omega
    · rintro (⟨-, hfalse⟩ | ⟨rfl | hk, hno⟩)
      · cases hfalse
      · exact absurd (h.matches_head hret) hno
      · exact hk

theorem keep (h : Open program m n calls) (hcall : performedAt program m .call n = false)
    (hret : performedAt program m .ret n = false) : Open program m (n + 1) calls where
  descending := h.descending
  mem_iff := by
    intro i
    have hno : ¬Matches program m n i := not_matches_of_ret hret
    rw [h.mem_iff, unmatched_succ_iff, hcall, and_iff_left hno]
    exact ⟨.inr, fun hi => hi.resolve_left fun hfalse => Bool.false_ne_true hfalse.2⟩

end Open

/-- **The call stack lists the return addresses of the unmatched calls, the latest first.** -/
theorem open_machineAt (program : Program) (settings : Settings) (n : Nat) :
    ∃ calls, Open program (.fresh settings) n calls
      ∧ (Processor.standard.machineAt program (.fresh settings) n).callStack
        = calls.map fun i => (Processor.standard.machineAt program (.fresh settings) i).ip + 1 := by
  induction n with
  | zero => exact ⟨[], .zero program _, rfl⟩
  | succ n ih =>
    obtain ⟨calls, hopen, hcalls⟩ := ih
    cases stack_step program (Processor.standard.machineAt program (.fresh settings) n) with
    | called hcall hret hstack =>
      refine ⟨n :: calls, hopen.call hcall hret, ?_⟩
      rw [Processor.machineAt_succ, hstack, hcalls, List.map_cons]
    | returned hret hcall hstack =>
      rw [hcalls] at hstack
      obtain ⟨i, rest, rfl, -, hrest⟩ := List.map_eq_cons_iff.1 hstack
      exact ⟨rest, hopen.ret hret hcall, hrest.symm⟩
    | kept hcall hret hstack =>
      refine ⟨calls, hopen.keep hcall hret, ?_⟩
      rw [Processor.machineAt_succ, hstack, hcalls]

/-! ### The discipline -/

/-- The address after an executed call is a return address of the program. -/
theorem call_before_of_performs (h : performs program .call m = true) :
    m.ip + 1 ≤ program.length ∧ ∃ ins, program[m.ip]? = some ins ∧ ins.name = "call" := by
  obtain ⟨ins, hfetch⟩ := fetch_of_performs h
  obtain ⟨hins, row, hrow, hop⟩ := Processor.fetch_eq_ready_iff.1 hfetch
  have hname := InstructionSet.mnemonic_operation_of_find? hrow
  rw [hop] at hname
  exact ⟨(List.getElem?_eq_some_iff.1 hins).1, ins, hins, hname.symm⟩

/-- Every return address is an address of the program, or its end. -/
theorem returnAddress_le {program : Program} {settings : Settings} {n r : Nat}
    (hr : r ∈ (Processor.standard.machineAt program (.fresh settings) n).callStack) :
    r ≤ program.length := by
  obtain ⟨calls, hopen, hcalls⟩ := open_machineAt program settings n
  rw [hcalls] at hr
  obtain ⟨i, hi, rfl⟩ := List.mem_map.1 hr
  obtain ⟨-, hcall, -⟩ := (hopen.mem_iff i).1 hi
  exact (call_before_of_performs hcall).1

/-- The depth is the number of executed calls less that of executed returns. -/
theorem callDepth_machineAt (program : Program) (settings : Settings) (n : Nat) :
    (Processor.standard.machineAt program (.fresh settings) n).callDepth
        + executed program (.fresh settings) .ret n
      = executed program (.fresh settings) .call n := by
  induction n with
  | zero => rfl
  | succ n ih =>
    rw [executed_succ, executed_succ, performedAt, performedAt, Processor.machineAt_succ]
    unfold Machine.callDepth at ih ⊢
    cases stack_step program (Processor.standard.machineAt program (.fresh settings) n) with
    | called hcall hret hstack =>
      rw [hcall, hret, hstack, List.length_cons, if_pos rfl, if_neg Bool.false_ne_true]
      omega
    | returned hret hcall hstack =>
      rw [hstack, List.length_cons] at ih
      rw [hcall, hret, if_pos rfl, if_neg Bool.false_ne_true]
      omega
    | kept hcall hret hstack =>
      rw [hcall, hret, hstack, if_neg Bool.false_ne_true]
      omega

/-- **The discipline of calls and returns.**  After any number of steps from a fresh machine the
call stack, bottom first, lists the addresses after the unmatched calls in the order of their
execution.  Every entry is at most the length of the program and follows a call.  An executed return
sends the pointer behind the call that it matches and leaves the entries below as they are.  The
depth is the number of executed calls less that of executed returns.  A return underflows exactly if
a return before it matches every call before it. -/
theorem call_stack_discipline (program : Program) (settings : Settings) (n : Nat) :
    (∃ calls : List Nat, calls.Pairwise (· < ·)
      ∧ (∀ i, i ∈ calls ↔ Unmatched program (.fresh settings) n i)
      ∧ (Processor.standard.machineAt program (.fresh settings) n).callStack.reverse
        = calls.map fun i => (Processor.standard.machineAt program (.fresh settings) i).ip + 1)
    ∧ (∀ r ∈ (Processor.standard.machineAt program (.fresh settings) n).callStack,
      1 ≤ r ∧ r ≤ program.length ∧ ∃ ins, program[r - 1]? = some ins ∧ ins.name = "call")
    ∧ (performedAt program (.fresh settings) .ret n = true →
      ∃ i, Matches program (.fresh settings) n i
        ∧ (Processor.standard.machineAt program (.fresh settings) (n + 1)).ip
          = (Processor.standard.machineAt program (.fresh settings) i).ip + 1
        ∧ (Processor.standard.machineAt program (.fresh settings) n).callStack
          = ((Processor.standard.machineAt program (.fresh settings) i).ip + 1)
            :: (Processor.standard.machineAt program (.fresh settings) (n + 1)).callStack)
    ∧ (Processor.standard.machineAt program (.fresh settings) n).callDepth
        + executed program (.fresh settings) .ret n
      = executed program (.fresh settings) .call n
    ∧ ∀ ins, Processor.standard.fetch program
          (Processor.standard.machineAt program (.fresh settings) n).ip = .ready ins .ret →
        (Processor.standard.resultAt program (.fresh settings) n
            = .error (.callStackUnderflow
              (Processor.standard.machineAt program (.fresh settings) n).ip)
          ↔ ∀ i < n, performedAt program (.fresh settings) .call i = true →
            ∃ j < n, Matches program (.fresh settings) j i) := by
  obtain ⟨calls, hopen, hcalls⟩ := open_machineAt program settings n
  refine ⟨⟨calls.reverse, ?_, ?_, ?_⟩, ?_, ?_, callDepth_machineAt program settings n, ?_⟩
  · exact List.pairwise_reverse.2 hopen.descending
  · intro i
    rw [List.mem_reverse, hopen.mem_iff]
  · rw [hcalls, List.map_reverse]
  · intro r hr
    rw [hcalls] at hr
    obtain ⟨i, hi, rfl⟩ := List.mem_map.1 hr
    obtain ⟨-, hcall, -⟩ := (hopen.mem_iff i).1 hi
    exact ⟨Nat.succ_pos _, call_before_of_performs hcall⟩
  · intro hret
    cases stack_step program (Processor.standard.machineAt program (.fresh settings) n) with
    | returned _ _ hstack =>
      have hlist := hcalls.symm.trans hstack
      obtain ⟨i, rest, rfl, hip, -⟩ := List.map_eq_cons_iff.1 hlist
      exact ⟨i, hopen.matches_head hret, hip.symm, hip ▸ hstack⟩
    | called _ hnot | kept _ hnot => exact absurd hret (by rw [performedAt, hnot]; nofun)
  · intro ins hfetch
    have hempty : (Processor.standard.machineAt program (.fresh settings) n).callStack = []
        ↔ calls = [] := by rw [hcalls, List.map_eq_nil_iff]
    rw [Processor.resultAt, underflows_iff hfetch, hempty, List.eq_nil_iff_forall_not_mem]
    constructor
    · intro hnone i hi hcall
      refine Classical.byContradiction fun hno => ?_
      exact hnone i ((hopen.mem_iff i).2 ⟨hi, hcall, fun j hj hmatches => hno ⟨j, hj, hmatches⟩⟩)
    · intro hmatched i hi
      obtain ⟨hlt, hcall, hno⟩ := (hopen.mem_iff i).1 hi
      obtain ⟨j, hj, hmatches⟩ := hmatched i hlt hcall
      exact hno j hj hmatches

/-- A program that calls once and returns twice. -/
def returningProgram : Program :=
  [⟨"call", ["2"]⟩, ⟨"ret", []⟩, ⟨"ret", []⟩]

/-- The first return of the returning program matches its call, and the second underflows. -/
theorem call_stack_discipline_returning :
    (∃ i, Matches returningProgram (.fresh {}) 1 i
        ∧ (Processor.standard.machineAt returningProgram (.fresh {}) 2).ip
          = (Processor.standard.machineAt returningProgram (.fresh {}) i).ip + 1)
      ∧ Processor.standard.resultAt returningProgram (.fresh {}) 2
        = .error (.callStackUnderflow 1)
      ∧ ∀ i < 2, performedAt returningProgram (.fresh {}) .call i = true →
        ∃ j < 2, Matches returningProgram (.fresh {}) j i := by
  obtain ⟨-, -, hret, -, -⟩ := call_stack_discipline returningProgram {} 1
  obtain ⟨-, -, -, -, hunderflows⟩ := call_stack_discipline returningProgram {} 2
  obtain ⟨i, hmatches, hip, -⟩ := hret (by decide +kernel)
  have hunderflow : Processor.standard.resultAt returningProgram (.fresh {}) 2
      = .error (.callStackUnderflow 1) := rfl
  refine ⟨⟨i, hmatches, hip⟩, hunderflow, ?_⟩
  exact (hunderflows ⟨"ret", []⟩ (by decide +kernel)).1 hunderflow

end PseudoAsm

import PseudoAsm.Analysis.Report
import PseudoAsm.Proofs.Analysis.Walk
import PseudoAsm.Proofs.Machine.Frame

/-!
# Soundness of control-flow reports

A report is computed from the text of a program alone.  As long as a run executes no address that
the report calls undetermined, the report tells what the run does.  A return has no edge in the
report; what it does is known from the return addresses, each of which follows a reachable call.

* `exists_edge_of_transferred` — a move of the pointer, returns apart, follows an edge of the
  instruction that makes it;
* `Tracked` — the invariant: the pointer is at a reachable address or outside the program, and every
  return address follows a reachable call;
* `Predicted` — what the report tells about a step;
* `Tracked.step`, `predicted_of_tracked` — one step of a tracked machine;
* `analysis_sound` — **the report predicts every step of every run**, and if nothing in it is
  undetermined then no run gets to an address that it calls unreachable.
-/

namespace PseudoAsm

variable {program : Program} {ins : Instruction} {op : Operation} {m after : Machine} {flow : Flow}

/-! ### Moves and edges -/

/-- An offset that the text tells is the one that execution reads, whatever the registers hold. -/
theorem statedOffset?_eq_some {address target : Nat} {token : String} {offset : Int32}
    (h : statedOffset? address ins = some target) (hparam : ins.param? 1 = some token)
    (hvalue : m.value token = .ok offset) :
    target = ((address : Int) + offset.toInt).toNat := by
  obtain ⟨given, hgiven, hsum⟩ := statedOffset?_eq_some_iff.1 h
  rw [Instruction.offset?, hparam, Option.bind_some] at hgiven
  rw [Machine.value_of_int32? hgiven, Except.ok.injEq] at hvalue
  rw [← hvalue, ← hsum, Int.toNat_natCast]

/-- **A move of the pointer follows an edge** of the instruction that makes it, unless it returns
from a call. -/
theorem exists_edge_of_transferred {target : Nat}
    (h : Transferred ins m op.controlEffect flow after)
    (hdetermined : isUndetermined m.ip ins op = false) (hback : op.controlEffect ≠ .back)
    (htarget : flow.target? m.ip = some target) :
    ∃ kind, ⟨m.ip, target, kind⟩ ∈ Edge.leaving m.ip ins op := by
  have honward (hfalls : op.controlEffect.fallsThrough = true) (hnext : m.ip + 1 = target) :
      ∃ kind, ⟨m.ip, target, kind⟩ ∈ Edge.leaving m.ip ins op :=
    ⟨_, Edge.mem_leaving_iff.2 ⟨rfl, .inr ⟨hfalls, hnext.symm, rfl⟩⟩⟩
  have hjump {kind : EdgeKind}
      (htransfer : transfer? m.ip ins op.controlEffect = some (some target, kind)) :
      ∃ kind, ⟨m.ip, target, kind⟩ ∈ Edge.leaving m.ip ins op :=
    ⟨kind, Edge.mem_leaving_iff.2 ⟨rfl, .inl htransfer⟩⟩
  rw [isUndetermined] at hdetermined
  generalize op.controlEffect = control at *
  cases h with
  | advance | passed | stayed => exact honward rfl (Option.some.inj htarget)
  | branch hstated | taken hstated | call hstated =>
    rw [Option.some.inj htarget] at hstated
    exact hjump (by rw [transfer?, hstated])
  | moved hparam hvalue hrange =>
    cases hstated : statedOffset? m.ip ins with
    | none =>
      rw [transfer?, hstated] at hdetermined
      exact Bool.noConfusion hdetermined
    | some found =>
      have hfound := statedOffset?_eq_some hstated hparam hvalue
      rw [hfound.trans (Option.some.inj htarget)] at hstated
      exact hjump (by rw [transfer?, hstated])
  | back => exact absurd rfl hback
  | stop => cases htarget

/-! ### Where the report says control goes -/

/-- An address follows a reachable call that may fall through to it. -/
def FollowsCall (program : Program) (address : Nat) : Prop :=
  ∃ source ∈ (analyze program).reachable,
    (∃ ins, program[source]? = some ins ∧ ins.operation? = some .call)
      ∧ address = source + 1 ∧ ⟨source, address, .fallthrough⟩ ∈ (analyze program).edges

theorem FollowsCall.mem_reachable {address : Nat} (h : FollowsCall program address)
    (hlt : address < program.length) : address ∈ (analyze program).reachable := by
  obtain ⟨source, -, -, -, hedge⟩ := h
  exact target_mem_reachable hedge hlt

/-- Where the report says that the pointer may go from an address. -/
def Leads (program : Program) (source target : Nat) : Prop :=
  if source ∈ (analyze program).returns then FollowsCall program target
  else ∃ kind, ⟨source, target, kind⟩ ∈ (analyze program).edges

theorem Leads.mem_reachable {source target : Nat} (h : Leads program source target)
    (hlt : target < program.length) : target ∈ (analyze program).reachable := by
  unfold Leads at h
  split at h
  · exact h.mem_reachable hlt
  · obtain ⟨kind, hedge⟩ := h
    exact target_mem_reachable hedge hlt

/-- The invariant of a run: the pointer is at a reachable address or outside the program, and every
return address follows a reachable call. -/
structure Tracked (program : Program) (m : Machine) : Prop where
  pointer : m.ip < program.length → m.ip ∈ (analyze program).reachable
  stack : ∀ address ∈ m.callStack, FollowsCall program address

theorem tracked_fresh (program : Program) (settings : Settings) :
    Tracked program (.fresh settings) where
  pointer := zero_mem_reachable
  stack := by
    intro address haddress
    exact absurd haddress List.not_mem_nil

/-! ### Reachable instructions -/

/-- A reachable instruction with a known operation. -/
structure Reached (program : Program) (a : Nat) (ins : Instruction) (op : Operation) : Prop where
  reachable : a ∈ (analyze program).reachable
  instruction : program[a]? = some ins
  operation : ins.operation? = some op

namespace Reached

variable {a target : Nat} (h : Reached program a ins op)

include h

theorem edge_mem {kind : EdgeKind} (hedge : ⟨a, target, kind⟩ ∈ Edge.leaving a ins op) :
    ⟨a, target, kind⟩ ∈ (analyze program).edges := by
  have hleaving := Instruction.edges_of_operation h.operation a
  exact mem_edges_analyze_iff.2 ⟨h.reachable, ins, h.instruction, hleaving ▸ hedge⟩

theorem mem_returns_iff : a ∈ (analyze program).returns ↔ op.controlEffect = .back := by
  have hreturn : ins.isReturn = true ↔ op.controlEffect = .back := by
    rw [Instruction.isReturn, h.operation, Option.any_some, beq_iff_eq]
  rw [mem_returns_analyze_iff, ← hreturn]
  constructor
  · rintro ⟨-, other, hother, htest⟩
    rw [h.instruction, Option.some.injEq] at hother
    rwa [hother]
  · intro htest
    exact ⟨h.reachable, ins, h.instruction, htest⟩

theorem mem_ends (hstop : op.controlEffect = .stop) : a ∈ (analyze program).ends := by
  have hend : ins.isEnd = true := by
    rw [Instruction.isEnd, h.operation, Option.any_some, hstop]
    rfl
  exact mem_ends_analyze_iff.2 ⟨h.reachable, ins, h.instruction, hend⟩

theorem isUndetermined_eq_false (hknown : a ∉ (analyze program).undetermined) :
    isUndetermined a ins op = false := by
  rw [Bool.eq_false_iff]
  intro htest
  have hundetermined : ins.isUndetermined a = true := by
    rw [Instruction.isUndetermined, h.operation, Option.all_some, htest]
  exact hknown
    (mem_undetermined_analyze_iff.2 ⟨h.reachable, ins, h.instruction, hundetermined⟩)

end Reached

/-! ### One step -/

theorem Tracked.reached (h : Tracked program m)
    (hfetch : Processor.standard.fetch program m.ip = .ready ins op) :
    Reached program m.ip ins op := by
  obtain ⟨hins, row, hrow, hop⟩ := Processor.fetch_eq_ready_iff.1 hfetch
  have hlt : m.ip < program.length := (List.getElem?_eq_some_iff.1 hins).1
  have hoperation : ins.operation? = some op := Option.map_eq_some_iff.2 ⟨row, hrow, hop⟩
  exact ⟨h.pointer hlt, hins, hoperation⟩

/-- **What a call pushes follows it.**  Nothing else puts a return address on the stack. -/
theorem Tracked.stack_of_transferred (h : Tracked program m)
    (hreached : Reached program m.ip ins op)
    (htransferred : Transferred ins m op.controlEffect flow after) :
    ∀ address ∈ after.callStack, FollowsCall program address := by
  have hcall (heffect : op.controlEffect = .call) : FollowsCall program (m.ip + 1) := by
    have hop : op = .call := by cases op <;> first | rfl | cases heffect
    have hfalls : op.controlEffect.fallsThrough = true := by rw [heffect]; rfl
    exact ⟨m.ip, hreached.reachable, ⟨ins, hreached.instruction, hop ▸ hreached.operation⟩, rfl,
      hreached.edge_mem (Edge.mem_leaving_iff.2 ⟨rfl, .inr ⟨hfalls, rfl, rfl⟩⟩)⟩
  intro address haddress
  generalize op.controlEffect = control at htransferred hcall
  cases htransferred with
  | advance hip hstack => exact h.stack address (hstack ▸ haddress)
  | branch | taken | passed | moved | stayed | stop => exact h.stack address haddress
  | call =>
    rcases List.mem_cons.1 haddress with rfl | hbelow
    · exact hcall rfl
    · exact h.stack address hbelow
  | back hstack => exact h.stack address (hstack ▸ List.mem_cons_of_mem _ haddress)

/-- An executed instruction sends the pointer where the report says. -/
theorem Tracked.leads {target : Nat} (h : Tracked program m)
    (hreached : Reached program m.ip ins op)
    (hknown : m.ip ∉ (analyze program).undetermined)
    (htransferred : Transferred ins m op.controlEffect flow after)
    (htarget : flow.target? m.ip = some target) : Leads program m.ip target := by
  unfold Leads
  by_cases hback : op.controlEffect = .back
  · rw [if_pos (hreached.mem_returns_iff.2 hback)]
    rw [hback] at htransferred
    cases htransferred with
    | back hstack =>
      rw [← Option.some.inj htarget]
      exact h.stack _ (hstack ▸ List.mem_cons_self)
  · rw [if_neg (mt hreached.mem_returns_iff.1 hback)]
    obtain ⟨kind, hedge⟩ := exists_edge_of_transferred htransferred
      (hreached.isUndetermined_eq_false hknown) hback htarget
    exact ⟨kind, hreached.edge_mem hedge⟩

/-- The report knows where the instruction under the pointer leads, if one is executed there. -/
def Determined (program : Program) (m : Machine) : Prop :=
  ∀ ins op, Processor.standard.fetch program m.ip = .ready ins op →
    m.ip ∉ (analyze program).undetermined

theorem determined_of_eq_nil (h : (analyze program).undetermined = []) (m : Machine) :
    Determined program m := by
  intro ins op _
  rw [h]
  exact List.not_mem_nil

/-- What the report tells about a step from one machine to another and its result. -/
structure Predicted (program : Program) (m : Machine) (result : Except Trap Status)
    (after : Machine) : Prop where
  executed : m.ip < program.length → m.ip ∈ (analyze program).reachable
  /-- An executed instruction that neither traps nor ends the program moves the pointer along an
  edge, or returns to where a reachable call falls through to. -/
  moved : m.ip < program.length → ∀ status, result = .ok status → status ≠ .ended →
    Leads program m.ip after.ip
  ended : result = .ok .ended → m.ip ∈ (analyze program).ends

variable {result : Except Trap Status}

/-- **A step keeps the invariant.** -/
theorem Tracked.step (h : Tracked program m) (hdetermined : Determined program m)
    (hstep : Stepped program m result after) : Tracked program after := by
  cases hstep with
  | outside | unknown | trapped => exact h
  | ended hfetch heffect htarget =>
    obtain ⟨-, rfl⟩ := stop_of_transferred (transferred_of_effect heffect) htarget
    exact h
  | moved hfetch heffect htarget =>
    have hreached := h.reached hfetch
    have htransferred := transferred_of_effect heffect
    have hleads := h.leads hreached (hdetermined _ _ hfetch) htransferred htarget
    have hstack := h.stack_of_transferred hreached htransferred
    exact ⟨hleads.mem_reachable, hstack⟩

/-- **The report predicts a step of a tracked machine.** -/
theorem Tracked.predicted (h : Tracked program m) (hdetermined : Determined program m)
    (hstep : Stepped program m result after) : Predicted program m result after where
  executed := h.pointer
  moved := by
    intro hlt status hok hstatus
    cases hstep with
    | outside hfetch => exact absurd (Processor.fetch_eq_outside_iff.1 hfetch) (Nat.not_le.2 hlt)
    | unknown hfetch => cases hok
    | trapped hfetch heffect => cases hok
    | ended hfetch heffect htarget =>
      cases hok
      exact absurd rfl hstatus
    | moved hfetch heffect htarget =>
      exact h.leads (h.reached hfetch) (hdetermined _ _ hfetch) (transferred_of_effect heffect)
        htarget
  ended := by
    intro hok
    cases hstep with
    | outside hfetch => cases hok
    | unknown hfetch => cases hok
    | trapped hfetch heffect => cases hok
    | ended hfetch heffect htarget =>
      have hstop := (stop_of_transferred (transferred_of_effect heffect) htarget).1
      exact (h.reached hfetch).mem_ends hstop
    | moved hfetch heffect htarget => exact absurd (Except.ok.inj hok) (statusAt_ne_ended _ _)

/-! ### Every run -/

/-- The invariant holds before every step of a run that executes no undetermined address. -/
theorem tracked_machineAt (program : Program) (settings : Settings) {n : Nat}
    (hdetermined : ∀ i < n,
      Determined program (Processor.standard.machineAt program (.fresh settings) i)) :
    Tracked program (Processor.standard.machineAt program (.fresh settings) n) := by
  induction n with
  | zero => exact tracked_fresh program settings
  | succ n ih =>
    have hbefore : Tracked program
        (Processor.standard.machineAt program (.fresh settings) n) := by
      apply ih
      intro i hi
      exact hdetermined i (Nat.lt_succ_of_lt hi)
    exact hbefore.step (hdetermined n n.lt_succ_self) (stepped_at program _ n)

/-- **Soundness of control-flow reports.**  If the first `n` steps of a run execute no undetermined
address, the report predicts each of them.  If the report has no undetermined address at all, no
run ever gets to an address that it calls unreachable. -/
theorem analysis_sound (program : Program) (settings : Settings) :
    (∀ n, (∀ i < n, Determined program
        (Processor.standard.machineAt program (.fresh settings) i)) →
      ∀ i < n, Predicted program
        (Processor.standard.machineAt program (.fresh settings) i)
        (Processor.standard.resultAt program (.fresh settings) i)
        (Processor.standard.machineAt program (.fresh settings) (i + 1)))
      ∧ ((analyze program).undetermined = [] → ∀ name n,
        (Processor.standard.machineAt program (.fresh settings) n).ip
          ∉ (Report.ofProgram name program).unreachable) := by
  constructor
  · intro n hdetermined i hi
    have htracked : Tracked program
        (Processor.standard.machineAt program (.fresh settings) i) := by
      apply tracked_machineAt
      intro j hj
      exact hdetermined j (Nat.lt_trans hj hi)
    exact htracked.predicted (hdetermined i hi) (stepped_at program _ i)
  · intro hnone name n hmem
    have htracked : Tracked program
        (Processor.standard.machineAt program (.fresh settings) n) := by
      apply tracked_machineAt
      intro i _ ins op _
      rw [hnone]
      exact List.not_mem_nil
    obtain ⟨hlt, hunreached⟩ := Report.mem_unreachable_iff.1 hmem
    exact hunreached (htracked.pointer hlt)

/-- A loop that calls a subroutine, and an instruction that nothing leads to. -/
def callingProgram : Program :=
  [⟨"mov", ["a", "2"]⟩, ⟨"call", ["4"]⟩, ⟨"jnz", ["a", "-1"]⟩, ⟨"end", []⟩, ⟨"dec", ["a"]⟩,
    ⟨"ret", []⟩, ⟨"msg", ["a"]⟩]

/-- The report on the calling program predicts every step of it, the two returns included. -/
theorem analysis_sound_calling :
    (analyze callingProgram).undetermined = []
      ∧ (Report.ofProgram "calling" callingProgram).unreachable = [6]
      ∧ (∀ n, (Processor.standard.machineAt callingProgram (.fresh {}) n).ip ≠ 6)
      ∧ ∀ n, Predicted callingProgram
        (Processor.standard.machineAt callingProgram (.fresh {}) n)
        (Processor.standard.resultAt callingProgram (.fresh {}) n)
        (Processor.standard.machineAt callingProgram (.fresh {}) (n + 1)) := by
  have hnone : (analyze callingProgram).undetermined = [] := by decide +kernel
  have hunreachable : (Report.ofProgram "calling" callingProgram).unreachable = [6] := by
    decide +kernel
  obtain ⟨hsteps, hreached⟩ := analysis_sound callingProgram {}
  refine ⟨hnone, hunreachable, ?_, ?_⟩
  · intro n hsix
    apply hreached hnone "calling" n
    rw [hunreachable, hsix]
    exact List.mem_singleton_self 6
  · intro n
    apply hsteps (n + 1) _ n n.lt_succ_self
    intro i _ ins op _
    rw [hnone]
    exact List.not_mem_nil

end PseudoAsm

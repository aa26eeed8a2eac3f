import PseudoAsm.Machine.Snapshot
import PseudoAsm.Proofs.Machine.Frame

/-!
# Addresses as machine words

A machine keeps its addresses in unsigned 64-bit words, adds one to them, and moves them by signed
offsets.  Each of these sums could overflow.  None does, because only addresses inside the program
are ever added to: a pointer or a return address may be any word, but nothing is computed from it
before an instruction is found under it.

* `nextWord?`, `movedWord?` — the two sums on words, which give nothing if they overflow;
* `WordMachine` — a machine whose addresses are words, in any state;
* `exists_toMachine_eq` — every machine that is restored from data is such a machine;
* `WordMachine.step?` — a step that computes its addresses on words;
* `map_step?`, `map_machineAt?` — **no step and no sequence of steps overflows**, and they come to
  what the unbounded machine comes to.
-/

namespace PseudoAsm

/-! ### Sums of words -/

/-- The address behind another; none if the sum overflows. -/
def nextWord? (address : UInt64) : Option UInt64 :=
  if BitVec.uaddOverflow address.toBitVec 1 then none else some (address + 1)

/-- An address moved by an offset, both read as signed words; none if the sum overflows. -/
def movedWord? (address : UInt64) (offset : Int32) : Option Int64 :=
  if BitVec.saddOverflow address.toInt64.toBitVec offset.toInt64.toBitVec then none
  else some (address.toInt64 + offset.toInt64)

/-- The addresses that no program reaches: an offset added to one below stays a signed word. -/
def addressLimit : Nat := 0x8000000000000000 - 0x80000000

variable {address : UInt64}

/-- One can be added to an address below the limit. -/
theorem nextWord?_eq_some (h : address.toNat < addressLimit) :
    ∃ next, nextWord? address = some next ∧ next.toNat = address.toNat + 1 := by
  have hlimit : addressLimit < 0xFFFFFFFFFFFFFFFF := by decide
  have hfits : address.toNat + 1 < 0x10000000000000000 := by omega
  have hover : BitVec.uaddOverflow address.toBitVec 1 = false := by
    simp only [BitVec.uaddOverflow, ge_iff_le, decide_eq_false_iff_not, Nat.not_le]
    exact hfits
  refine ⟨address + 1, by rw [nextWord?, hover]; rfl, ?_⟩
  rw [UInt64.toNat_add]
  exact Nat.mod_eq_of_lt hfits

/-- Read as a signed word, an address below the limit is the same number. -/
theorem toInt_toInt64_of_lt (h : address.toNat < addressLimit) :
    address.toInt64.toInt = address.toNat := by
  have hlimit : 2 * addressLimit < 0x10000000000000000 := by decide
  show address.toBitVec.toInt = address.toNat
  rw [BitVec.toInt_eq_toNat_of_lt]
  · rfl
  · show 2 * address.toNat < 0x10000000000000000
    omega

/-- Every offset can be added to an address below the limit. -/
theorem movedWord?_eq_some (h : address.toNat < addressLimit) (offset : Int32) :
    ∃ target, movedWord? address offset = some target
      ∧ target.toInt = address.toNat + offset.toInt := by
  have hlimit : addressLimit = 0x8000000000000000 - 0x80000000 := rfl
  have hlower : -0x80000000 ≤ offset.toInt := offset.le_toInt
  have hupper : offset.toInt < 0x80000000 := offset.toInt_lt
  have haddress := toInt_toInt64_of_lt h
  have hoffset : offset.toInt64.toInt = offset.toInt := Int32.toInt_toInt64 offset
  have hover : BitVec.saddOverflow address.toInt64.toBitVec offset.toInt64.toBitVec = false := by
    simp only [BitVec.saddOverflow, ge_iff_le, Bool.or_eq_false_iff, decide_eq_false_iff_not,
      Int.not_le, Int.not_lt]
    show address.toInt64.toInt + offset.toInt64.toInt < 0x8000000000000000
      ∧ -0x8000000000000000 ≤ address.toInt64.toInt + offset.toInt64.toInt
    omega
  refine ⟨address.toInt64 + offset.toInt64, by rw [movedWord?, hover]; rfl, ?_⟩
  calc (address.toInt64 + offset.toInt64).toInt
      = address.toInt64.toInt + offset.toInt64.toInt :=
        BitVec.toInt_add_of_not_saddOverflow (by rw [hover]; decide)
    _ = address.toNat + offset.toInt := by rw [haddress, hoffset]

/-- A signed word that is not negative is the same number when it is read as an address. -/
theorem toNat_toUInt64_of_nonneg {target : Int64} (h : 0 ≤ target.toInt) :
    target.toUInt64.toNat = target.toInt.toNat :=
  Int64.toNat_toUInt64_of_le (Int64.le_iff_toInt_le.2 h)

/-! ### Machines on words -/

/-- A machine whose addresses are words. -/
structure WordMachine where
  ip : UInt64
  callStack : List UInt64
  status : StatusWord
  registers : RegisterFile
  output : Option String
  settings : Settings

/-- The same machine with addresses of any size. -/
def WordMachine.toMachine (w : WordMachine) : Machine where
  ip := w.ip.toNat
  callStack := w.callStack.map UInt64.toNat
  status := w.status
  registers := w.registers
  output := w.output
  settings := w.settings

/-- A computation that may overflow, and may trap if it does not. -/
abbrev Checked := ExceptT Trap Option

/-- The jump from one address by an offset. -/
def relativeJumpWord (source : UInt64) (offset : Int32) : Checked Flow := do
  let target ← (liftM (movedWord? source offset) : Checked Int64)
  if target < 0 then throw (.addressOutOfRange source.toNat target.toInt)
  return .jump target.toUInt64.toNat

/-- The flow and the machine that an instruction leaves.  Relative jumps and calls compute an
address, returns take one from the call stack, and no other operation has to do with it. -/
def WordMachine.effect (w : WordMachine) (ins : Instruction) (op : Operation) :
    Checked (Flow × WordMachine) :=
  match op with
  | .jnz => do
    let first ← operand ins op 0
    let x ← w.toMachine.value first
    if x = 0 then return (.next, w)
    let second ← operand ins op 1
    let offset ← w.toMachine.value second
    let flow ← relativeJumpWord w.ip offset
    return (flow, w)
  | .call => do
    let flow ← jumpTo ins op
    let back ← (liftM (nextWord? w.ip) : Checked UInt64)
    return (flow, { w with callStack := back :: w.callStack })
  | .ret =>
    match w.callStack with
    | [] => throw (.callStackUnderflow w.ip.toNat)
    | back :: below => return (.jump back.toNat, { w with callStack := below })
  | _ => do
    let (flow, after) ← PseudoAsm.effect ins op w.toMachine
    return (flow, { w with
      status := after.status, registers := after.registers, output := after.output })

/-- Where a flow from the instruction at an address sends the pointer, if anywhere. -/
def Flow.targetWord? (address : UInt64) : Flow → Option (Option UInt64)
  | .next => (nextWord? address).map some
  | .jump target => some (some (UInt64.ofNat target))
  | .stop => some none

/-- The result and the machine of a step whose instruction has an effect, unless the pointer
overflows. -/
def WordMachine.sent? (program : Program) (w : WordMachine) :
    Except Trap (Flow × WordMachine) → Option (Except Trap Status × WordMachine)
  | .error trap => some (.error trap, w)
  | .ok (flow, after) =>
    (flow.targetWord? w.ip).map fun
      | none => (.ok .ended, after)
      | some target => (.ok (statusAt program target.toNat), { after with ip := target })

/-- One step, unless an address overflows in it. -/
def WordMachine.step? (program : Program) (w : WordMachine) :
    Option (Except Trap Status × WordMachine) :=
  match Processor.standard.fetch program w.ip.toNat with
  | .outside => some (.ok .fellThrough, w)
  | .unknown name => some (.error (.unknownInstruction name w.ip.toNat), w)
  | .ready ins op => (w.effect ins op).run.bind (w.sent? program)

/-- The machine after `n` steps, unless an address overflows in one of them. -/
def WordMachine.machineAt? (program : Program) (w : WordMachine) : Nat → Option WordMachine
  | 0 => some w
  | n + 1 => do
    let before ← machineAt? program w n
    let (_, after) ← before.step? program
    return after

/-! ### What words come to -/

namespace Checked

variable {α β γ δ : Type}

/-- A checked computation does not overflow, and comes to what an unchecked one does. -/
def Yields (c : Checked α) (view : α → β) (e : Except Trap β) : Prop :=
  c.run.map (Except.map view) = some e

theorem yields_pure (x : α) (view : α → β) : Yields (pure x) view (.ok (view x)) := rfl

theorem yields_liftM (e : Except Trap α) : Yields (liftM e) id e := by
  cases e <;> rfl

/-- Computations in sequence come to what their parts come to. -/
theorem Yields.bind {c : Checked α} {e : Except Trap γ} {read : α → γ} (hc : c.Yields read e)
    {f : α → Checked β} {k : γ → Except Trap δ} {view : β → δ}
    (hf : ∀ x, (f x).Yields view (k (read x))) : (c >>= f).Yields view (e >>= k) := by
  obtain ⟨found, hfound, rfl⟩ := Option.map_eq_some_iff.1 hc
  show Option.map (Except.map view) (Option.bind c.run _) = _
  rw [hfound]
  cases found with
  | error trap => rfl
  | ok x => exact hf x

end Checked

open Checked

/-- A flow sends the pointer to a word, if to any address of its own. -/
def Flow.FitsWord : Flow → Prop
  | .jump target => target < Numeral.nat64Bound
  | .next | .stop => True

theorem statedTarget?_lt {ins : Instruction} {target : Nat}
    (h : statedTarget? ins = some target) : target < Numeral.nat64Bound := by
  obtain ⟨token, -, hnumeral⟩ := Option.bind_eq_some_iff.1 h
  obtain ⟨-, hlt⟩ := Option.filter_eq_some_iff.1 hnumeral
  exact of_decide_eq_true hlt

section Stepping

variable {w : WordMachine} {ins : Instruction} {op : Operation} {flow : Flow} {after : Machine}

/-- A relative jump from an address below the limit is the exact one. -/
theorem relativeJumpWord_yields {source : UInt64} (h : source.toNat < addressLimit)
    (offset : Int32) :
    (relativeJumpWord source offset).Yields id (relativeJump source.toNat offset) := by
  obtain ⟨target, htarget, hexact⟩ := movedWord?_eq_some h offset
  unfold relativeJumpWord relativeJump
  rw [htarget, ← hexact]
  by_cases hnegative : target < 0
  · have hint : target.toInt < 0 := Int64.lt_iff_toInt_lt.1 hnegative
    simp only [if_pos hint]
    show Option.map _ (ExceptT.run (if target < 0 then _ else _)) = _
    rw [if_pos hnegative]
    rfl
  · have hint : ¬target.toInt < 0 := fun hlt => hnegative (Int64.lt_iff_toInt_lt.2 hlt)
    simp only [if_neg hint]
    rw [← toNat_toUInt64_of_nonneg (by omega)]
    show Option.map _ (ExceptT.run (if target < 0 then _ else _)) = _
    rw [if_neg hnegative]
    rfl

/-- What an operation without an address of its own leaves, on words. -/
theorem toMachine_of_effect (h : PseudoAsm.effect ins op w.toMachine = .ok (flow, after))
    (hop : op.writes? ≠ some .callStack) :
    ({ w with status := after.status, registers := after.registers, output := after.output } :
      WordMachine).toMachine = after := by
  have hframe := effect_frame h
  cases hwrites : op.writes? with
  | none =>
    rw [hwrites] at hframe
    rw [hframe]
    rfl
  | some part =>
    rw [hwrites] at hframe
    cases part with
    | registers | status | output =>
      rw [hframe]
      rfl
    | callStack => exact absurd hwrites hop

/-- An operation that neither calls nor returns nor jumps by an offset computes no address. -/
theorem delegated_yields (hop : op.writes? ≠ some .callStack) :
    (do
      let (flow, after) ← (liftM (PseudoAsm.effect ins op w.toMachine) : Checked (Flow × Machine))
      return (flow, { w with
        status := after.status, registers := after.registers, output := after.output }) :
      Checked (Flow × WordMachine)).Yields (fun executed => (executed.1, executed.2.toMachine))
        (PseudoAsm.effect ins op w.toMachine) := by
  cases heffect : PseudoAsm.effect ins op w.toMachine with
  | error trap => rfl
  | ok executed =>
    obtain ⟨flow, after⟩ := executed
    have hafter := toMachine_of_effect heffect hop
    show some (Except.ok (flow, _)) = some (Except.ok (flow, after))
    rw [hafter]

/-- **Below the limit an instruction has its exact effect on words**, and no sum in it overflows. -/
theorem effect_yields (h : w.ip.toNat < addressLimit) :
    (w.effect ins op).Yields (fun executed => (executed.1, executed.2.toMachine))
      (PseudoAsm.effect ins op w.toMachine) := by
  cases op with
  | mov | inc | dec | add | sub | mul | div | cmp | jmp | je | jne | jg | jge | jl | jle | msg
    | stop => exact delegated_yields nofun
  | jnz =>
    refine (yields_liftM _).bind fun first => (yields_liftM _).bind fun x => ?_
    simp only [id_eq]
    split
    · exact yields_pure _ _
    · refine (yields_liftM _).bind fun second => (yields_liftM _).bind fun offset => ?_
      exact (relativeJumpWord_yields h offset).bind fun flow => yields_pure _ _
  | call =>
    obtain ⟨back, hback, hnext⟩ := nextWord?_eq_some h
    refine (yields_liftM _).bind fun flow => ?_
    have hpushed : w.toMachine.ip + 1 = back.toNat := hnext.symm
    rw [hpushed, hback]
    rfl
  | ret =>
    cases hstack : w.callStack with
    | nil => simp only [WordMachine.effect, PseudoAsm.effect, WordMachine.toMachine, hstack]; rfl
    | cons back below =>
      simp only [WordMachine.effect, PseudoAsm.effect, WordMachine.toMachine, hstack]; rfl

/-- Below the limit an instruction sends the pointer to a word. -/
theorem fitsWord_of_effect (h : w.ip.toNat < addressLimit)
    (heffect : PseudoAsm.effect ins op w.toMachine = .ok (flow, after)) : flow.FitsWord := by
  have hlimit : addressLimit + 0x80000000 < Numeral.nat64Bound := by decide
  have htransferred := transferred_of_effect heffect
  generalize op.controlEffect = control at htransferred
  cases htransferred with
  | advance | passed | stayed | stop => trivial
  | branch hstated | taken hstated | call hstated => exact statedTarget?_lt hstated
  | @moved token offset hparam hvalue hrange =>
    have hupper : offset.toInt < 0x80000000 := offset.toInt_lt
    have hip : w.toMachine.ip = w.ip.toNat := rfl
    show ((w.toMachine.ip : Int) + offset.toInt).toNat < Numeral.nat64Bound
    omega
  | @back address below hstack =>
    have hmem : address ∈ w.callStack.map UInt64.toNat := by
      rw [show w.callStack.map UInt64.toNat = address :: below from hstack]
      exact List.mem_cons_self
    obtain ⟨word, -, rfl⟩ := List.mem_map.1 hmem
    exact word.toNat_lt

/-- Below the limit a flow sends the pointer to the same address on words. -/
theorem map_targetWord? (h : address.toNat < addressLimit) (hflow : flow.FitsWord) :
    (flow.targetWord? address).map (Option.map UInt64.toNat)
      = some (flow.target? address.toNat) := by
  cases flow with
  | next =>
    obtain ⟨next, hnext, hexact⟩ := nextWord?_eq_some h
    simp [Flow.targetWord?, Flow.target?, hnext, hexact]
  | jump target =>
    have hexact : (UInt64.ofNat target).toNat = target := UInt64.toNat_ofNat_of_lt' hflow
    simp [Flow.targetWord?, Flow.target?, hexact]
  | stop => rfl

/-! ### Steps on words -/

/-- Below the limit the pointer is sent on without an overflow. -/
theorem map_sent? {program : Program} (h : w.ip.toNat < addressLimit)
    {result : Except Trap (Flow × WordMachine)}
    (heffect : result.map (fun executed => (executed.1, executed.2.toMachine))
      = PseudoAsm.effect ins op w.toMachine) :
    (w.sent? program result).map (fun stepped => (stepped.1, stepped.2.toMachine))
      = some (sent program w.toMachine (PseudoAsm.effect ins op w.toMachine)) := by
  cases result with
  | error trap =>
    rw [← heffect]
    rfl
  | ok executed =>
    obtain ⟨flow, after⟩ := executed
    have htarget := map_targetWord? h (fitsWord_of_effect h heffect.symm)
    obtain ⟨target, hword, htarget⟩ := Option.map_eq_some_iff.1 htarget
    rw [← heffect]
    simp only [WordMachine.sent?, hword, Except.map, sent]
    rw [show w.toMachine.ip = w.ip.toNat from rfl, ← htarget]
    cases target <;> rfl

/-- **No step overflows**, and on words it comes to what it comes to on addresses of any size. -/
theorem map_step? {program : Program} (hlength : program.length ≤ addressLimit)
    (w : WordMachine) :
    (w.step? program).map (fun stepped => (stepped.1, stepped.2.toMachine))
      = some ((Processor.standard.step program).on w.toMachine) := by
  unfold WordMachine.step?
  cases hfetch : Processor.standard.fetch program w.ip.toNat with
  | outside =>
    rw [Processor.step_outside (show _ = Fetched.outside from hfetch)]
    rfl
  | unknown name =>
    rw [Processor.step_unknown (show _ = Fetched.unknown name from hfetch)]
    rfl
  | ready ins op =>
    have hlt : w.ip.toNat < addressLimit := by
      have hinside := (Processor.fetch_eq_ready_iff.1 hfetch).1
      have hlt := (List.getElem?_eq_some_iff.1 hinside).1
      omega
    have hyields : (w.effect ins op).Yields _ _ := effect_yields hlt
    obtain ⟨result, hresult, heffect⟩ := Option.map_eq_some_iff.1 hyields
    rw [step_standard (show _ = Fetched.ready ins op from hfetch), ← map_sent? hlt heffect]
    show Option.map _ (Option.bind (w.effect ins op).run _) = _
    rw [hresult]
    rfl

/-- **No sequence of steps overflows.** -/
theorem map_machineAt? {program : Program} (hlength : program.length ≤ addressLimit)
    (w : WordMachine) (n : Nat) :
    (w.machineAt? program n).map WordMachine.toMachine
      = some (Processor.standard.machineAt program w.toMachine n) := by
  induction n with
  | zero => rfl
  | succ n ih =>
    obtain ⟨before, hbefore, hmachine⟩ := Option.map_eq_some_iff.1 ih
    obtain ⟨⟨result, after⟩, hstep, hstepped⟩ := Option.map_eq_some_iff.1 (map_step? hlength before)
    rw [Processor.machineAt_succ, ← hmachine, ← hstepped]
    simp [WordMachine.machineAt?, hbefore, hstep]

end Stepping

/-- A checked word is the number it was read from. -/
theorem toNat_ofNat_of_toNat64? {n : Int} {address : Nat} (h : toNat64? n = some address) :
    (UInt64.ofNat address).toNat = address := by
  unfold toNat64? at h
  split at h
  · next hrange =>
    obtain rfl := Option.some.inj h
    have hbound : (Numeral.nat64Bound : Int) = 0x10000000000000000 := rfl
    have hlt : n.toNat < 0x10000000000000000 := by omega
    exact UInt64.toNat_ofNat_of_lt' hlt
  · cases h

theorem map_toNat_ofNat_of_mapM {data : List Int} {addresses : List Nat}
    (h : data.mapM toNat64? = some addresses) :
    (addresses.map UInt64.ofNat).map UInt64.toNat = addresses := by
  induction data generalizing addresses with
  | nil =>
    cases h
    rfl
  | cons n rest ih =>
    simp only [List.mapM_cons, Option.bind_eq_bind, Option.bind_eq_some_iff] at h
    obtain ⟨address, haddress, others, hothers, h⟩ := h
    cases h
    rw [List.map_cons, List.map_cons, toNat_ofNat_of_toNat64? haddress, ih hothers]

/-- Every machine that is restored from data keeps its addresses in words. -/
theorem exists_toMachine_eq {data : Snapshot} {m : Machine} (h : data.toMachine? = some m) :
    ∃ w : WordMachine, w.toMachine = m := by
  simp only [Snapshot.toMachine?, Option.bind_eq_bind, Option.bind_eq_some_iff] at h
  obtain ⟨ip, hip, status, -, registers, -, callStack, hstack, maxSteps, -, h⟩ := h
  have hm := Option.some.inj h
  refine ⟨⟨.ofNat ip, callStack.reverse.map .ofNat, m.status, m.registers, m.output, m.settings⟩,
    ?_⟩
  subst hm
  simp only [WordMachine.toMachine, toNat_ofNat_of_toNat64? hip, List.map_reverse,
    map_toNat_ofNat_of_mapM hstack]

end PseudoAsm

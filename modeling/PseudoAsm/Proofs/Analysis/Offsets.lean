import PseudoAsm.Proofs.Analysis.Reachability
import PseudoAsm.Proofs.Machine.Words

/-!
# Relative jumps, taken and foretold

A relative jump is computed twice: by the machine that takes it, from the value of its second
operand, and by the analysis, from the numeral that stands there.  Both add an offset to an address
on words of the same width, and both come to the exact sum.

* `JumpsBy` — a machine about to take a relative jump, with the offset;
* `step_of_jumpsBy_of_eq`, `step_of_jumpsBy_eq_error_iff` — **a relative jump that is taken goes to
  the exact sum**, and is refused exactly if this is negative;
* `statedOffsetWord?` — the target that the analysis reads out of an offset, on words;
* `map_statedOffsetWord?` — **it is the exact one**;
* `addresses_exact` — **addresses are exact in the machine and in the analysis**, whatever the
  pointer and the return addresses are, in every program that fits into memory.
-/

namespace PseudoAsm

variable {program : Program} {m : Machine} {ins : Instruction} {offset : Int32} {a t : Nat}

/-! ### Jumps taken -/

/-- The machine is about to jump by an offset: its first operand is not zero. -/
def JumpsBy (program : Program) (m : Machine) (offset : Int32) : Prop :=
  ∃ ins first x second, Processor.standard.fetch program m.ip = .ready ins .jnz
    ∧ operand ins .jnz 0 = .ok first ∧ m.value first = .ok x ∧ x ≠ 0
    ∧ operand ins .jnz 1 = .ok second ∧ m.value second = .ok offset

/-- A relative jump that is taken is computed from the pointer and the offset alone. -/
theorem step_of_jumpsBy (h : JumpsBy program m offset) :
    (Processor.standard.step program).on m
      = sent program m ((relativeJump m.ip offset).map (·, m)) := by
  obtain ⟨ins, first, x, second, hfetch, hfirst, hx, hne, hsecond, hoffset⟩ := h
  have heffect : effect ins .jnz m = (relativeJump m.ip offset).map (·, m) := by
    simp only [effect, bind, Except.bind, hfirst, hx, if_neg hne, hsecond, hoffset]
    cases relativeJump m.ip offset <;> rfl
  rw [step_standard hfetch, heffect]

/-- It goes to the exact sum if this is an address. -/
theorem step_of_jumpsBy_of_eq (h : JumpsBy program m offset)
    (ht : (t : Int) = m.ip + offset.toInt) :
    (Processor.standard.step program).on m = (.ok (statusAt program t), { m with ip := t }) := by
  have hjump : relativeJump m.ip offset = .ok (.jump t) := by
    have hinside : ¬(m.ip : Int) + offset.toInt < 0 := by omega
    rw [relativeJump, if_neg hinside, ← ht, Int.toNat_natCast]
  rw [step_of_jumpsBy h, hjump]
  rfl

/-- It is refused exactly if the sum is negative. -/
theorem step_of_jumpsBy_eq_error_iff (h : JumpsBy program m offset) :
    ((Processor.standard.step program).on m).1
        = .error (.addressOutOfRange m.ip (m.ip + offset.toInt))
      ↔ (m.ip : Int) + offset.toInt < 0 := by
  constructor
  · intro hrefused
    by_contra hinside
    obtain ⟨t, ht⟩ := Int.eq_ofNat_of_zero_le (Int.not_lt.1 hinside)
    rw [step_of_jumpsBy_of_eq h ht.symm] at hrefused
    cases hrefused
  · intro hnegative
    rw [step_of_jumpsBy h, relativeJump, if_pos hnegative]
    rfl

/-- A numeral that is given as an offset is the offset. -/
theorem eq_of_jumpsBy {found : Int32} (h : JumpsBy program m found)
    (hins : program[m.ip]? = some ins) (hoffset : ins.offset? = some offset) : found = offset := by
  obtain ⟨other, first, x, second, hfetch, -, -, -, hsecond, hfound⟩ := h
  obtain rfl : other = ins :=
    Option.some.inj ((Processor.fetch_eq_ready_iff.1 hfetch).1.symm.trans hins)
  obtain ⟨token, htoken, hnumeral⟩ := Option.bind_eq_some_iff.1 hoffset
  obtain rfl : token = second :=
    Option.some.inj (htoken.symm.trans (operand_eq_ok_iff.1 hsecond).1)
  rw [Machine.value_of_int32? hnumeral] at hfound
  exact (Except.ok.inj hfound).symm

/-! ### Jumps foretold -/

/-- What the numeral in the second parameter leads to from an address, on words: none if the sum
overflows or is negative. -/
def statedOffsetWord? (address : UInt64) (ins : Instruction) : Option UInt64 := do
  let offset ← ins.offset?
  let target ← movedWord? address offset
  if target < 0 then none else some target.toUInt64

/-- **Below the limit the analysis reads the exact target out of an offset on words.** -/
theorem map_statedOffsetWord? {address : UInt64} (h : address.toNat < addressLimit)
    (ins : Instruction) :
    (statedOffsetWord? address ins).map UInt64.toNat = statedOffset? address.toNat ins := by
  rw [statedOffset?_eq]
  unfold statedOffsetWord?
  cases ins.offset? with
  | none => rfl
  | some offset =>
    obtain ⟨target, htarget, hexact⟩ := movedWord?_eq_some h offset
    simp only [Option.bind_eq_bind, Option.bind_some, htarget, ← hexact]
    by_cases hnegative : target.toInt < 0
    · rw [if_pos (Int64.lt_iff_toInt_lt.2 hnegative), if_pos hnegative]
      rfl
    · rw [if_neg fun hlt => hnegative (Int64.lt_iff_toInt_lt.1 hlt), if_neg hnegative,
        Option.map_some, toNat_toUInt64_of_nonneg (Int.not_lt.1 hnegative)]

section Foretold

variable (hreached : a ∈ (analyze program).reachable) (hins : program[a]? = some ins)
  (hop : ins.operation? = some .jnz) (hoffset : ins.offset? = some offset)

include hreached hins hop hoffset

/-- A reachable relative jump has the exact sum for its one target. -/
theorem mem_edges_of_offset :
    ⟨a, t, .conditional⟩ ∈ (analyze program).edges ↔ (t : Int) = a + offset.toInt := by
  constructor
  · intro hedge
    obtain ⟨-, other, hother, hedge⟩ := mem_edges_analyze_iff.1 hedge
    have hsuccessor : Successor program a t .conditional :=
      (mem_edges_iff_successor hother).1 hedge
    cases hsuccessor with
    | conditional hfound hop' hjump =>
      cases hins.symm.trans hfound
      cases hop.symm.trans hop'
      exact absurd hjump (by decide)
    | relative hfound _ hoffset' htarget =>
      cases hins.symm.trans hfound
      cases hoffset.symm.trans hoffset'
      exact htarget
  · intro htarget
    have hsuccessor : Successor program a t .conditional := .relative hins hop hoffset htarget
    exact mem_edges_analyze_iff.2
      ⟨hreached, ins, hins, (mem_edges_iff_successor hins).2 hsuccessor⟩

/-- A reachable relative jump is undetermined exactly if the sum is negative. -/
theorem mem_undetermined_of_offset :
    a ∈ (analyze program).undetermined ↔ (a : Int) + offset.toInt < 0 := by
  constructor
  · intro hmem
    obtain ⟨-, other, hother, hundetermined⟩ := mem_undetermined_analyze_iff.1 hmem
    cases hins.symm.trans hother
    cases (isUndetermined_iff_undetermined hins).1 hundetermined with
    | unknown hfound hop' =>
      cases hins.symm.trans hfound
      cases hop.symm.trans hop'
    | target hfound hop' hjump =>
      cases hins.symm.trans hfound
      cases hop.symm.trans hop'
      exact absurd hjump (by decide)
    | offset hfound _ hnegative =>
      cases hins.symm.trans hfound
      exact hnegative offset hoffset
  · intro hnegative
    have hundetermined : Undetermined program a := by
      refine .offset hins hop ?_
      intro other hother
      cases hoffset.symm.trans hother
      exact hnegative
    exact mem_undetermined_analyze_iff.2
      ⟨hreached, ins, hins, (isUndetermined_iff_undetermined hins).2 hundetermined⟩

end Foretold

/-! ### Both together -/

/-- The addresses of a program are exact: what is computed on words is what is meant. -/
structure AddressesExact (program : Program) : Prop where
  /-- A machine restored from data keeps its addresses in words, whatever they are. -/
  restored {data : Snapshot} {m : Machine} (h : data.toMachine? = some m) :
    ∃ w : WordMachine, w.toMachine = m
  /-- No step of a machine with its addresses in words overflows. -/
  step (w : WordMachine) :
    (w.step? program).map (fun stepped => (stepped.1, stepped.2.toMachine))
      = some ((Processor.standard.step program).on w.toMachine)
  /-- No sequence of steps does. -/
  steps (w : WordMachine) (n : Nat) :
    (w.machineAt? program n).map WordMachine.toMachine
      = some (Processor.standard.machineAt program w.toMachine n)
  /-- The address behind an instruction, which a call pushes, does not overflow. -/
  onward {address : UInt64} (h : address.toNat < program.length) :
    (nextWord? address).map UInt64.toNat = some (address.toNat + 1)
  /-- A relative jump goes to the exact sum. -/
  taken {m : Machine} {offset : Int32} {t : Nat} (h : JumpsBy program m offset)
    (ht : (t : Int) = m.ip + offset.toInt) :
    (Processor.standard.step program).on m = (.ok (statusAt program t), { m with ip := t })
  /-- A relative jump is refused exactly if the sum is negative. -/
  refused {m : Machine} {offset : Int32} (h : JumpsBy program m offset) :
    ((Processor.standard.step program).on m).1
        = .error (.addressOutOfRange m.ip (m.ip + offset.toInt))
      ↔ (m.ip : Int) + offset.toInt < 0
  /-- The machine reads the same offset out of a numeral as the analysis. -/
  agreed {m : Machine} {ins : Instruction} {found offset : Int32} (h : JumpsBy program m found)
    (hins : program[m.ip]? = some ins) (hoffset : ins.offset? = some offset) : found = offset
  /-- The checked sum of the analysis does not overflow, and one that is not negative is the same
  number as an address. -/
  sum {address : UInt64} (h : address.toNat < program.length) (offset : Int32) :
    ∃ target, movedWord? address offset = some target
      ∧ target.toInt = address.toNat + offset.toInt
      ∧ (0 ≤ target.toInt → (target.toUInt64.toNat : Int) = target.toInt)
  /-- The analysis on words reads the target out of an instruction that it is said to read. -/
  foretold {address : UInt64} (h : address.toNat < program.length) (ins : Instruction) :
    (statedOffsetWord? address ins).map UInt64.toNat = statedOffset? address.toNat ins
  /-- The analysis draws the edge to the exact sum. -/
  edge {a t : Nat} {ins : Instruction} {offset : Int32}
    (hreached : a ∈ (analyze program).reachable) (hins : program[a]? = some ins)
    (hop : ins.operation? = some .jnz) (hoffset : ins.offset? = some offset) :
    ⟨a, t, .conditional⟩ ∈ (analyze program).edges ↔ (t : Int) = a + offset.toInt
  /-- The analysis has no target exactly if the sum is negative. -/
  undetermined {a : Nat} {ins : Instruction} {offset : Int32}
    (hreached : a ∈ (analyze program).reachable) (hins : program[a]? = some ins)
    (hop : ins.operation? = some .jnz) (hoffset : ins.offset? = some offset) :
    a ∈ (analyze program).undetermined ↔ (a : Int) + offset.toInt < 0

/-- **Addresses are exact in every program that fits into memory**, in the machine and in the
analysis. -/
theorem addresses_exact {program : Program}
    (hlength : program.length < 0x8000000000000000 - 0x80000000) : AddressesExact program := by
  have hlimit : program.length ≤ addressLimit := Nat.le_of_lt hlength
  refine
    { restored := exists_toMachine_eq, step := map_step? hlimit, steps := map_machineAt? hlimit,
      onward := ?_, taken := step_of_jumpsBy_of_eq, refused := step_of_jumpsBy_eq_error_iff,
      agreed := eq_of_jumpsBy, sum := ?_, foretold := ?_, edge := mem_edges_of_offset,
      undetermined := mem_undetermined_of_offset }
  · intro address h
    obtain ⟨next, hnext, hexact⟩ := nextWord?_eq_some (show address.toNat < addressLimit by omega)
    rw [hnext, Option.map_some, hexact]
  · intro address h offset
    obtain ⟨target, htarget, hexact⟩ :=
      movedWord?_eq_some (show address.toNat < addressLimit by omega) offset
    refine ⟨target, htarget, hexact, ?_⟩
    intro hnonneg
    rw [toNat_toUInt64_of_nonneg hnonneg, Int.toNat_of_nonneg hnonneg]
  · intro address h ins
    exact map_statedOffsetWord? (by omega) ins

/-- A loop of two instructions whose jump leads back, and one whose jump leads below all
addresses. -/
theorem addresses_exact_countdown :
    ([⟨"dec", ["a"]⟩, ⟨"jnz", ["a", "-1"]⟩, ⟨"jnz", ["1", "-2147483648"]⟩] : Program).length
        < 0x8000000000000000 - 0x80000000
      ∧ AddressesExact
        [⟨"dec", ["a"]⟩, ⟨"jnz", ["a", "-1"]⟩, ⟨"jnz", ["1", "-2147483648"]⟩] :=
  ⟨by decide, addresses_exact (by decide)⟩

end PseudoAsm

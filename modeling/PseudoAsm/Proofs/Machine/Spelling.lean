import Mathlib.Data.List.Forall2
import PseudoAsm.Proofs.Machine.Running
import PseudoAsm.Proofs.Machine.Token
import PseudoAsm.Proofs.Text.Identifier

/-!
# Programs in another letter case

Registers have one name in whatever letter case it is written.  Two programs that differ in the
case of their operands alone run side by side on equal machines: where one instruction asks for a
register so does the other, and where one finds no operand neither does the other.

* `Trap.folded`, `Alike` — two computations have the same value, or they trap alike up to the letter
  case of a literal that they quote;
* `RegisterFile.key_congr` — a register is looked up alike under all spellings of its name;
* `value_alike` — a token is read alike under all spellings, unless a combining dot tells them
  apart;
* `Respelled` — an instruction in another letter case;
* `effect_alike` — **it has the same effect**;
* `letter_case_irrelevant` — **two programs that differ in the letter case of their operands have
  runs with the same result**.
-/

namespace PseudoAsm

/-! ### Traps up to letter case -/

/-- A trap without the letter case of the literal that it quotes. -/
def Trap.folded : Trap → Trap
  | .malformedNumericLiteral literal => .malformedNumericLiteral (Text.lower literal)
  | trap => trap

/-- Two computations trap alike, up to the letter case of a literal that they quote, or succeed
with related values. -/
def Alike {α β : Type} (related : α → β → Prop) (e : Except Trap α) (e' : Except Trap β) : Prop :=
  InStep related (e.mapError Trap.folded) (e'.mapError Trap.folded)

namespace Alike

variable {α β γ δ : Type} {related : α → β → Prop} {after : γ → δ → Prop} {e : Except Trap α}
  {e' : Except Trap β}

theorem ok {a : α} {b : β} (h : related a b) : Alike related (.ok a) (.ok b) :=
  InStep.ok h

theorem refl (e : Except Trap α) : Alike (· = ·) e e :=
  InStep.refl _

theorem of_eq {e' : Except Trap α} (h : e = e') : Alike (· = ·) e e' :=
  h ▸ refl e

/-- Sequences are alike if their parts are. -/
theorem bind {f : α → Except Trap γ} {g : β → Except Trap δ} (h : Alike related e e')
    (hf : ∀ a b, related a b → Alike after (f a) (g b)) : Alike after (e >>= f) (e' >>= g) := by
  unfold Alike
  rw [mapError_bind, mapError_bind]
  exact InStep.bind h hf

/-- Computations of the same values are alike if they are equal up to letter case. -/
theorem iff_mapError_eq {e' : Except Trap α} :
    Alike (· = ·) e e' ↔ e.mapError Trap.folded = e'.mapError Trap.folded := by
  unfold Alike
  constructor
  · intro h
    generalize e.mapError Trap.folded = x, e'.mapError Trap.folded = y at h
    cases h with
    | ok h => rw [h]
    | error trap => rfl
  · intro h
    rw [h]
    exact InStep.refl _

end Alike

/-! ### Names and tokens -/

variable {s t : String} {m : Machine}

/-- **A register is looked up alike under all spellings of its name.** -/
theorem RegisterFile.key_congr (h : Text.lower s = Text.lower t) :
    RegisterFile.key s = RegisterFile.key t := by
  rw [← String.toList_inj]
  simp only [RegisterFile.key, Text.toList_lower, Text.toList_trim]
  rw [← Text.trimChars_lowerChars, Text.lowerChars_eq_of_lower_eq h, Text.trimChars_lowerChars]

theorem RegisterFile.read_congr (file : RegisterFile) (h : Text.lower s = Text.lower t) :
    file.read s = file.read t := by
  simp only [RegisterFile.read, RegisterFile.get?, RegisterFile.key_congr h]

theorem RegisterFile.write_congr (file : RegisterFile) (h : Text.lower s = Text.lower t)
    (value : Int32) : file.write s value = file.write t value := by
  simp only [RegisterFile.write, RegisterFile.key_congr h]

/-- The characters of a numeral are no letters. -/
theorem no_letters_of_int32? {value : Int32} (h : Numeral.int32? s = some value) :
    ∀ c ∈ s.toList, Text.IsLower c ∧ ¬Text.IsLetterLike c := by
  have hdigits : ∀ n < 58, 48 ≤ n →
      Text.IsLower (Char.ofNat n) ∧ ¬Text.IsLetterLike (Char.ofNat n) := by
    decide +kernel
  intro c hc
  rcases Numeral.isDigit_or_sign_of_int32? h c hc with hdigit | rfl | rfl
  · obtain ⟨hlow, hhigh⟩ := Char.isDigit_iff_toNat.1 hdigit
    rw [← Char.ofNat_toNat c]
    exact hdigits c.toNat (Nat.lt_succ_of_le hhigh) hlow
  · decide +kernel
  · decide +kernel

theorem int32?_congr (h : Text.lower s = Text.lower t) : Numeral.int32? s = Numeral.int32? t := by
  cases hs : Numeral.int32? s with
  | some value => rw [Text.eq_of_lower_eq h (no_letters_of_int32? hs), hs]
  | none =>
    cases ht : Numeral.int32? t with
    | some value =>
      rw [← ht, ← hs, Text.eq_of_lower_eq h.symm (no_letters_of_int32? ht)]
    | none => rfl

/-- **A token is read alike under all spellings**, unless a combining dot tells them apart. -/
theorem value_alike (h : Text.lower s = Text.lower t)
    (hdots : '\u0307' ∈ s.toList ↔ '\u0307' ∈ t.toList) (m : Machine) :
    Alike (· = ·) (m.value s) (m.value t) := by
  unfold Machine.value
  rw [int32?_congr h, isIdentifier_congr h hdots, m.registers.read_congr h]
  cases Numeral.int32? t with
  | some value => exact .refl _
  | none =>
    by_cases hname : isIdentifier t = true
    · simp only [if_pos hname]
      exact .refl _
    · simp only [if_neg hname]
      rw [Alike.iff_mapError_eq]
      simp [Except.mapError, Trap.folded, h]

/-! ### Messages -/

/-- Apostrophes are no letters. -/
theorem no_letter_of_apostrophe (c : Char) (hc : decide (c = '\'') = true) :
    Text.IsLower c ∧ ¬Text.IsLetterLike c := by
  obtain rfl := of_decide_eq_true hc
  decide +kernel

/-- What does not start with an apostrophe names a register, apostrophes at its end aside. -/
theorem bareRegister?_of_unquoted (h : s.toList.head? ≠ some '\'') :
    bareRegister? s = some (String.ofList (s.toList.rdropWhile (· = '\''))) := by
  unfold bareRegister?
  split
  · next hquoted =>
    rw [hquoted] at h
    exact absurd rfl h
  · rfl

/-- A part of a message that stands outside apostrophes is read alike under all spellings. -/
theorem messagePart_congr (h : Text.lower s = Text.lower t)
    (hquote : s.toList.head? ≠ some '\'') (m : Machine) : m.messagePart s = m.messagePart t := by
  have hchars := Text.lowerChars_eq_of_lower_eq h
  have hother : t.toList.head? ≠ some '\'' := by
    rwa [Ne, ← Text.head?_lowerChars_eq_some_iff no_letter_of_apostrophe (by decide), ← hchars,
      Text.head?_lowerChars_eq_some_iff no_letter_of_apostrophe (by decide)]
  have hname : Text.lower (String.ofList (s.toList.rdropWhile (· = '\'')))
      = Text.lower (String.ofList (t.toList.rdropWhile (· = '\''))) := by
    rw [Text.lower, Text.lower, String.toList_ofList, String.toList_ofList,
      ← Text.rdropWhile_lowerChars no_letter_of_apostrophe, hchars,
      Text.rdropWhile_lowerChars no_letter_of_apostrophe]
  rw [messagePart_of_bareRegister? (bareRegister?_of_unquoted hquote),
    messagePart_of_bareRegister? (bareRegister?_of_unquoted hother),
    m.registers.read_congr hname]

/-- Message parts in another letter case: what stands between apostrophes is the same. -/
def RespelledPart (s t : String) : Prop :=
  Text.lower s = Text.lower t ∧ (s.toList.head? = some '\'' → s = t)

instance (s t : String) : Decidable (RespelledPart s t) :=
  inferInstanceAs (Decidable (_ ∧ _))

theorem message_respelled {parts others : List String} (h : List.Forall₂ RespelledPart parts others)
    (m : Machine) : m.message parts = m.message others := by
  induction h with
  | nil => rfl
  | @cons s t parts others hpart _ ih =>
    have hhead : m.messagePart s = m.messagePart t := by
      by_cases hquote : s.toList.head? = some '\''
      · rw [hpart.2 hquote]
      · exact messagePart_congr hpart.1 hquote m
    rw [Machine.message, Machine.message, hhead, ih]

/-! ### Instructions -/

/-- The same instruction with operands in another letter case: targets, and the parts of a message
between apostrophes, are the same. -/
@[mk_iff]
structure Respelled (ins other : Instruction) : Prop where
  name : other.name = ins.name
  letters : List.Forall₂ (fun s t => Text.lower s = Text.lower t) ins.params other.params
  target (h : ins.name ∈ InstructionSet.standard.addressMnemonics) :
    ins.params.head? = other.params.head?
  quoted (h : ins.name = Operation.msg.mnemonic) :
    List.Forall₂ RespelledPart ins.params other.params

instance (ins other : Instruction) : Decidable (Respelled ins other) :=
  decidable_of_iff _ (respelled_iff ins other).symm

/-- Where an instruction reads a value, combining dots stand in both or in none of the tokens. -/
def SameDots (ins other : Instruction) : Prop :=
  ∀ (op : Operation) (i : Nat) (s t : String), ins.name = op.mnemonic → op.evaluates i = true →
    ins.param? i = some s → other.param? i = some t →
    ('\u0307' ∈ s.toList ↔ '\u0307' ∈ t.toList)

theorem sameDots_of_not_mem {ins other : Instruction}
    (hs : ∀ s ∈ ins.params, '\u0307' ∉ s.toList) (ht : ∀ t ∈ other.params, '\u0307' ∉ t.toList) :
    SameDots ins other := by
  intro op i s t _ _ hparam hparam'
  exact iff_of_false (hs s (List.mem_of_getElem? hparam)) (ht t (List.mem_of_getElem? hparam'))

section Effects

variable {ins other : Instruction} {op : Operation} (h : Respelled ins other)

include h

/-- Both instructions have a parameter at a position, and they differ in letter case only, or none
has. -/
theorem params_or_none (i : Nat) :
    (ins.param? i = none ∧ other.param? i = none)
      ∨ ∃ s t, ins.param? i = some s ∧ other.param? i = some t ∧ Text.lower s = Text.lower t := by
  have hlength := h.letters.length_eq
  unfold Instruction.param?
  by_cases hlt : i < ins.params.length
  · exact .inr ⟨_, _, List.getElem?_eq_getElem hlt, List.getElem?_eq_getElem (hlength ▸ hlt),
      h.letters.get hlt (hlength ▸ hlt)⟩
  · have hle : ins.params.length ≤ i := Nat.not_lt.1 hlt
    exact .inl ⟨List.getElem?_eq_none hle, List.getElem?_eq_none (hlength ▸ hle)⟩

/-- The operands at a position are those of both instructions, or there is none. -/
theorem operand_alike (op : Operation) (i : Nat) :
    Alike
      (fun s t => ins.param? i = some s ∧ other.param? i = some t ∧ Text.lower s = Text.lower t)
      (operand ins op i) (operand other op i) := by
  unfold operand
  rcases params_or_none h i with ⟨hs, ht⟩ | ⟨s, t, hs, ht, hletters⟩
  · rw [hs, ht]
    exact InStep.error _
  · have hempty : s.isEmpty = t.isEmpty := by
      rw [Bool.eq_iff_iff, String.isEmpty_iff, String.isEmpty_iff, ← Text.lower_eq_empty_iff,
        hletters, Text.lower_eq_empty_iff]
    rw [hs, ht]
    simp only [hempty]
    split
    · exact InStep.error _
    · exact .ok ⟨rfl, rfl, hletters⟩

/-- The register in the first parameter is changed alike. -/
theorem adjusted_alike (f : Int32 → Except Trap Int32) :
    Alike (· = ·) (adjusted ins op m f) (adjusted other op m f) := by
  refine (operand_alike h op 0).bind ?_
  rintro s t ⟨-, -, hletters⟩
  refine .of_eq ?_
  simp only [RegisterFile.modify, m.registers.read_congr hletters,
    m.registers.write_congr hletters]

/-- Jumps lead to the same target. -/
theorem jumpTo_eq (hname : ins.name = op.mnemonic) (haddress : op.operands = .address) :
    jumpTo ins op = jumpTo other op := by
  have hmem : ins.name ∈ InstructionSet.standard.addressMnemonics := by
    rw [hname, InstructionSet.mem_addressMnemonics_standard_iff]
    exact haddress
  have hparam : ins.param? 0 = other.param? 0 := by
    rw [Instruction.param?, Instruction.param?, ← List.head?_eq_getElem?, ← List.head?_eq_getElem?,
      h.target hmem]
  rw [jumpTo, jumpTo, operand, operand, hparam]

variable (hdots : SameDots ins other) (hname : ins.name = op.mnemonic)

include hdots hname

/-- The value at a position is read alike, and what is made of it is alike too. -/
theorem evaluated_alike {α β : Type} {related : α → β → Prop} {i : Nat}
    (hi : op.evaluates i = true) {f : Int32 → Except Trap α} {g : Int32 → Except Trap β}
    (hfg : ∀ value, Alike related (f value) (g value)) :
    Alike related (operand ins op i >>= fun token => m.value token >>= f)
      (operand other op i >>= fun token => m.value token >>= g) := by
  refine (operand_alike h op i).bind ?_
  rintro s t ⟨hs, ht, hletters⟩
  refine (value_alike hletters (hdots op i s t hname hi hs ht) m).bind ?_
  rintro value _ rfl
  exact hfg value

/-- **An instruction in another letter case has the same effect.** -/
theorem effect_alike (m : Machine) : Alike (· = ·) (effect ins op m) (effect other op m) := by
  cases op with
  | mov =>
    refine (operand_alike h .mov 0).bind ?_
    rintro s t ⟨-, -, hletters⟩
    refine evaluated_alike h hdots hname rfl fun value => ?_
    rw [m.registers.write_congr hletters]
    exact .refl _
  | inc | dec => exact adjusted_alike h _
  | add | sub | mul | div => exact evaluated_alike h hdots hname rfl fun w => adjusted_alike h _
  | cmp =>
    refine evaluated_alike h hdots hname rfl fun x => ?_
    exact evaluated_alike h hdots hname rfl fun y => .refl _
  | jmp | je | jne | jg | jge | jl | jle =>
    refine .of_eq ?_
    simp only [effect, jumpIf, jumpTo_eq h hname rfl]
  | jnz =>
    refine evaluated_alike h hdots hname rfl fun x => ?_
    split
    · exact .refl _
    · exact evaluated_alike h hdots hname rfl fun offset => .refl _
  | call =>
    refine .of_eq ?_
    simp only [effect, jumpTo_eq h hname rfl]
  | ret => exact .refl _
  | msg =>
    refine .of_eq ?_
    simp only [effect, message_respelled (h.quoted hname)]
  | stop => exact .refl _

end Effects

/-! ### Steps and runs -/

/-- A result and a machine, without the letter case of a literal that the result quotes. -/
def foldedOutcome {α : Type} (outcome : Except Trap α × Machine) : Except Trap α × Machine :=
  (outcome.1.mapError Trap.folded, outcome.2)

section Runs

variable {program others : Program}

/-- What an instruction leaves is sent on alike. -/
theorem sent_alike (hlength : program.length = others.length)
    {e e' : Except Trap (Flow × Machine)} (h : Alike (· = ·) e e') :
    Alike (· = ·) (sent program m e).1 (sent others m e').1
      ∧ (sent program m e).2 = (sent others m e').2 := by
  rw [Alike.iff_mapError_eq] at h ⊢
  have hstatus : statusAt program = statusAt others := by
    funext address
    simp only [statusAt, hlength]
  cases e with
  | error trap =>
    cases e' with
    | error trap' => exact ⟨congrArg Except.error (Except.error.inj h), rfl⟩
    | ok executed => cases h
  | ok executed =>
    cases e' with
    | error trap => cases h
    | ok executed' =>
      cases h
      unfold sent
      dsimp only
      rw [hstatus]
      exact ⟨rfl, rfl⟩

variable (hrespelled : List.Forall₂ Respelled program others)
  (hdots : List.Forall₂ SameDots program others)

include hrespelled hdots

/-- At every address the programs have the same instruction in another letter case. -/
theorem exists_respelled {a : Nat} {ins : Instruction} (hins : program[a]? = some ins) :
    ∃ other, others[a]? = some other ∧ Respelled ins other ∧ SameDots ins other := by
  obtain ⟨hlt, rfl⟩ := List.getElem?_eq_some_iff.1 hins
  have hlt' : a < others.length := hrespelled.length_eq ▸ hlt
  exact ⟨others[a], List.getElem?_eq_getElem hlt', hrespelled.get hlt hlt', hdots.get hlt hlt'⟩

/-- **A step of a program in another letter case is the same step.** -/
theorem step_alike (m : Machine) :
    Alike (· = ·) ((Processor.standard.step program).on m).1
        ((Processor.standard.step others).on m).1
      ∧ ((Processor.standard.step program).on m).2 = ((Processor.standard.step others).on m).2 := by
  have hlength := hrespelled.length_eq
  cases hfetch : Processor.standard.fetch program m.ip with
  | outside =>
    have hother : Processor.standard.fetch others m.ip = .outside := by
      rw [Processor.fetch_eq_outside_iff] at hfetch ⊢
      omega
    rw [Processor.step_outside hfetch, Processor.step_outside hother]
    exact ⟨.refl _, rfl⟩
  | unknown name =>
    obtain ⟨ins, hins, hnone, hname⟩ := Processor.fetch_eq_unknown_iff.1 hfetch
    obtain ⟨other, hother, hins', -⟩ := exists_respelled hrespelled hdots hins
    have hfetch' : Processor.standard.fetch others m.ip = .unknown name :=
      Processor.fetch_eq_unknown_iff.2
        ⟨other, hother, hins'.name ▸ hnone, hins'.name.trans hname⟩
    rw [Processor.step_unknown hfetch, Processor.step_unknown hfetch']
    exact ⟨.refl _, rfl⟩
  | ready ins op =>
    obtain ⟨hins, row, hrow, hop⟩ := Processor.fetch_eq_ready_iff.1 hfetch
    obtain ⟨other, hother, hins', hdots'⟩ := exists_respelled hrespelled hdots hins
    have hname : ins.name = op.mnemonic := by
      rw [← hop]
      exact (InstructionSet.mnemonic_operation_of_find? hrow).symm
    have hfetch' : Processor.standard.fetch others m.ip = .ready other op :=
      Processor.fetch_eq_ready_iff.2 ⟨hother, row, hins'.name ▸ hrow, hop⟩
    rw [step_standard hfetch, step_standard hfetch']
    exact sent_alike hlength (effect_alike hins' hdots' hname m)

theorem runFrom_alike (patience taken : Nat) (m : Machine) :
    (Processor.standard.runFrom program patience taken m).map foldedOutcome
      = (Processor.standard.runFrom others patience taken m).map foldedOutcome := by
  induction patience generalizing taken m with
  | zero => rfl
  | succ patience ih =>
    unfold Processor.runFrom
    cases m.settings.maxSteps.filter (· ≤ taken) with
    | some limit => rfl
    | none =>
      obtain ⟨hresult, hmachine⟩ := step_alike hrespelled hdots m
      generalize (Processor.standard.step program).on m = stepped at hresult hmachine
      generalize (Processor.standard.step others).on m = stepped' at hresult hmachine
      obtain ⟨result, after⟩ := stepped
      obtain ⟨result', after'⟩ := stepped'
      rw [Alike.iff_mapError_eq] at hresult
      dsimp only at hresult hmachine
      subst hmachine
      cases result with
      | error trap =>
        cases result' with
        | error trap' => exact congrArg (fun e => some (e, after)) hresult
        | ok status => cases hresult
      | ok status =>
        cases result' with
        | error trap => cases hresult
        | ok status' =>
          cases hresult
          cases status with
          | running => exact ih (taken + 1) after
          | ended | fellThrough => rfl

end Runs

theorem mapError_released (result : Except Trap Status) (output : Option String) :
    (Processor.released result output).mapError Trap.folded
      = Processor.released (result.mapError Trap.folded) output := by
  cases result with
  | error trap => rfl
  | ok status => cases status <;> rfl

/-- **Letter case is irrelevant.**  Two programs that differ in the letter case of their operands
have the same runs: on fresh machines with the same settings they come to the same output, or to the
same trap up to the letter case of a literal that it quotes.  The combining dot that `İ` has in
lowercase must not tell apart what they read as values. -/
theorem letter_case_irrelevant (program others : Program)
    (hrespelled : List.Forall₂ Respelled program others)
    (hdots : List.Forall₂ SameDots program others) (settings : Settings) (patience : Nat) :
    (Processor.standard.run patience program (.fresh settings)).map foldedOutcome
      = (Processor.standard.run patience others (.fresh settings)).map foldedOutcome := by
  have hruns := runFrom_alike hrespelled hdots patience 0 (Machine.fresh settings).reset
  -- what is made known of the end of a run depends on its folded outcome alone, once it is folded
  have hend : (foldedOutcome ∘ fun outcome : Except Trap Status × Machine =>
        (Processor.released outcome.1 outcome.2.output, outcome.2.reset))
      = (fun outcome : Except Trap Status × Machine =>
        (Processor.released outcome.1 outcome.2.output, outcome.2.reset)) ∘ foldedOutcome := by
    funext outcome
    exact Prod.ext (mapError_released _ _) rfl
  have hfolded (p : Program) :
      (Processor.standard.run patience p (.fresh settings)).map foldedOutcome
      = ((Processor.standard.runFrom p patience 0 (Machine.fresh settings).reset).map
          foldedOutcome).map fun outcome =>
            (Processor.released outcome.1 outcome.2.output, outcome.2.reset) := by
    unfold Processor.run
    rw [Option.map_map, Option.map_map]
    exact congrFun (congrArg Option.map hend) _
  rw [hfolded, hfolded, hruns]

/-- A program with a register under two spellings, and with an operand that is none. -/
def streetProgram : Program :=
  [⟨"mov", ["ΟΔΟΣ", "5"]⟩, ⟨"msg", ["'ΟΔΟΣ '", "Οδος'"]⟩, ⟨"jmp", ["3"]⟩,
    ⟨"cmp", ["οδος", "Ä-1"]⟩]

/-- The same program in another letter case. -/
def streetProgramRespelled : Program :=
  [⟨"mov", ["οδος", "5"]⟩, ⟨"msg", ["'ΟΔΟΣ '", "ΟΔΟΣ'"]⟩, ⟨"jmp", ["3"]⟩,
    ⟨"cmp", ["ΟδοΣ", "ä-1"]⟩]

/-- Both programs stop at the operand that is none, each quoting it in its own letter case. -/
theorem letter_case_irrelevant_street :
    List.Forall₂ Respelled streetProgram streetProgramRespelled
      ∧ List.Forall₂ SameDots streetProgram streetProgramRespelled
      ∧ ∀ settings patience,
        (Processor.standard.run patience streetProgram (.fresh settings)).map foldedOutcome
          = (Processor.standard.run patience streetProgramRespelled (.fresh settings)).map
              foldedOutcome := by
  have hrespelled : List.Forall₂ Respelled streetProgram streetProgramRespelled := by
    decide +kernel
  have hdots : List.Forall₂ SameDots streetProgram streetProgramRespelled :=
    .cons (sameDots_of_not_mem (by decide) (by decide))
      (.cons (sameDots_of_not_mem (by decide) (by decide))
        (.cons (sameDots_of_not_mem (by decide) (by decide))
          (.cons (sameDots_of_not_mem (by decide) (by decide)) .nil)))
  exact ⟨hrespelled, hdots, letter_case_irrelevant _ _ hrespelled hdots⟩

/-- A program that copies a register whose name is a dotted capital. -/
def dottedProgram : Program :=
  [⟨"mov", ["İ", "5"]⟩, ⟨"mov", ["b", "İ"]⟩, ⟨"msg", ["b"]⟩, ⟨"end", []⟩]

/-- The same program with the name in lowercase, where a combining dot is on its own. -/
def dottedProgramLowercase : Program :=
  [⟨"mov", ["i\u0307", "5"]⟩, ⟨"mov", ["b", "i\u0307"]⟩, ⟨"msg", ["b"]⟩, ⟨"end", []⟩]

/-- A dotted capital names a register, and its lowercase form does not, where a value is read. -/
theorem letter_case_relevant_dotted :
    ¬∀ (program others : Program) (settings : Settings) (patience : Nat),
      List.Forall₂ Respelled program others →
      (Processor.standard.run patience program (.fresh settings)).map foldedOutcome
        = (Processor.standard.run patience others (.fresh settings)).map foldedOutcome := by
  intro h
  have hrespelled : List.Forall₂ Respelled dottedProgram dottedProgramLowercase := by
    decide +kernel
  have hruns := congrArg (Option.map fun outcome => outcome.1.toOption)
    (h dottedProgram dottedProgramLowercase {} 4 hrespelled)
  exact absurd hruns (by decide +kernel)

end PseudoAsm

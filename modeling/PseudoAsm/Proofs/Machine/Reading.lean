import PseudoAsm.Proofs.Machine.Control
import PseudoAsm.Proofs.Text.Lowercase

/-!
# The registers that an instruction reads

An instruction reads registers as values, as the targets of arithmetic, and as the parts of a
message.  It looks them up by their keys, traps if one of them does not exist, and takes no notice
of any other register.

* `RegisterFile.names`, `RegisterFile.mem_names_write` — the names under which registers are stored;
* `RegisterFile.key_key` — **the form in which a name is stored is its own key**;
* `Instruction.registersRead` — the registers that an instruction reads;
* `mem_names_of_effect` — **it traps unless they all exist**;
* `effect_withRegisters` — **it depends on no others**.
-/

namespace PseudoAsm

/-! ### Stored names -/

namespace RegisterFile

/-- The names that a file has registers under. -/
def names (file : RegisterFile) : List String :=
  file.entries.map Prod.fst

theorem findEntry_eq_none_iff {name : String} {entries : List (String × Int32)} :
    findEntry name entries = none ↔ name ∉ entries.map Prod.fst := by
  induction entries with
  | nil => exact iff_of_true rfl List.not_mem_nil
  | cons entry rest ih =>
    obtain ⟨other, value⟩ := entry
    rw [findEntry, List.map_cons, List.mem_cons]
    by_cases heq : name = other
    · rw [if_pos heq]
      exact iff_of_false (Option.some_ne_none value) fun hnot => hnot (.inl heq)
    · rw [if_neg heq, ih, or_iff_right heq]

theorem mem_names_iff {file : RegisterFile} {name : String} :
    name ∈ file.names ↔ file.find? name ≠ none := by
  rw [find?, Ne, findEntry_eq_none_iff, Classical.not_not]
  rfl

/-- A write adds the key of the name. -/
theorem mem_names_write {file : RegisterFile} {name other : String} {value : Int32} :
    other ∈ (file.write name value).names ↔ other = key name ∨ other ∈ file.names := by
  rw [mem_names_iff, mem_names_iff, write, find?_insert]
  by_cases heq : other = key name
  · rw [if_pos heq]
    exact iff_of_true (Option.some_ne_none value) (.inl heq)
  · rw [if_neg heq, or_iff_right heq]

/-- A write changes no other register. -/
theorem find?_write_of_ne {file : RegisterFile} {name other : String} (value : Int32)
    (h : other ≠ key name) : (file.write name value).find? other = file.find? other := by
  rw [write, find?_insert, if_neg h]

/-- **The form in which a name is stored is its own key.** -/
theorem key_key (name : String) : key (key name) = key name := by
  have htrimmed : Text.trimChars (Text.lowerChars (Text.trimChars name.toList))
      = Text.lowerChars (Text.trimChars name.toList) := by
    rw [Text.trimChars_lowerChars, Text.trimChars_trimChars]
  rw [key, key, Text.trim, Text.lower, Text.toList_lower, Text.toList_trim, htrimmed,
    String.toList_ofList, Text.lowerChars_lowerChars, Text.lower, Text.toList_trim]

theorem read_eq_ok_iff {file : RegisterFile} {name : String} {value : Int32} :
    file.read name = .ok value ↔ file.get? name = some value := by
  unfold read
  cases file.get? name with
  | none => exact iff_of_false nofun nofun
  | some found =>
    rw [Except.ok.injEq, Option.some.injEq]

/-- A register that can be read exists. -/
theorem key_mem_names_of_read {file : RegisterFile} {name : String} {value : Int32}
    (h : file.read name = .ok value) : key name ∈ file.names := by
  have hfound : file.find? (key name) = some value := read_eq_ok_iff.1 h
  rw [mem_names_iff, hfound]
  exact Option.some_ne_none value

end RegisterFile

/-! ### What an instruction reads -/

/-- The register that an operand names as a value, unless it is a numeral. -/
def Instruction.valueRegister? (ins : Instruction) (index : Nat) : Option String :=
  (ins.param? index).filter fun token => (Numeral.int32? token).isNone

/-- The register that a message part names, unless it is text. -/
def bareRegister? (part : String) : Option String :=
  match part.toList with
  | '\'' :: _ => none
  | cs => some (String.ofList (cs.reverse.dropWhile (· = '\'')).reverse)

/-- The tokens of the registers that an instruction reads under an operation: its values, the
register that arithmetic changes, and the parts of a message that stand outside apostrophes.  A
relative jump evaluates its offset only if it is taken. -/
def Instruction.registersRead (ins : Instruction) (op : Operation) (m : Machine) : List String :=
  match op with
  | .mov => (ins.valueRegister? 1).toList
  | .inc | .dec => (ins.param? 0).toList
  | .add | .sub | .mul | .div => (ins.valueRegister? 1).toList ++ (ins.param? 0).toList
  | .cmp => (ins.valueRegister? 0).toList ++ (ins.valueRegister? 1).toList
  | .jnz => (ins.valueRegister? 0).toList
      ++ if (ins.param? 0).map m.value = some (.ok 0) then [] else (ins.valueRegister? 1).toList
  | .msg => ins.params.filterMap bareRegister?
  | .jmp | .je | .jne | .jg | .jge | .jl | .jle | .call | .ret | .stop => []

section Reading

variable {ins : Instruction} {op : Operation} {m after : Machine} {flow : Flow} {token : String}

theorem mem_valueRegister?_iff {index : Nat} :
    token ∈ (ins.valueRegister? index).toList
      ↔ ins.param? index = some token ∧ Numeral.int32? token = none := by
  rw [Option.mem_toList, Instruction.valueRegister?, Option.filter_eq_some_iff,
    Option.isNone_iff_eq_none]

/-- A jump is not taken exactly if the operand that it tests evaluates to zero. -/
theorem map_value_eq_zero_iff {index : Nat} {found : String} {value : Int32}
    (hfound : operand ins op index = .ok found) (hvalue : m.value found = .ok value) :
    (ins.param? index).map m.value = some (.ok 0) ↔ value = 0 := by
  rw [(operand_eq_ok_iff.1 hfound).1, Option.map_some, hvalue, Option.some.injEq, Except.ok.injEq]

theorem messagePart_of_bareRegister? {part : String} (h : bareRegister? part = some token) :
    m.messagePart part
      = m.registers.read token >>= fun value => .ok (toString value.toInt) := by
  have hbare (quoted : List Char) : part.toList ≠ '\'' :: quoted := by
    intro hquoted
    rw [bareRegister?, hquoted] at h
    cases h
  have htoken : String.ofList (part.toList.reverse.dropWhile (· = '\'')).reverse = token := by
    unfold bareRegister? at h
    split at h
    · next hquoted => exact absurd hquoted (hbare _)
    · exact Option.some.inj h
  subst htoken
  unfold Machine.messagePart
  split
  · next hquoted => exact absurd hquoted (hbare _)
  · rfl

/-- A part that names no register has a text, whatever the registers. -/
theorem exists_text_of_eq_none {part : String} (h : bareRegister? part = none) :
    ∃ text, ∀ m : Machine, m.messagePart part = .ok text := by
  unfold bareRegister? at h
  split at h
  · next quoted hquoted =>
    simp only [Machine.messagePart, hquoted]
    split
    · exact ⟨_, fun _ => rfl⟩
    · exact ⟨_, fun _ => rfl⟩
  · cases h

/-! Nothing succeeds without the registers that it reads. -/

theorem key_mem_names_of_value {index : Nat} {found : String} {value : Int32}
    (hfound : operand ins op index = .ok found) (hvalue : m.value found = .ok value)
    (htoken : token ∈ (ins.valueRegister? index).toList) :
    RegisterFile.key token ∈ m.registers.names := by
  obtain ⟨hparam, hnumeral⟩ := mem_valueRegister?_iff.1 htoken
  rw [(operand_eq_ok_iff.1 hfound).1, Option.some.injEq] at hparam
  subst hparam
  unfold Machine.value at hvalue
  simp only [hnumeral] at hvalue
  split at hvalue
  · exact RegisterFile.key_mem_names_of_read hvalue
  · cases hvalue

theorem key_mem_names_of_adjusted {f : Int32 → Except Trap Int32}
    (h : adjusted ins op m f = .ok (flow, after)) (htoken : token ∈ (ins.param? 0).toList) :
    RegisterFile.key token ∈ m.registers.names := by
  obtain ⟨name, hname, h⟩ := bind_eq_ok_iff.1 h
  obtain ⟨⟨value, registers⟩, hmodify, -⟩ := bind_eq_ok_iff.1 h
  obtain ⟨old, hread, -⟩ := bind_eq_ok_iff.1 hmodify
  rw [Option.mem_toList, (operand_eq_ok_iff.1 hname).1, Option.some.injEq] at htoken
  exact htoken ▸ RegisterFile.key_mem_names_of_read hread

theorem key_mem_names_of_combined {f : Int32 → Int32 → Except Trap Int32}
    (h : combined ins op m f = .ok (flow, after))
    (htoken : token ∈ (ins.valueRegister? 1).toList ++ (ins.param? 0).toList) :
    RegisterFile.key token ∈ m.registers.names := by
  obtain ⟨found, hfound, h⟩ := bind_eq_ok_iff.1 h
  obtain ⟨value, hvalue, h⟩ := bind_eq_ok_iff.1 h
  rcases List.mem_append.1 htoken with hsource | htarget
  · exact key_mem_names_of_value hfound hvalue hsource
  · exact key_mem_names_of_adjusted h htarget

theorem key_mem_names_of_message {parts : List String} {text : String}
    (h : m.message parts = .ok text) (htoken : token ∈ parts.filterMap bareRegister?) :
    RegisterFile.key token ∈ m.registers.names := by
  induction parts generalizing text with
  | nil => cases htoken
  | cons part rest ih =>
    obtain ⟨head, hhead, h⟩ := bind_eq_ok_iff.1 h
    obtain ⟨tail, htail, -⟩ := bind_eq_ok_iff.1 h
    obtain ⟨other, hother, hbare⟩ := List.mem_filterMap.1 htoken
    rcases List.mem_cons.1 hother with rfl | hrest
    · rw [messagePart_of_bareRegister? hbare] at hhead
      obtain ⟨value, hread, -⟩ := bind_eq_ok_iff.1 hhead
      exact RegisterFile.key_mem_names_of_read hread
    · exact ih htail (List.mem_filterMap.2 ⟨other, hrest, hbare⟩)

/-- **An instruction is executed only if all registers exist that it reads.** -/
theorem mem_names_of_effect (h : effect ins op m = .ok (flow, after))
    (htoken : token ∈ ins.registersRead op m) : RegisterFile.key token ∈ m.registers.names := by
  cases op with
  | mov =>
    obtain ⟨name, -, h⟩ := bind_eq_ok_iff.1 h
    obtain ⟨found, hfound, h⟩ := bind_eq_ok_iff.1 h
    obtain ⟨value, hvalue, -⟩ := bind_eq_ok_iff.1 h
    exact key_mem_names_of_value hfound hvalue htoken
  | inc | dec => exact key_mem_names_of_adjusted h htoken
  | add | sub | mul | div => exact key_mem_names_of_combined h htoken
  | cmp =>
    obtain ⟨first, hfirst, h⟩ := bind_eq_ok_iff.1 h
    obtain ⟨x, hx, h⟩ := bind_eq_ok_iff.1 h
    obtain ⟨second, hsecond, h⟩ := bind_eq_ok_iff.1 h
    obtain ⟨y, hy, -⟩ := bind_eq_ok_iff.1 h
    rcases List.mem_append.1 htoken with htoken | htoken
    · exact key_mem_names_of_value hfirst hx htoken
    · exact key_mem_names_of_value hsecond hy htoken
  | jnz =>
    obtain ⟨first, hfirst, h⟩ := bind_eq_ok_iff.1 h
    obtain ⟨x, hx, h⟩ := bind_eq_ok_iff.1 h
    have htest := map_value_eq_zero_iff hfirst hx
    rcases List.mem_append.1 htoken with htoken | htoken
    · exact key_mem_names_of_value hfirst hx htoken
    · by_cases hzero : x = 0
      · rw [if_pos (htest.2 hzero)] at htoken
        cases htoken
      · rw [if_neg hzero] at h
        obtain ⟨second, hsecond, h⟩ := bind_eq_ok_iff.1 h
        obtain ⟨offset, hoffset, -⟩ := bind_eq_ok_iff.1 h
        rw [if_neg fun heq => hzero (htest.1 heq)] at htoken
        exact key_mem_names_of_value hsecond hoffset htoken
  | msg =>
    obtain ⟨text, htext, -⟩ := bind_eq_ok_iff.1 h
    exact key_mem_names_of_message htext htoken
  | jmp | je | jne | jg | jge | jl | jle | call | ret | stop => cases htoken

/-! Nothing depends on other registers. -/

/-- A machine with other registers. -/
def Machine.withRegisters (m : Machine) (registers : RegisterFile) : Machine :=
  { m with registers := registers }

/-- An executed instruction without what it has made of the registers. -/
def apartFromRegisters (executed : Flow × Machine) : Flow × Machine :=
  (executed.1, executed.2.withRegisters .empty)

variable {file : RegisterFile}

theorem read_congr {name : String} (h : file.get? name = m.registers.get? name) :
    file.read name = m.registers.read name := by
  rw [RegisterFile.read, RegisterFile.read, h]

theorem value_congr {index : Nat} {found : String}
    (hfound : operand ins op index = .ok found)
    (h : ∀ token ∈ (ins.valueRegister? index).toList, file.get? token = m.registers.get? token) :
    (m.withRegisters file).value found = m.value found := by
  have hparam := (operand_eq_ok_iff.1 hfound).1
  cases hnumeral : Numeral.int32? found with
  | some value => rw [Machine.value_of_int32? hnumeral, Machine.value_of_int32? hnumeral]
  | none =>
    unfold Machine.value
    simp only [hnumeral]
    exact if_congr Iff.rfl (read_congr (h found (mem_valueRegister?_iff.2 ⟨hparam, hnumeral⟩))) rfl

theorem adjusted_congr {f : Int32 → Except Trap Int32}
    (h : ∀ token ∈ (ins.param? 0).toList, file.get? token = m.registers.get? token) :
    (adjusted ins op (m.withRegisters file) f).map apartFromRegisters
      = (adjusted ins op m f).map apartFromRegisters := by
  simp only [adjusted, RegisterFile.modify, map_bind, bind_assoc]
  apply bind_congr_of_ok
  intro name hname
  have hread : (m.withRegisters file).registers.read name = m.registers.read name :=
    read_congr (h name (Option.mem_toList.2 (operand_eq_ok_iff.1 hname).1))
  rw [hread]
  rfl

theorem combined_congr {f : Int32 → Int32 → Except Trap Int32}
    (h : ∀ token ∈ (ins.valueRegister? 1).toList ++ (ins.param? 0).toList,
      file.get? token = m.registers.get? token) :
    (combined ins op (m.withRegisters file) f).map apartFromRegisters
      = (combined ins op m f).map apartFromRegisters := by
  simp only [combined, map_bind]
  apply bind_congr_of_ok
  intro found hfound
  rw [value_congr hfound fun token htoken => h token (List.mem_append_left _ htoken)]
  apply bind_congr_of_ok
  intro value hvalue
  exact adjusted_congr fun token htoken => h token (List.mem_append_right _ htoken)

theorem message_congr {parts : List String}
    (h : ∀ token ∈ parts.filterMap bareRegister?, file.get? token = m.registers.get? token) :
    (m.withRegisters file).message parts = m.message parts := by
  induction parts with
  | nil => rfl
  | cons part rest ih =>
    have hpart : (m.withRegisters file).messagePart part = m.messagePart part := by
      cases hbare : bareRegister? part with
      | none =>
        obtain ⟨text, htext⟩ := exists_text_of_eq_none hbare
        rw [htext, htext]
      | some token =>
        have hmem : token ∈ (part :: rest).filterMap bareRegister? :=
          List.mem_filterMap.2 ⟨part, List.mem_cons_self, hbare⟩
        have hread : (m.withRegisters file).registers.read token = m.registers.read token :=
          read_congr (h token hmem)
        rw [messagePart_of_bareRegister? hbare, messagePart_of_bareRegister? hbare, hread]
    have hrest : ∀ token ∈ rest.filterMap bareRegister?,
        file.get? token = m.registers.get? token := by
      intro token htoken
      obtain ⟨other, hother, hbare⟩ := List.mem_filterMap.1 htoken
      exact h token (List.mem_filterMap.2 ⟨other, List.mem_cons_of_mem part hother, hbare⟩)
    rw [Machine.message, Machine.message, hpart, ih hrest]

theorem map_pair_registers (e : Except Trap Flow) :
    (e.map (·, m.withRegisters file)).map apartFromRegisters
      = (e.map (·, m)).map apartFromRegisters := by
  cases e <;> rfl

/-- **What an instruction does depends on no register but those that it reads.** -/
theorem effect_withRegisters
    (h : ∀ token ∈ ins.registersRead op m, file.get? token = m.registers.get? token) :
    (effect ins op (m.withRegisters file)).map apartFromRegisters
      = (effect ins op m).map apartFromRegisters := by
  cases op with
  | mov =>
    simp only [effect, map_bind]
    apply bind_congr
    intro name
    apply bind_congr_of_ok
    intro found hfound
    rw [value_congr hfound h]
    rfl
  | inc | dec => exact adjusted_congr h
  | add | sub | mul | div => exact combined_congr h
  | cmp =>
    simp only [effect, map_bind]
    apply bind_congr_of_ok
    intro first hfirst
    rw [value_congr hfirst fun token htoken => h token (List.mem_append_left _ htoken)]
    apply bind_congr
    intro x
    apply bind_congr_of_ok
    intro second hsecond
    rw [value_congr hsecond fun token htoken => h token (List.mem_append_right _ htoken)]
    rfl
  | jmp | je | jne | jg | jge | jl | jle => exact map_pair_registers _
  | jnz =>
    simp only [effect, map_bind]
    apply bind_congr_of_ok
    intro first hfirst
    rw [value_congr hfirst fun token htoken => h token (List.mem_append_left _ htoken)]
    apply bind_congr_of_ok
    intro x hx
    by_cases hzero : x = 0
    · rw [if_pos hzero, if_pos hzero]
      rfl
    · have htest := map_value_eq_zero_iff hfirst hx
      have hoffset : ∀ token ∈ (ins.valueRegister? 1).toList,
          file.get? token = m.registers.get? token := by
        intro token htoken
        refine h token (List.mem_append_right _ ?_)
        rwa [if_neg fun heq => hzero (htest.1 heq)]
      rw [if_neg hzero, if_neg hzero]
      simp only [map_bind]
      apply bind_congr_of_ok
      intro second hsecond
      rw [value_congr hsecond hoffset]
      rfl
  | call =>
    simp only [effect, map_bind]
    rfl
  | ret =>
    have hkept : (m.withRegisters file).callStack = m.callStack := rfl
    cases hstack : m.callStack with
    | nil =>
      simp only [effect, hkept, hstack]
      rfl
    | cons back below =>
      simp only [effect, hkept, hstack]
      rfl
  | msg =>
    simp only [effect, map_bind]
    rw [message_congr h]
    rfl
  | stop => rfl

end Reading

end PseudoAsm

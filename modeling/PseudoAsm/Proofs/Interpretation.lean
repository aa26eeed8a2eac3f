import PseudoAsm.Proofs.Line.Plain
import PseudoAsm.Proofs.Machine.Output
import PseudoAsm.Proofs.Resolution.Shift

/-!
# Texts and values from source to output

A source that assigns values to registers, says something made up of texts and registers, and ends.
On its way to the output each text is trimmed and cut, a text in apostrophes being spared; each
value is written in decimal, read and written again; and each name is looked up in lowercase.
Nothing of it is lost.

* `Assignment` — values for ASCII identifiers that differ in more than letter case;
* `MessagePart` — a text, or an assigned register in some letter case, with its written form and
  what it means;
* `Assignment.source` — the source; `Assignment.assemble_source` — **what it reads as**;
* `RegisterFile.writeAll`, `RegisterFile.get?_writeAll` — registers written one after another;
* `Assignment.haltsAt_program` — what the machine does with it;
* `interpret_source` — **the output is what the parts mean, character for character**.
-/

namespace PseudoAsm

/-! ### Sources -/

/-- Values for registers whose names are ASCII identifiers and differ in more than letter case. -/
structure Assignment where
  entries : List (String × Int32)
  identifier : ∀ entry ∈ entries, isIdentifier entry.1 = true
  ascii : ∀ entry ∈ entries, isAscii entry.1 = true
  distinct : entries.Pairwise fun a b => a.1.toLower ≠ b.1.toLower

/-- A part of a message: a text without apostrophes and line breaks, or a register of an assignment,
its name spelled in any letter case. -/
inductive MessagePart (assignment : Assignment) where
  | text (s : String) (happostrophe : '\'' ∉ s.toList) (hnewline : '\n' ∉ s.toList)
  | register (name : String) (value : Int32) (hentry : (name, value) ∈ assignment.entries)
      (spelling : String) (hspelling : spelling.toLower = name.toLower)

namespace MessagePart

variable {assignment : Assignment}

/-- A part as it is written in a message. -/
def written : MessagePart assignment → String
  | text s _ _ => "'" ++ s ++ "'"
  | register _ _ _ spelling _ => spelling

/-- What a part adds to the output. -/
def meaning : MessagePart assignment → String
  | text s _ _ => s
  | register _ value _ _ _ => toString value.toInt

end MessagePart

namespace Assignment

variable (assignment : Assignment) (parts : List (MessagePart assignment))

/-- One line for every value, one for the message, and one for the end. -/
def lines : List String :=
  assignment.entries.map (fun entry => "mov " ++ entry.1 ++ ", " ++ toString entry.2.toInt)
    ++ ["msg " ++ String.intercalate ", " (parts.map MessagePart.written), "end"]

def source : String :=
  String.intercalate "\n" (assignment.lines parts)

/-- The instruction that writes a value. -/
def moveOf (entry : String × Int32) : Instruction :=
  ⟨Operation.mov.mnemonic, [entry.1, toString entry.2.toInt]⟩

/-- The instructions that the lines are meant to be. -/
def program : Program :=
  assignment.entries.map moveOf
    ++ [⟨Operation.msg.mnemonic, parts.map MessagePart.written⟩, ⟨Operation.stop.mnemonic, []⟩]

end Assignment

/-! ### Reading -/

section Reading

variable {assignment : Assignment} {parts : List (MessagePart assignment)}

theorem Assignment.isPlain {entry : String × Int32} (h : entry ∈ assignment.entries) :
    IsPlain entry.1 :=
  isPlain_of_isIdentifier (assignment.ascii entry h) (assignment.identifier entry h)

theorem MessagePart.isField (part : MessagePart assignment) : IsField part.written := by
  cases part with
  | text s happostrophe hnewline => exact isField_quoted happostrophe
  | register name value hentry spelling hspelling =>
    exact ((Assignment.isPlain hentry).of_toLower_eq hspelling).isField

theorem isField_of_mem_moveOf {entry : String × Int32} (h : entry ∈ assignment.entries) :
    ∀ param ∈ (Assignment.moveOf entry).params, IsField param := by
  intro param hparam
  rcases List.mem_pair.1 hparam with rfl | rfl
  · exact (Assignment.isPlain h).isField
  · exact (isPlain_toString entry.2.toInt).isField

/-- A text of lines reads as the instructions on its lines. -/
theorem ofSource_intercalate {lines : List String} (hne : lines ≠ [])
    (h : ∀ line ∈ lines, '\n' ∉ line.toList) :
    Program.ofSource (String.intercalate "\n" lines) = lines.filterMap Instruction.ofLine? := by
  have hlines : ∀ line ∈ lines.map String.toList, '\n' ∉ line := by
    intro line hline
    obtain ⟨s, hs, rfl⟩ := List.mem_map.1 hline
    exact h s hs
  have hsplit : (String.intercalate "\n" lines).toList.splitOn '\n' = lines.map String.toList := by
    rw [String.toList_intercalate]
    exact List.splitOn_intercalate '\n' hlines (by rwa [ne_eq, List.map_eq_nil_iff])
  rw [Program.ofSource, hsplit, List.filterMap_map]
  rfl

theorem MessagePart.newline_not_mem (part : MessagePart assignment) :
    '\n' ∉ part.written.toList := by
  cases part with
  | text s happostrophe hnewline =>
    show '\n' ∉ ("'" ++ s ++ "'").toList
    rw [toList_quoted]
    simp only [List.mem_cons, List.mem_append, hnewline, Char.reduceEq, List.not_mem_nil, or_self,
      not_false_eq_true]
  | register name value hentry spelling hspelling =>
    exact ((Assignment.isPlain hentry).of_toLower_eq hspelling).newline_not_mem

namespace Assignment

theorem text_moveOf (entry : String × Int32) :
    (Assignment.moveOf entry).text = "mov " ++ entry.1 ++ ", " ++ toString entry.2.toInt := by
  show "mov" ++ " " ++ String.intercalate ", " [entry.1, toString entry.2.toInt] = _
  rw [String.intercalate_cons_cons, String.intercalate_singleton, ← String.append_assoc,
    ← String.append_assoc, show "mov" ++ " " = "mov " by decide]

/-- The line of the message, a message without parts included. -/
theorem ofLine?_message (parts : List (MessagePart assignment)) :
    Instruction.ofLine? ("msg " ++ String.intercalate ", " (parts.map MessagePart.written))
      = some ⟨Operation.msg.mnemonic, parts.map MessagePart.written⟩ := by
  have hfields : ∀ param ∈ parts.map MessagePart.written, IsField param := by
    intro param hparam
    obtain ⟨part, -, rfl⟩ := List.mem_map.1 hparam
    exact part.isField
  have hread := ofLine?_standard .msg hfields
  generalize parts.map MessagePart.written = params at hread ⊢
  cases params with
  | nil => decide +kernel
  | cons first rest =>
    rw [← hread]
    show Instruction.ofLine? _
      = Instruction.ofLine? ("msg" ++ " " ++ String.intercalate ", " (first :: rest))
    rw [show "msg" ++ " " = "msg " by decide]

/-- **The lines read as the instructions that they are meant to be.** -/
theorem filterMap_lines (assignment : Assignment) (parts : List (MessagePart assignment)) :
    (assignment.lines parts).filterMap Instruction.ofLine? = assignment.program parts := by
  have hmoves : (assignment.entries.map
      fun entry => "mov " ++ entry.1 ++ ", " ++ toString entry.2.toInt).filterMap
        Instruction.ofLine? = assignment.entries.map Assignment.moveOf := by
    rw [List.filterMap_map, ← List.filterMap_eq_map]
    apply List.filterMap_congr
    intro entry hentry
    rw [Function.comp_apply, Function.comp_apply, ← text_moveOf]
    exact ofLine?_standard .mov (isField_of_mem_moveOf hentry)
  have hend : Instruction.ofLine? "end" = some ⟨Operation.stop.mnemonic, []⟩ := by decide +kernel
  unfold Assignment.lines Assignment.program
  rw [List.filterMap_append, hmoves, List.filterMap_cons, ofLine?_message, List.filterMap_cons,
    hend]
  rfl

theorem newline_not_mem_lines : ∀ line ∈ assignment.lines parts, '\n' ∉ line.toList := by
  intro line hline
  rcases List.mem_append.1 hline with hmove | hrest
  · obtain ⟨entry, hentry, rfl⟩ := List.mem_map.1 hmove
    rw [← text_moveOf, LineGrammar.toList_text]
    refine LineGrammar.not_mem_writtenChars (by decide) (by decide)
      (isPlain_mnemonic .mov).newline_not_mem ?_
    intro field hfield
    rcases List.mem_pair.1 hfield with rfl | rfl
    · exact (Assignment.isPlain hentry).newline_not_mem
    · exact (isPlain_toString entry.2.toInt).newline_not_mem
  · rcases List.mem_pair.1 hrest with rfl | rfl
    · rw [String.toList_append, String.toList_intercalate, List.mem_append, not_or]
      refine ⟨by decide, LineGrammar.not_mem_joinedChars (by decide) (by decide) ?_⟩
      intro field hfield
      rw [List.map_map] at hfield
      obtain ⟨part, -, rfl⟩ := List.mem_map.1 hfield
      exact part.newline_not_mem
    · decide

theorem resolve_program (assignment : Assignment) (parts : List (MessagePart assignment)) :
    resolve InstructionSet.standard.addressMnemonics (assignment.program parts)
      = .ok (assignment.program parts) := by
  have hops : ∀ ins ∈ assignment.program parts, ∃ op : Operation,
      ins.name = op.mnemonic ∧ op.operands ≠ .address := by
    intro ins hins
    rcases List.mem_append.1 hins with hmove | hrest
    · obtain ⟨entry, -, rfl⟩ := List.mem_map.1 hmove
      exact ⟨.mov, rfl, by decide⟩
    · rcases List.mem_pair.1 hrest with rfl | rfl
      · exact ⟨.msg, rfl, by decide⟩
      · exact ⟨.stop, rfl, by decide⟩
  apply resolve_eq_self
  · intro ins hins
    obtain ⟨op, hname, -⟩ := hops ins hins
    rw [Instruction.isLabel, hname]
    cases op <;> decide
  · intro ins hins hmem
    obtain ⟨op, hname, hoperands⟩ := hops ins hins
    rw [hname, InstructionSet.mem_addressMnemonics_standard_iff] at hmem
    exact absurd hmem hoperands

/-- **What the source reads as**, with a line break behind its last line or without. -/
theorem assemble_source (assignment : Assignment) (parts : List (MessagePart assignment)) :
    assemble (assignment.source parts) = .ok (assignment.program parts)
      ∧ assemble (assignment.source parts ++ "\n") = .ok (assignment.program parts) := by
  have hne : assignment.lines parts ≠ [] :=
    List.append_ne_nil_of_right_ne_nil _ (List.cons_ne_nil _ _)
  have hlast : assignment.source parts ++ "\n"
      = String.intercalate "\n" (assignment.lines parts ++ [""]) := by
    rw [String.intercalate_append_of_ne_nil hne (List.cons_ne_nil _ _),
      String.intercalate_singleton, String.append_empty]
    rfl
  have hlines : ∀ line ∈ assignment.lines parts ++ [""], '\n' ∉ line.toList := by
    intro line hline
    rcases List.mem_append.1 hline with hline | hempty
    · exact newline_not_mem_lines line hline
    · rw [List.mem_singleton.1 hempty]
      decide
  have hempty : [""].filterMap Instruction.ofLine? = [] := rfl
  constructor
  · rw [assemble, Assignment.source, ofSource_intercalate hne newline_not_mem_lines,
      filterMap_lines, resolve_program]
  · rw [assemble, hlast, ofSource_intercalate (List.append_ne_nil_of_left_ne_nil hne _) hlines,
      List.filterMap_append, filterMap_lines, hempty, List.append_nil, resolve_program]

end Assignment

end Reading

/-! ### Registers -/

namespace RegisterFile

/-- Write values to registers, one after another. -/
def writeAll (file : RegisterFile) (entries : List (String × Int32)) : RegisterFile :=
  entries.foldl (fun file entry => file.write entry.1 entry.2) file

theorem writeAll_concat (file : RegisterFile) (entries : List (String × Int32))
    (entry : String × Int32) :
    writeAll file (entries ++ [entry]) = (writeAll file entries).write entry.1 entry.2 := by
  rw [writeAll, List.foldl_append]
  rfl

/-- Registers that are not written keep what they have. -/
theorem get?_writeAll_of_forall_ne {file : RegisterFile} {entries : List (String × Int32)}
    {name : String} (h : ∀ entry ∈ entries, key name ≠ key entry.1) :
    (writeAll file entries).get? name = file.get? name := by
  induction entries generalizing file with
  | nil => rfl
  | cons entry rest ih =>
    obtain ⟨hentry, hrest⟩ := List.forall_mem_cons.1 h
    show (writeAll (file.write entry.1 entry.2) rest).get? name = file.get? name
    rw [ih hrest, get?_write, if_neg hentry]

/-- **A register that is written once has the value that was written.** -/
theorem get?_writeAll {file : RegisterFile} {entries : List (String × Int32)} {name other : String}
    {value : Int32} (hmem : (name, value) ∈ entries)
    (hdistinct : entries.Pairwise fun a b => key a.1 ≠ key b.1)
    (hkey : key other = key name) :
    (writeAll file entries).get? other = some value := by
  induction entries generalizing file with
  | nil => exact absurd hmem List.not_mem_nil
  | cons entry rest ih =>
    obtain ⟨hfirst, hrest⟩ := List.pairwise_cons.1 hdistinct
    show (writeAll (file.write entry.1 entry.2) rest).get? other = some value
    rcases List.mem_cons.1 hmem with rfl | hmem
    · have hne : ∀ later ∈ rest, key other ≠ key later.1 := by
        intro later hlater
        rw [hkey]
        exact hfirst later hlater
      rw [get?_writeAll_of_forall_ne hne, get?_write, if_pos hkey]
    · exact ih hmem hrest

end RegisterFile

/-! ### The run -/

section Run

variable {m : Machine} {assignment : Assignment} {parts : List (MessagePart assignment)}

theorem IsPlain.operand_eq_ok {ins : Instruction} {op : Operation} {index : Nat} {token : String}
    (h : IsPlain token) (hparam : ins.param? index = some token) :
    operand ins op index = .ok token :=
  operand_of_ne_empty h.ne_empty hparam

/-- A text in apostrophes is said as it is. -/
theorem messagePart_quoted (m : Machine) (s : String) :
    m.messagePart ("'" ++ s ++ "'") = .ok s := by
  unfold Machine.messagePart
  rw [toList_quoted]
  show (if (s.toList ++ ['\'']).getLast? = some '\'' then
    Except.ok (String.ofList (s.toList ++ ['\'']).dropLast) else .ok "") = .ok s
  rw [List.getLast?_concat, if_pos rfl, List.dropLast_concat, String.ofList_toList]

/-- For a register its value is said. -/
theorem messagePart_of_get? {token : String} {value : Int32} (h : IsPlain token)
    (hvalue : m.registers.get? token = some value) :
    m.messagePart token = .ok (toString value.toInt) := by
  have hread : m.registers.read token = .ok value := by
    rw [RegisterFile.read, hvalue]
  have hstripped : (token.toList.reverse.dropWhile (· = '\'')).reverse = token.toList := by
    have hreverse : token.toList.reverse.dropWhile (· = '\'') = token.toList.reverse := by
      refine List.dropWhile_eq_self_iff.2 ?_
      intro hpos happostrophe
      have hmem := List.mem_reverse.1 (List.getElem_mem hpos)
      exact h.ne_apostrophe _ hmem (of_decide_eq_true happostrophe)
    rw [hreverse, List.reverse_reverse]
  unfold Machine.messagePart
  split
  · next quoted hchars =>
    have hmem : '\'' ∈ token.toList := by
      rw [hchars]
      exact List.mem_cons_self
    exact absurd rfl (h.ne_apostrophe '\'' hmem)
  · rw [hstripped, String.ofList_toList]
    show (m.registers.read token >>= fun value => Except.ok (toString value.toInt)) = _
    rw [hread]
    rfl

/-- **Each part is said as it is meant**, once all registers are written. -/
theorem MessagePart.messagePart_written (part : MessagePart assignment)
    (hregisters : m.registers = .writeAll .empty assignment.entries) :
    m.messagePart part.written = .ok part.meaning := by
  cases part with
  | text s happostrophe hnewline => exact messagePart_quoted m s
  | register name value hentry spelling hspelling =>
    have hname := Assignment.isPlain hentry
    have hplain := hname.of_toLower_eq hspelling
    have hkey : RegisterFile.key spelling = RegisterFile.key name := by
      rw [key_eq_toLower hplain, key_eq_toLower hname, hspelling]
    have hdistinct : assignment.entries.Pairwise fun a b =>
        RegisterFile.key a.1 ≠ RegisterFile.key b.1 := by
      refine assignment.distinct.imp_of_mem ?_
      intro a b ha hb hne
      rw [key_eq_toLower (Assignment.isPlain ha), key_eq_toLower (Assignment.isPlain hb)]
      exact hne
    apply messagePart_of_get? hplain
    rw [hregisters]
    exact RegisterFile.get?_writeAll hentry hdistinct hkey

theorem message_written (parts : List (MessagePart assignment))
    (hregisters : m.registers = .writeAll .empty assignment.entries) :
    m.message (parts.map MessagePart.written)
      = .ok (String.join (parts.map MessagePart.meaning)) := by
  refine message_eq_ok_iff.2 ⟨_, ?_, rfl⟩
  rw [List.forall₂_map_left_iff, List.forall₂_map_right_iff, List.forall₂_same]
  intro part _
  exact part.messagePart_written hregisters

namespace Assignment

theorem effect_moveOf {entry : String × Int32} (h : entry ∈ assignment.entries) (m : Machine) :
    effect (moveOf entry) .mov m
      = .ok (.next, { m with registers := m.registers.write entry.1 entry.2 }) :=
  effect_mov ((isPlain h).operand_eq_ok rfl)
    ((isPlain_toString entry.2.toInt).operand_eq_ok rfl)
    (Machine.value_of_int32? (int32?_toString entry.2) m)

/-- The machine behind the first moves. -/
def movedBy (assignment : Assignment) (settings : Settings) (n : Nat) : Machine :=
  { Machine.fresh settings with
    ip := n
    registers := .writeAll .empty (assignment.entries.take n) }

/-- The machine behind the message. -/
def said (assignment : Assignment) (settings : Settings)
    (parts : List (MessagePart assignment)) : Machine :=
  { assignment.movedBy settings assignment.entries.length with
    ip := assignment.entries.length + 1
    output := some (String.join (parts.map MessagePart.meaning)) }

theorem length_program :
    (assignment.program parts).length = assignment.entries.length + 2 := by
  rw [Assignment.program, List.length_append, List.length_map]
  rfl

theorem statusAt_program {n : Nat} (hn : n < assignment.entries.length + 2) :
    statusAt (assignment.program parts) n = .running := by
  rw [statusAt, length_program, if_pos hn]

/-- One of the moves. -/
theorem step_move (settings : Settings) {n : Nat} (hn : n < assignment.entries.length) :
    (Processor.standard.step (assignment.program parts)).on (assignment.movedBy settings n)
      = (.ok .running, assignment.movedBy settings (n + 1)) := by
  have hget : (assignment.program parts)[n]? = some (moveOf assignment.entries[n]) := by
    rw [Assignment.program, List.getElem?_append_left (by rwa [List.length_map]), List.getElem?_map,
      List.getElem?_eq_getElem hn, Option.map_some]
  have hstep := step_next (m := assignment.movedBy settings n) (Processor.fetch_standard hget)
    (effect_moveOf (List.getElem_mem hn) (assignment.movedBy settings n))
  have hregisters : (assignment.movedBy settings (n + 1)).registers
      = (assignment.movedBy settings n).registers.write assignment.entries[n].1
          assignment.entries[n].2 := by
    show RegisterFile.writeAll .empty (assignment.entries.take (n + 1)) = _
    rw [List.take_succ_eq_append_getElem hn, RegisterFile.writeAll_concat]
    rfl
  rw [hstep, ← hregisters]
  show (Except.ok (statusAt (assignment.program parts) (n + 1)), _) = _
  rw [statusAt_program (by omega)]
  rfl

variable (parts)

/-- The message behind the moves. -/
theorem step_message (settings : Settings) :
    (Processor.standard.step (assignment.program parts)).on
        (assignment.movedBy settings assignment.entries.length)
      = (.ok .running, assignment.said settings parts) := by
  have hget : (assignment.program parts)[assignment.entries.length]?
      = some ⟨Operation.msg.mnemonic, parts.map MessagePart.written⟩ := by
    rw [Assignment.program, List.getElem?_append_right (by rw [List.length_map]), List.length_map,
      Nat.sub_self, List.getElem?_cons_zero]
  have hmessage := message_written (m := assignment.movedBy settings assignment.entries.length)
    parts (by rw [Assignment.movedBy, List.take_length])
  have heffect : effect ⟨Operation.msg.mnemonic, parts.map MessagePart.written⟩ .msg
      (assignment.movedBy settings assignment.entries.length) = .ok (.next, _) :=
    effect_msg_eq_ok_iff.2 ⟨_, hmessage, rfl, rfl⟩
  rw [step_next (Processor.fetch_standard hget) heffect]
  show (Except.ok (statusAt (assignment.program parts) (assignment.entries.length + 1)), _) = _
  rw [statusAt_program (by omega)]
  rfl

/-- The end behind the message. -/
theorem step_end (settings : Settings) :
    (Processor.standard.step (assignment.program parts)).on (assignment.said settings parts)
      = (.ok .ended, assignment.said settings parts) := by
  have hget : (assignment.program parts)[(assignment.said settings parts).ip]?
      = some ⟨Operation.stop.mnemonic, []⟩ := by
    show (assignment.program parts)[assignment.entries.length + 1]? = _
    rw [Assignment.program, List.getElem?_append_right (by rw [List.length_map]; omega),
      List.length_map, Nat.add_sub_cancel_left]
    rfl
  rw [step_standard (Processor.fetch_standard hget)]
  rfl

theorem machineAt_program (settings : Settings) {n : Nat} (hn : n ≤ assignment.entries.length) :
    Processor.standard.machineAt (assignment.program parts) (.fresh settings) n
      = assignment.movedBy settings n := by
  induction n with
  | zero => rfl
  | succ n ih => rw [Processor.machineAt_succ, ih (by omega), step_move settings (by omega)]

/-- **What the machine does with the program**: it moves every value to its register, says the
message, and ends. -/
theorem haltsAt_program (settings : Settings) :
    Processor.standard.HaltsAt (assignment.program parts) (.fresh settings)
        (assignment.entries.length + 1)
      ∧ Processor.standard.resultAt (assignment.program parts) (.fresh settings)
        (assignment.entries.length + 1) = .ok .ended
      ∧ (Processor.standard.machineAt (assignment.program parts) (.fresh settings)
        (assignment.entries.length + 2)).output
          = some (String.join (parts.map MessagePart.meaning)) := by
  have hsaid := step_message parts settings
  rw [← machineAt_program parts settings (Nat.le_refl _)] at hsaid
  have hended := step_end parts settings
  have hafter : Processor.standard.machineAt (assignment.program parts) (.fresh settings)
      (assignment.entries.length + 1) = assignment.said settings parts := by
    rw [Processor.machineAt_succ, hsaid]
  have hresult : Processor.standard.resultAt (assignment.program parts) (.fresh settings)
      (assignment.entries.length + 1) = .ok .ended := by
    rw [Processor.resultAt, hafter, hended]
  refine ⟨⟨?_, ?_⟩, hresult, ?_⟩
  · intro i hi
    rcases Nat.lt_succ_iff_lt_or_eq.1 hi with hlt | rfl
    · rw [Processor.resultAt, machineAt_program parts settings (Nat.le_of_lt hlt),
        step_move settings hlt]
    · rw [Processor.resultAt, hsaid]
  · rw [hresult]
    intro h
    cases h
  · rw [Processor.machineAt_succ, hafter, hended]
    rfl

end Assignment

end Run

/-- **Texts and values survive the whole way from source to output.**  Whatever the settings, as
long as they allow all the steps, the output is what the parts mean, one after the other.  A line
break behind the last line makes no difference. -/
theorem interpret_source (assignment : Assignment) (parts : List (MessagePart assignment))
    (settings : Settings) (hallows : settings.Allows (assignment.entries.length + 2))
    (patience : Nat) :
    interpret patience settings (assignment.source parts)
        = (if assignment.entries.length + 1 < patience then
            some (.ok (some (String.join (parts.map MessagePart.meaning)))) else none)
      ∧ interpret patience settings (assignment.source parts ++ "\n")
        = interpret patience settings (assignment.source parts) := by
  have hp : Processor.standard.IgnoresSettings (assignment.program parts) :=
    ignoresSettings .standard _
  obtain ⟨hread, hreadLine⟩ := assignment.assemble_source parts
  obtain ⟨hhalts, hended, houtput⟩ := Assignment.haltsAt_program parts settings
  have hrun := Processor.run_of_haltsAt (m := .fresh settings) hp hhalts hallows patience
  rw [Machine.reset_fresh, hended, houtput] at hrun
  constructor
  · unfold interpret
    simp only [hread]
    rw [hrun]
    by_cases hpatience : assignment.entries.length + 1 < patience
    · rw [if_pos hpatience, if_pos hpatience]
      rfl
    · rw [if_neg hpatience, if_neg hpatience]
      rfl
  · unfold interpret
    simp only [hread, hreadLine]

/-- The least value and a small one. -/
def sampleAssignment : Assignment where
  entries := [("low", -2147483648), ("Count_2", 7)]
  identifier := by decide +kernel
  ascii := by decide +kernel
  distinct := by
    rw [List.pairwise_pair, Ne, toLower_eq_iff]
    decide +kernel

/-- Signs, blanks and capitals in texts, a text without characters, and a name in other letter
case. -/
def sampleParts : List (MessagePart sampleAssignment) :=
  [.text " A; b,\r: " (by decide) (by decide),
    .register "Count_2" 7 (List.mem_cons_of_mem _ List.mem_cons_self) "cOUNT_2"
      (toLower_eq_iff.2 (by decide +kernel)),
    .text "" (by decide) (by decide),
    .register "low" (-2147483648) List.mem_cons_self "low" rfl]

/-- The sample is written in four lines and interpreted to its texts and values. -/
theorem interpret_source_sample :
    Settings.Allows {} (sampleAssignment.entries.length + 2)
      ∧ sampleAssignment.source sampleParts
        = "mov low, -2147483648\nmov Count_2, 7\nmsg ' A; b,\r: ', cOUNT_2, '', low\nend"
      ∧ interpret 4 {} (sampleAssignment.source sampleParts)
        = some (.ok (some " A; b,\r: 7-2147483648")) := by
  have hallows : Settings.Allows {} (sampleAssignment.entries.length + 2) :=
    Settings.allows_of_unlimited rfl _
  have hsource : sampleAssignment.source sampleParts
      = "mov low, -2147483648\nmov Count_2, 7\nmsg ' A; b,\r: ', cOUNT_2, '', low\nend" := by
    decide +kernel
  have hmeaning : String.join (sampleParts.map MessagePart.meaning) = " A; b,\r: 7-2147483648" := by
    decide +kernel
  obtain ⟨hanswer, -⟩ := interpret_source sampleAssignment sampleParts {} hallows 4
  rw [hmeaning, if_pos (by decide)] at hanswer
  exact ⟨hallows, hsource, hanswer⟩

end PseudoAsm

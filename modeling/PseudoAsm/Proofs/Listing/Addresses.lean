import PseudoAsm.Listing
import PseudoAsm.Proofs.Line.Rendering
import PseudoAsm.Proofs.Resolution.Shift

/-!
# Addresses in listings

A listing counts its own addresses, from the top and without the label definitions, and resolution
counts them anew for the label table and for the errors.  All these countings agree, and they do so
in the text: a reader who knows no more of a listing than its lines finds under each number the
instruction that resolution puts there, and behind the line of a label the address that the label
stands for.

* `linesOf`, `numberedLine?`, `addressOn?`, `lineDefines` — reading a listing;
* `Instruction.lineAt` — the line of one instruction, and what a reader finds on it;
* `Program.Printable` — programs without line breaks, as program text gives them;
* `ShownAs`, `Program.ShownBy` — what it means that a text shows a program;
* `Program.Printable.shownBy` — **every listing of such a program shows it**;
* `listing_addresses_resolved` — **the numbers of an unresolved listing are the addresses of the
  resolved program**, and the number behind a label's line is what the label becomes.
-/

namespace PseudoAsm

/-! ### Reading a listing -/

/-- The lines of a text in which every line is ended by a line break. -/
def linesOf (text : String) : List String :=
  (text.toList.splitOn '\n').dropLast.map String.ofList

/-- The address of a numbered line and what it shows: a number behind blanks, a colon, two blanks,
and the rest of the line. -/
def numberedLine? (line : String) : Option (Nat × String) :=
  let column := line.toList.dropWhile (· == ' ')
  match column.dropWhile Char.isDigit with
  | ':' :: ' ' :: ' ' :: shown =>
    (Numeral.digits? (column.takeWhile Char.isDigit)).map fun address =>
      (address, String.ofList shown)
  | _ => none

/-- The address of a numbered line. -/
def addressOn? (line : String) : Option Nat :=
  (numberedLine? line).map Prod.fst

/-- Whether a line without a number defines the label with a name, whatever the letter case. -/
def lineDefines (name line : String) : Bool :=
  (addressOn? line).isNone && Instruction.defines ⟨line, []⟩ name

/-- The lines of a text are those that it was put together of. -/
theorem linesOf_join {lines : List String} (h : ∀ line ∈ lines, '\n' ∉ line.toList) :
    linesOf (String.join (lines.map (· ++ "\n"))) = lines := by
  have hsplit : (String.join (lines.map (· ++ "\n"))).toList.splitOn '\n'
      = lines.map String.toList ++ [[]] := by
    induction lines with
    | nil => rfl
    | cons line rest ih =>
      obtain ⟨hline, hrest⟩ := List.forall_mem_cons.1 h
      have hfirst : (String.join ((line :: rest).map (· ++ "\n"))).toList
          = line.toList ++ '\n' :: (String.join (rest.map (· ++ "\n"))).toList := by
        rw [List.map_cons, String.join_cons, String.toList_append, String.toList_append,
          List.append_assoc]
        rfl
      rw [hfirst, List.splitOn_append_cons_self_of_not_mem hline, ih hrest]
      rfl
  have hback : String.ofList ∘ String.toList = id := by
    funext line
    exact String.ofList_toList
  rw [linesOf, hsplit, List.dropLast_concat, List.map_map, hback, List.map_id]

/-! ### Numbers in a column -/

theorem newline_not_mem_toString (n : Nat) : '\n' ∉ (toString n).toList := by
  rw [Nat.toString_eq_repr, Nat.toList_repr]
  intro hmem
  exact absurd (List.all_eq_true.1 (Numeral.all_isDigit_toDigits n) _ hmem) (by decide)

/-- An aligned number with a colon and two blanks is read together with what follows. -/
theorem numberedLine?_alignRight (width address : Nat) (shown : String) :
    numberedLine? (Text.alignRight width (toString address) ++ ":  " ++ shown)
      = some (address, shown) := by
  have hdigits : ∀ c ∈ Nat.toDigits 10 address, c.isDigit = true :=
    List.all_eq_true.1 (Numeral.all_isDigit_toDigits address)
  have hline : (Text.alignRight width (toString address) ++ ":  " ++ shown).toList
      = List.replicate (width - (toString address).length) ' '
        ++ (Nat.toDigits 10 address ++ ':' :: ' ' :: ' ' :: shown.toList) := by
    rw [String.toList_append, String.toList_append, Text.toList_alignRight,
      Nat.toString_eq_repr, Nat.toList_repr, List.append_assoc, List.append_assoc]
    rfl
  have hcolumn : ((Text.alignRight width (toString address) ++ ":  " ++ shown).toList.dropWhile
        (· == ' '))
      = Nat.toDigits 10 address ++ ':' :: ' ' :: ' ' :: shown.toList := by
    rw [hline, List.dropWhile_append_of_pos]
    · obtain ⟨c, others, hcons⟩ := List.exists_cons_of_ne_nil (Nat.toDigits_ne_nil (b := 10)
        (n := address))
      rw [hcons, List.cons_append, List.dropWhile_cons_of_neg]
      have hc : c.isDigit = true := hdigits c (hcons ▸ List.mem_cons_self)
      rw [beq_iff_eq]
      rintro rfl
      exact absurd hc (by decide)
    · intro c hc
      rw [List.eq_of_mem_replicate hc]
      rfl
  have hcolon : ¬Char.isDigit ':' = true := by decide
  simp only [numberedLine?]
  rw [hcolumn, List.dropWhile_append_of_pos hdigits, List.takeWhile_append_of_pos hdigits,
    List.dropWhile_cons_of_neg hcolon, List.takeWhile_cons_of_neg hcolon, List.append_nil,
    Numeral.digits?_toDigits]
  simp only [Option.map_some, String.ofList_toList]

/-- A line without a blank is not numbered. -/
theorem numberedLine?_eq_none {line : String} (h : ' ' ∉ line.toList) :
    numberedLine? line = none := by
  simp only [numberedLine?]
  split
  · next shown heq =>
    have hdropped : ' ' ∈ (line.toList.dropWhile (· == ' ')).dropWhile Char.isDigit := by
      rw [heq]
      exact List.mem_cons_of_mem _ List.mem_cons_self
    exact absurd ((List.dropWhile_sublist _).subset ((List.dropWhile_sublist _).subset hdropped)) h
  · rfl

/-- A number that is small enough fits the column that a listing leaves for its addresses. -/
theorem length_toString_le_addressWidth {program : Program} {address : Nat}
    (h : address ≤ program.length) : (toString address).length ≤ program.addressWidth := by
  have hpos : 0 < program.addressWidth := by
    rw [Program.addressWidth]
    exact Nat.length_repr_pos
  have hbound : max program.length 1 < 10 ^ program.addressWidth :=
    (Nat.length_repr_le_iff hpos).1 (Nat.le_refl (toString (max program.length 1)).length)
  exact (Nat.length_repr_le_iff hpos).2 (by omega)

/-! ### The line of an instruction -/

namespace LineGrammar.OneLine

variable {ins : Instruction} (h : OneLine ins)

include h

theorem newline_not_mem_param {index : Nat} {param : String}
    (hparam : ins.param? index = some param) : '\n' ∉ param.toList :=
  h.params param (List.mem_of_getElem? hparam)

theorem newline_not_mem_listedTarget : '\n' ∉ ins.listedTarget.toList := by
  unfold Instruction.listedTarget
  split
  · next target hparam =>
    split
    · simp only [String.toList_append, List.mem_append, h.name, h.newline_not_mem_param hparam,
        or_false, false_or]
      decide
    · exact h.newline_not_mem_text
  · exact h.newline_not_mem_text

theorem newline_not_mem_listedOffset : '\n' ∉ ins.listedOffset.toList := by
  unfold Instruction.listedOffset
  split
  · next value offset hvalue hoffset =>
    split
    · exact h.newline_not_mem_text
    · simp only [String.toList_append, List.mem_append, h.name, h.newline_not_mem_param hvalue,
        h.newline_not_mem_param hoffset, or_false, false_or]
      decide
  · exact h.newline_not_mem_text

theorem newline_not_mem_listed : '\n' ∉ ins.listed.toList := by
  unfold Instruction.listed
  split
  · split
    · exact h.name
    · rw [String.toList_append, List.mem_append, not_or]
      exact ⟨h.newline_not_mem_text, by decide⟩
  · split
    · exact h.newline_not_mem_listedTarget
    · exact h.newline_not_mem_listedOffset
    · exact h.newline_not_mem_text

end LineGrammar.OneLine

theorem LineGrammar.OneLine.withTarget {ins : Instruction} (h : OneLine ins) (address : Nat) :
    OneLine (ins.withTarget (toString address)) := by
  refine ⟨h.name, ?_⟩
  intro param hparam
  rcases List.mem_cons.1 hparam with rfl | hparam
  · exact newline_not_mem_toString address
  · exact h.params param (List.mem_of_mem_tail hparam)

open LineGrammar

/-- The line that shows an instruction: its name if it is a label definition, otherwise the form
that listings give it, behind the address in a column. -/
def Instruction.lineAt (width address : Nat) (ins : Instruction) : String :=
  if ins.isLabel then ins.name
  else Text.alignRight width (toString address) ++ ":  " ++ ins.listed

/-- What a program has to be like for its listing to be readable: no line break within an
instruction, and no blank within the name of a label. -/
def Program.Printable (program : Program) : Prop :=
  ∀ ins ∈ program, OneLine ins ∧ (ins.isLabel = true → ' ' ∉ ins.name.toList)

namespace Instruction

variable {width address : Nat} {ins : Instruction}

theorem newline_not_mem_lineAt (h : OneLine ins) : '\n' ∉ (ins.lineAt width address).toList := by
  unfold lineAt
  split
  · exact h.name
  · have hblanks : '\n' ∉ List.replicate (width - (toString address).length) ' ' := by
      intro hmem
      exact absurd (List.eq_of_mem_replicate hmem) (by decide)
    simp only [String.toList_append, Text.toList_alignRight, List.mem_append, hblanks,
      newline_not_mem_toString address, h.newline_not_mem_listed, or_false, false_or]
    decide

theorem numberedLine?_lineAt_label (hlabel : ins.isLabel = true) (h : ' ' ∉ ins.name.toList) :
    numberedLine? (ins.lineAt width address) = none := by
  rw [lineAt, if_pos hlabel]
  exact numberedLine?_eq_none h

theorem numberedLine?_lineAt_code (hcode : ins.isLabel = false) :
    numberedLine? (ins.lineAt width address) = some (address, ins.listed) := by
  rw [lineAt, if_neg (by rw [hcode]; exact Bool.false_ne_true)]
  exact numberedLine?_alignRight width address ins.listed

/-- The line of an instruction defines the labels that the instruction defines. -/
theorem lineDefines_lineAt (h : ins.isLabel = true → ' ' ∉ ins.name.toList) (name : String) :
    lineDefines name (ins.lineAt width address) = ins.defines name := by
  cases hlabel : ins.isLabel with
  | true =>
    rw [lineDefines, addressOn?, numberedLine?_lineAt_label hlabel (h hlabel), lineAt,
      if_pos hlabel]
    rfl
  | false =>
    have hdefines : ins.defines name = false := by
      rw [defines, labelName?_eq_none_iff.2 hlabel]
      rfl
    rw [lineDefines, addressOn?, numberedLine?_lineAt_code hlabel, hdefines]
    rfl

end Instruction

/-! ### Whole listings -/

theorem listingFrom_cons (width address : Nat) (ins : Instruction) (rest : Program) :
    listingFrom width address (ins :: rest)
      = ins.lineAt width address
        :: listingFrom width (if ins.isLabel then address else address + 1) rest := by
  rw [listingFrom, Instruction.lineAt]
  cases ins.isLabel with
  | true => rfl
  | false => rfl

/-- From a position on, a listing is that of the rest of the program, the addresses going on. -/
theorem drop_listingFrom (width address position : Nat) (program : Program) :
    (listingFrom width address program).drop position
      = listingFrom width (address + program.addressAt position) (program.drop position) := by
  induction program generalizing address position with
  | nil => rw [List.drop_nil, listingFrom, List.drop_nil, listingFrom]
  | cons ins rest ih =>
    cases position with
    | zero => rw [List.drop_zero, List.drop_zero, Program.addressAt_zero, Nat.add_zero]
    | succ position =>
      rw [listingFrom_cons, List.drop_succ_cons, List.drop_succ_cons, ih]
      cases hlabel : ins.isLabel with
      | true => rw [if_pos rfl, Program.addressAt_succ_label hlabel]
      | false =>
        rw [if_neg Bool.false_ne_true, Program.addressAt_succ_code hlabel, Nat.add_assoc,
          Nat.add_comm 1]

/-- An instruction is listed at its address. -/
theorem getElem?_listingFrom {width address position : Nat} {program : Program} {ins : Instruction}
    (hins : program[position]? = some ins) :
    (listingFrom width address program)[position]?
      = some (ins.lineAt width (address + program.addressAt position)) := by
  obtain ⟨hlt, hget⟩ := List.getElem?_eq_some_iff.1 hins
  rw [← List.head?_drop, drop_listingFrom, List.drop_eq_getElem_cons hlt, hget, listingFrom_cons]
  rfl

/-- How a listing shows an instruction in a column of some width. -/
inductive ShownAs (width : Nat) (ins : Instruction) : String → Prop
  /-- A label definition stands flush left, and has no number. -/
  | label (hlabel : ins.isLabel = true) (hnumber : addressOn? ins.name = none) :
      ShownAs width ins ins.name
  /-- Any other instruction stands behind a number at the right edge of the column. -/
  | numbered (address : Nat) (hcode : ins.isLabel = false)
      (hfits : (toString address).length ≤ width) :
      ShownAs width ins (Text.alignRight width (toString address) ++ ":  " ++ ins.listed)

namespace Program.Printable

variable {width address : Nat} {program : Program}

theorem newline_not_mem (h : program.Printable) :
    ∀ line ∈ listingFrom width address program, '\n' ∉ line.toList := by
  induction program generalizing address with
  | nil =>
    intro line hline
    exact absurd hline List.not_mem_nil
  | cons ins rest ih =>
    obtain ⟨⟨hins, -⟩, hrest⟩ := List.forall_mem_cons.1 h
    rw [listingFrom_cons, List.forall_mem_cons]
    exact ⟨ins.newline_not_mem_lineAt hins, ih hrest⟩

/-- The lines of a listing are those that it was made of. -/
theorem linesOf_listing (h : program.Printable) : linesOf program.listing = program.listingLines :=
  linesOf_join h.newline_not_mem

/-- The numbered lines show the body, under consecutive numbers. -/
theorem filterMap_numberedLine? (h : program.Printable) :
    (listingFrom width address program).filterMap numberedLine?
      = program.body.mapIdx fun k ins => (address + k, ins.listed) := by
  induction program generalizing address with
  | nil => rfl
  | cons ins rest ih =>
    obtain ⟨⟨-, hins⟩, hrest⟩ := List.forall_mem_cons.1 h
    rw [listingFrom_cons, List.filterMap_cons, ih hrest]
    cases hlabel : ins.isLabel with
    | true =>
      rw [Instruction.numberedLine?_lineAt_label hlabel (hins hlabel), if_pos rfl,
        Program.body_cons_label hlabel]
    | false =>
      rw [Instruction.numberedLine?_lineAt_code hlabel, if_neg Bool.false_ne_true,
        Program.body_cons_code hlabel, List.mapIdx_cons]
      simp only [Nat.add_zero, Nat.add_assoc, Nat.add_comm 1]

/-- The first number of a listing is its first address, if there is an instruction at all. -/
theorem findSome?_addressOn? (h : program.Printable) :
    (listingFrom width address program).findSome? addressOn?
      = if program.body = [] then none else some address := by
  have hnumbers : (listingFrom width address program).filterMap addressOn?
      = ((listingFrom width address program).filterMap numberedLine?).map Prod.fst :=
    List.map_filterMap.symm
  rw [← List.head?_filterMap, hnumbers, h.filterMap_numberedLine?, List.head?_map,
    List.head?_mapIdx]
  cases hbody : program.body with
  | nil => rfl
  | cons ins rest =>
    rw [if_neg (List.cons_ne_nil ins rest)]
    rfl

/-- The line that defines a label stands where the program defines it. -/
theorem findIdx?_lineDefines (h : program.Printable) (name : String) :
    (listingFrom width address program).findIdx? (lineDefines name) = program.definition? name := by
  induction program generalizing address with
  | nil => rfl
  | cons ins rest ih =>
    obtain ⟨⟨-, hins⟩, hrest⟩ := List.forall_mem_cons.1 h
    rw [listingFrom_cons, List.findIdx?_cons, Instruction.lineDefines_lineAt hins, ih hrest,
      Program.definition?, Program.definition?, List.findIdx?_cons]

theorem drop (h : program.Printable) (position : Nat) : Printable (program.drop position) := by
  intro ins hins
  exact h ins (List.mem_of_mem_drop hins)

/-- In a column that is wide enough every instruction is shown as it should be. -/
theorem forall₂_shownAs (h : program.Printable)
    (hfits : ∀ k < address + program.body.length, (toString k).length ≤ width) :
    List.Forall₂ (ShownAs width) program (listingFrom width address program) := by
  induction program generalizing address with
  | nil => exact .nil
  | cons ins rest ih =>
    obtain ⟨⟨-, hins⟩, hrest⟩ := List.forall_mem_cons.1 h
    rw [listingFrom_cons]
    cases hlabel : ins.isLabel with
    | true =>
      rw [Program.body_cons_label hlabel] at hfits
      have hnumber : addressOn? ins.name = none := by
        rw [addressOn?, numberedLine?_eq_none (hins hlabel)]
        rfl
      rw [Instruction.lineAt, if_pos hlabel, if_pos rfl]
      exact .cons (.label hlabel hnumber) (ih hrest hfits)
    | false =>
      rw [Program.body_cons_code hlabel, List.length_cons] at hfits
      rw [Instruction.lineAt, hlabel, if_neg Bool.false_ne_true, if_neg Bool.false_ne_true]
      refine .cons (.numbered address hlabel (hfits address (by omega))) (ih hrest ?_)
      intro k hk
      exact hfits k (by omega)

end Program.Printable

/-- What a text has to be in order to show a program. -/
structure Program.ShownBy (program : Program) (text : String) : Prop where
  /-- There is one line for each instruction, in order, and one column for all numbers. -/
  lines : ∃ width, List.Forall₂ (ShownAs width) program (linesOf text)
  /-- The numbered lines show the instructions of the body, each under its address. -/
  numbers : (linesOf text).filterMap numberedLine?
    = program.body.mapIdx fun address ins => (address, ins.listed)

/-- **A listing shows its program.** -/
theorem Program.Printable.shownBy {program : Program} (h : program.Printable) :
    program.ShownBy program.listing where
  lines := by
    refine ⟨program.addressWidth, ?_⟩
    rw [h.linesOf_listing]
    refine h.forall₂_shownAs ?_
    intro k hk
    have hbody : program.body.length ≤ program.length := List.length_filter_le _ _
    exact length_toString_le_addressWidth (by omega)
  numbers := by
    rw [h.linesOf_listing, Program.listingLines, h.filterMap_numberedLine?]
    simp only [Nat.zero_add]

/-! ### Programs that were read and resolved -/

theorem printable_ofSource (source : String) : (Program.ofSource source).Printable := by
  intro ins hins
  obtain ⟨line, hline, hread⟩ := exists_line_of_mem_ofSource hins
  refine ⟨oneLine_of_ofChars? hline hread, ?_⟩
  intro _ hmem
  exact absurd ((wasRead_of_ofChars? hread).fields.isBlank_name _ hmem) (by decide)

/-- Resolution writes nothing but numbers into a program, and leaves no labels in it. -/
theorem printable_of_resolve {targeted : List String} {program resolved : Program}
    (hprogram : program.Printable) (h : resolve targeted program = .ok resolved) :
    resolved.Printable := by
  intro out hout
  obtain ⟨-, hcode, -⟩ := resolve_shifts_program h
  obtain ⟨ins, hins, hshifted⟩ := exists_source h hout
  obtain ⟨hline, -⟩ := hprogram ins (List.mem_of_mem_filter hins)
  refine ⟨?_, ?_⟩
  · obtain rfl | ⟨address, rfl⟩ := hshifted.eq_or_eq_withTarget
    · exact hline
    · exact hline.withTarget address
  · intro hlabel
    rw [hcode out hout] at hlabel
    exact absurd hlabel Bool.false_ne_true

/-- An instruction that takes an address is no label definition. -/
theorem isLabel_of_mem_addressMnemonics {ins : Instruction}
    (h : ins.name ∈ InstructionSet.standard.addressMnemonics) : ins.isLabel = false := by
  have hall : ∀ name ∈ InstructionSet.standard.addressMnemonics,
      Instruction.isLabel ⟨name, []⟩ = false := by
    decide
  exact hall ins.name h

/-- Behind the line of a label's first definition stands the address of the label, or nothing if
the address is just past the end. -/
theorem Program.Printable.address_behind_definition {program : Program} (h : program.Printable)
    {name : String} {position : Nat} (hdefinition : program.definition? name = some position) :
    (((linesOf program.listing).drop (position + 1)).findSome? addressOn?).getD
        program.body.length
      = program.addressAt position := by
  obtain ⟨hlt, hdefines, -⟩ := List.findIdx?_eq_some_iff_getElem.1 hdefinition
  have hlabel : program[position].isLabel = true := by
    cases hlabel : program[position].isLabel with
    | true => rfl
    | false =>
      rw [Instruction.defines, Instruction.labelName?_eq_none_iff.2 hlabel] at hdefines
      exact absurd hdefines Bool.false_ne_true
  have hsucc := Program.addressAt_succ_of_isLabel (List.getElem?_eq_getElem hlt) hlabel
  have hrest : program.addressAt (position + 1)
        + (Program.body (program.drop (position + 1))).length
      = program.body.length := Program.addressAt_add_length_body_drop hlt
  rw [h.linesOf_listing, Program.listingLines, drop_listingFrom,
    (h.drop (position + 1)).findSome?_addressOn?, Nat.zero_add, hsucc]
  -- If no instruction follows, all of them stand before the definition, and it is the end.
  split
  · next hnil =>
    rw [hnil, List.length_nil, hsucc] at hrest
    exact hrest.symm
  · rfl

/-- **The numbers of a listing are the addresses of the resolved program.**  If a text resolves, the
listings of what it reads as and of what it resolves to show the same number of instructions under
the same numbers, and the one under a number becomes the other.  A target that names a label becomes
the first number behind the line that defines the label first, or the number of all instructions
if there is none. -/
theorem listing_addresses_resolved (source : String) (resolved : Program)
    (h : assemble source = .ok resolved) :
    (Program.ofSource source).ShownBy (Program.ofSource source).listing
      ∧ resolved.ShownBy resolved.listing
      ∧ resolved.body = resolved
      ∧ List.Forall₂ (Shifted InstructionSet.standard.addressMnemonics (Program.ofSource source))
          (Program.ofSource source).body resolved
      ∧ ∀ (position : Nat) (ins : Instruction) (target : String),
        (Program.ofSource source)[position]? = some ins →
        ins.name ∈ InstructionSet.standard.addressMnemonics →
        ins.param? 0 = some target →
        (∃ definition ∈ Program.ofSource source, definition.defines target = true) →
        ∃ line address,
          (linesOf (Program.ofSource source).listing).findIdx? (lineDefines target) = some line
            ∧ ((linesOf (Program.ofSource source).listing)[position]?).bind addressOn?
              = some address
            ∧ resolved[address]? = some (ins.withTarget (toString
              ((((linesOf (Program.ofSource source).listing).drop (line + 1)).findSome?
                addressOn?).getD resolved.length))) := by
  have hprogram := printable_ofSource source
  obtain ⟨hlength, hcode, hshifted, -⟩ := resolve_shifts_program h
  refine ⟨hprogram.shownBy, (printable_of_resolve hprogram h).shownBy, Program.body_eq_self hcode,
    forall₂_shifted h, ?_⟩
  intro position ins target hins hmem hparam hlabel
  obtain ⟨line, hline⟩ : ∃ line, (Program.ofSource source).definition? target = some line := by
    rw [← Option.isSome_iff_exists, Program.definition?, List.findIdx?_isSome, List.any_eq_true]
    exact hlabel
  have hins_code : ins.isLabel = false := isLabel_of_mem_addressMnemonics hmem
  obtain ⟨out, hout, hins_shifted⟩ := hshifted _ _ (Program.getElem?_body_addressAt hins hins_code)
  refine ⟨line, (Program.ofSource source).addressAt position, ?_, ?_, ?_⟩
  · rw [hprogram.linesOf_listing, Program.listingLines, hprogram.findIdx?_lineDefines, hline]
  · rw [hprogram.linesOf_listing, Program.listingLines, getElem?_listingFrom hins, Nat.zero_add,
      Option.bind_some, addressOn?, Instruction.numberedLine?_lineAt_code hins_code]
    rfl
  · rw [hout, hins_shifted.symbolic target line hmem hparam hline, hlength,
      hprogram.address_behind_definition hline]

/-- A text with a label at the start, one in the middle, and one at the end, named in other letter
case by the instructions around them. -/
def listedSource : String :=
  "again:\ndec a\njne Skip\ncall sub\nskip:\njmp AGAIN\nSub:"

/-- What the text resolves to. -/
def listedResolved : Program :=
  [⟨"dec", ["a"]⟩, ⟨"jne", ["3"]⟩, ⟨"call", ["4"]⟩, ⟨"jmp", ["0"]⟩]

/-- The jump in the third line becomes the number behind the fifth line, which is its label. -/
theorem listing_addresses_resolved_sample :
    assemble listedSource = .ok listedResolved
      ∧ (Program.ofSource listedSource).listing
        = "again:\n0:  dec a\n1:  jne Skip\n2:  call sub\nskip:\n3:  jmp AGAIN\nsub:\n"
      ∧ listedResolved.listing = "0:  dec a\n1:  jne @3\n2:  call @4\n3:  jmp @0\n"
      ∧ (Program.ofSource listedSource).ShownBy (Program.ofSource listedSource).listing
      ∧ ∃ line address,
        (linesOf (Program.ofSource listedSource).listing).findIdx? (lineDefines "Skip") = some line
          ∧ ((linesOf (Program.ofSource listedSource).listing)[2]?).bind addressOn? = some address
          ∧ listedResolved[address]? = some (Instruction.withTarget ⟨"jne", ["Skip"]⟩ (toString
              ((((linesOf (Program.ofSource listedSource).listing).drop (line + 1)).findSome?
                addressOn?).getD listedResolved.length))) := by
  have hassemble : assemble listedSource = .ok listedResolved := by
    decide +kernel
  obtain ⟨hshown, -, -, -, htargets⟩ :=
    listing_addresses_resolved listedSource listedResolved hassemble
  exact ⟨hassemble, by decide +kernel, by decide +kernel, hshown,
    htargets 2 ⟨"jne", ["Skip"]⟩ "Skip" (by decide +kernel) (by decide +kernel) rfl
      ⟨⟨"skip:", []⟩, by decide +kernel, by decide +kernel⟩⟩

end PseudoAsm

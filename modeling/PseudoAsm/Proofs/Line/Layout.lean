import Mathlib.Logic.Relation
import PseudoAsm.Machine.Run
import PseudoAsm.Proofs.Line.Rendering

/-!
# Layout and comments

Blanks around a line, comments behind it, lines without an instruction and the form of the line
ends mean nothing.  For a comment this takes an argument: it may follow a label, a name, a field
that is not complete, an empty one, blanks, or another comment, and what counts is only that no
apostrophe is open there.

* `LineGrammar.scanParams_comment`, `LineGrammar.scanLine_comment` — a comment in every state that
  the scanner can be in;
* `LineGrammar.ofChars?_comment`, `LineGrammar.ofChars?_between_blanks`,
  `LineGrammar.ofChars?_vacant` — what an edited line reads as;
* `TextLine`, `TextLine.textOf` — texts by their lines;
* `LineEdit`, `LayoutEdit` — the edits of a line and of a text;
* `layout_irrelevant` — **a text reads and runs the same after any number of edits**.
-/

namespace PseudoAsm

namespace LineGrammar

/-! ### Open apostrophes -/

/-- Whether an apostrophe is open behind a text depends on their number. -/
theorem quotedAfter_eq_quotedAt (quoted : Bool) (cs : List Char) :
    quotedAfter quoted cs = (quoted ^^ quotedAt cs cs.length) := by
  induction cs generalizing quoted with
  | nil => exact (Bool.xor_false quoted).symm
  | cons c rest ih =>
    show quotedAfter (quoted ^^ c == '\'') rest = _
    rw [ih, List.length_cons, quotedAt_cons_succ, Bool.xor_assoc]

theorem quotedAfter_trimChars (quoted : Bool) (cs : List Char) :
    quotedAfter quoted (Text.trimChars cs) = quotedAfter quoted cs := by
  have hall : Throughout (fun _ => true) quoted cs := by
    intro x _
    rfl
  exact (throughout_trimChars hall).2

/-- Behind a line with an even number of apostrophes none is open, blanks around it or not. -/
theorem quotedAfter_trimChars_of_even {line : List Char} (heven : line.count '\'' % 2 = 0) :
    quotedAfter false (Text.trimChars line) = false := by
  rw [quotedAfter_trimChars, quotedAfter_eq_quotedAt, Bool.false_xor, quotedAt, List.take_length,
    heven]
  rfl

/-! ### Comments -/

theorem ne_of_isBlank {c d : Char} (hc : Text.isBlank c = true) (hd : Text.isBlank d = false) :
    c ≠ d := by
  intro heq
  rw [heq, hd] at hc
  exact absurd hc Bool.false_ne_true

/-- A blank opens no apostrophe. -/
theorem xor_apostrophe_of_isBlank {c : Char} (hc : Text.isBlank c = true) :
    (false ^^ c == '\'') = false := by
  rw [Bool.false_xor]
  exact beq_false_of_ne (ne_apostrophe_of_isBlank hc)

section Comments

variable {blanks : List Char} (hblanks : ∀ c ∈ blanks, Text.isBlank c = true)

include hblanks

/-- Blanks and a comment end the rest of a line if no apostrophe is open. -/
theorem scanParams_blanks_comment (buffer text : List Char) :
    scanParams false buffer (blanks ++ ';' :: text) = lastField buffer := by
  induction blanks with
  | nil => rfl
  | cons c rest ih =>
    obtain ⟨hc, hrest⟩ := List.forall_mem_cons.1 hblanks
    have hcomment : MarkedChar.startsComment ⟨c, false⟩ = false :=
      beq_false_of_ne (ne_of_isBlank hc (by decide))
    have hdropped : MarkedChar.isDropped ⟨c, false⟩ = true := by
      simp only [MarkedChar.isDropped, hc, Bool.true_or, Bool.not_false, Bool.and_self]
    rw [List.cons_append, scanParams_cons, hcomment, if_neg Bool.false_ne_true, hdropped,
      if_pos rfl, xor_apostrophe_of_isBlank hc, ih hrest]

/-- **A comment behind the rest of a line** changes nothing, whatever the scanner has read
before. -/
theorem scanParams_comment {quoted : Bool} {cs : List Char}
    (hclosed : quotedAfter quoted cs = false) (buffer text : List Char) :
    scanParams quoted buffer (cs ++ (blanks ++ ';' :: text)) = scanParams quoted buffer cs := by
  induction cs generalizing quoted buffer with
  | nil =>
    obtain rfl : quoted = false := hclosed
    exact scanParams_blanks_comment hblanks buffer text
  | cons c rest ih =>
    rw [List.cons_append, scanParams_cons, scanParams_cons, ih hclosed, ih hclosed, ih hclosed]

/-- **A comment behind a line** changes nothing.  Blanks before it would end a name that has not
begun, so there must be none then. -/
theorem scanLine_comment {quoted : Bool} {cs buffer : List Char}
    (hclosed : quotedAfter quoted cs = false) (hname : cs.reverse ++ buffer = [] → blanks = [])
    (text : List Char) :
    scanLine quoted buffer (cs ++ (blanks ++ ';' :: text)) = scanLine quoted buffer cs := by
  induction cs generalizing quoted buffer with
  | nil =>
    obtain rfl : quoted = false := hclosed
    show scanLine false buffer (blanks ++ ';' :: text) = lastField buffer
    cases blanks with
    | nil => rfl
    | cons c rest =>
      obtain ⟨hc, hrest⟩ := List.forall_mem_cons.1 hblanks
      have hbuffer : buffer ≠ [] := by
        intro hnil
        exact absurd (hname hnil) (List.cons_ne_nil c rest)
      have hends : MarkedChar.endsName ⟨c, false⟩ = true := by
        simp only [MarkedChar.endsName, hc, Bool.true_or]
      have hcolon : c ≠ ':' := ne_of_isBlank hc (by decide)
      have hsemicolon : c ≠ ';' := ne_of_isBlank hc (by decide)
      -- The first blank ends the name, and the comment stands where the parameters would begin.
      have hparams : scanParams false [] (rest ++ ';' :: text) = [] :=
        scanParams_blanks_comment hrest [] text
      have hlast : lastField buffer = [buffer.reverse] :=
        if_neg (by rw [List.isEmpty_iff]; exact hbuffer)
      rw [List.cons_append, scanLine_cons, hends, if_pos rfl, if_neg hcolon, if_neg hsemicolon,
        xor_apostrophe_of_isBlank hc, hparams, hlast]
  | cons c rest ih =>
    have hbegun : rest.reverse ++ c :: buffer = [] → blanks = [] := by
      intro hnil
      exact absurd hnil (List.append_ne_nil_of_right_ne_nil _ (List.cons_ne_nil c buffer))
    have hrest : quotedAfter (quoted ^^ c == '\'') rest = false := hclosed
    rw [List.cons_append, scanLine_cons, scanLine_cons, scanParams_comment hblanks hrest,
      ih hrest hbegun]

end Comments

/-! ### Edited lines -/

/-- **A comment behind a line without an open apostrophe changes nothing.** -/
theorem ofChars?_comment {line : List Char} (heven : line.count '\'' % 2 = 0) (text : List Char) :
    Instruction.ofChars? (line ++ ';' :: text) = Instruction.ofChars? line := by
  obtain ⟨blanks, hsplit, hblanks⟩ := Text.exists_blanks_after_trimEnd (Text.trimStart line)
  rw [← Text.trimChars] at hsplit
  have htrim : Text.trimChars (line ++ ';' :: text)
      = Text.trimChars line ++ (blanks ++ ';' :: Text.trimEnd text) := by
    rw [Text.trimChars_append_cons (by decide), hsplit, List.append_assoc]
  -- A line of blanks is trimmed away as a whole: what stands before the comment is empty then.
  have hname : (Text.trimChars line).reverse ++ [] = [] → blanks = [] := by
    intro hnil
    rw [List.append_nil, List.reverse_eq_nil_iff] at hnil
    rw [hnil, List.nil_append, Text.trimStart_eq_nil_of_trimChars hnil] at hsplit
    exact hsplit.symm
  rw [ofChars?_eq_ofFields?, ofChars?_eq_ofFields?, htrim,
    scanLine_comment hblanks (quotedAfter_trimChars_of_even heven) hname]

theorem ofChars?_between_blanks {left right : List Char}
    (hleft : ∀ c ∈ left, Text.isBlank c = true) (hright : ∀ c ∈ right, Text.isBlank c = true)
    (line : List Char) :
    Instruction.ofChars? (left ++ (line ++ right)) = Instruction.ofChars? line := by
  rw [ofChars?_eq_ofFields?, ofChars?_eq_ofFields?, Text.trimChars_between_blanks hleft hright]

/-- A line whose first character that is not blank, if any, starts a comment holds no
instruction. -/
theorem ofChars?_vacant {line : List Char}
    (h : ∀ c, (Text.trimStart line).head? = some c → c = ';') :
    Instruction.ofChars? line = none := by
  rw [ofChars?_eq_ofFields?, Text.trimChars]
  cases hstart : Text.trimStart line with
  | nil => rfl
  | cons c rest =>
    obtain rfl : c = ';' := h c (by rw [hstart]; rfl)
    rw [Text.trimEnd_cons (by decide)]
    rfl

end LineGrammar

open LineGrammar

/-! ### Texts by their lines -/

/-- A line of a text. -/
structure TextLine where
  chars : List Char
  newline_not_mem : '\n' ∉ chars

namespace TextLine

/-- The text of some lines, with a line break between any two. -/
def textOf (lines : List TextLine) : String :=
  String.ofList (['\n'].intercalate (lines.map chars))

theorem newline_not_mem_of_mem_map {lines : List TextLine} :
    ∀ cs ∈ lines.map chars, '\n' ∉ cs := by
  intro cs hcs
  obtain ⟨line, -, rfl⟩ := List.mem_map.1 hcs
  exact line.newline_not_mem

/-- A text of lines reads as the instructions on them. -/
theorem ofSource_textOf (lines : List TextLine) :
    Program.ofSource (textOf lines)
      = lines.filterMap fun line => Instruction.ofChars? line.chars := by
  rw [Program.ofSource, textOf, String.toList_ofList]
  cases lines with
  | nil => rfl
  | cons line rest =>
    have hne : (line :: rest).map chars ≠ [] := List.cons_ne_nil line.chars (rest.map chars)
    rw [List.splitOn_intercalate '\n' newline_not_mem_of_mem_map hne, List.filterMap_map]
    rfl

/-- Every text is the text of its lines. -/
theorem exists_textOf (source : String) : ∃ lines, lines ≠ [] ∧ textOf lines = source := by
  have hlift : ∀ pieces : List (List Char), (∀ cs ∈ pieces, '\n' ∉ cs) →
      ∃ lines : List TextLine, lines.map chars = pieces := by
    intro pieces hpieces
    refine ⟨pieces.pmap mk hpieces, ?_⟩
    rw [List.map_pmap, List.pmap_eq_map, List.map_id']
  obtain ⟨lines, hlines⟩ := hlift (source.toList.splitOn '\n')
    fun cs hcs => not_mem_of_mem_splitOn hcs
  refine ⟨lines, ?_, ?_⟩
  · rintro rfl
    exact List.splitOn_ne_nil '\n' source.toList hlines.symm
  · rw [textOf, hlines, List.intercalate_splitOn, String.ofList_toList]

end TextLine

/-! ### Edits -/

/-- A line holds nothing but blanks and a comment. -/
def TextLine.Vacant (line : TextLine) : Prop :=
  ∀ c, (line.chars.dropWhile Text.isBlank).head? = some c → c = ';'

/-- An edit of a line that only its looks depend on. -/
inductive LineEdit (line : TextLine) : TextLine → Prop
  /-- Blanks are put before and behind it. -/
  | blanks {left right : List Char} {edited : TextLine}
      (hleft : ∀ c ∈ left, Text.isBlank c = true) (hright : ∀ c ∈ right, Text.isBlank c = true)
      (hchars : edited.chars = left ++ (line.chars ++ right)) : LineEdit line edited
  /-- A comment is put behind it where no apostrophe is open. -/
  | comment {text : List Char} {edited : TextLine} (heven : line.chars.count '\'' % 2 = 0)
      (hchars : edited.chars = line.chars ++ ';' :: text) : LineEdit line edited

/-- A text with a carriage return before each line break. -/
def withReturns (cs : List Char) : List Char :=
  cs.flatMap fun c => if c = '\n' then ['\r', '\n'] else [c]

theorem withReturns_append (a b : List Char) :
    withReturns (a ++ b) = withReturns a ++ withReturns b :=
  List.flatMap_append

theorem withReturns_eq_self {cs : List Char} (h : '\n' ∉ cs) : withReturns cs = cs := by
  rw [withReturns, List.flatMap_congr (g := fun c => [c]), List.flatMap_singleton']
  intro c hc
  refine if_neg ?_
  rintro rfl
  exact h hc

/-- An edit of a text that only its looks depend on. -/
inductive LayoutEdit : String → String → Prop
  /-- One line is edited. -/
  | line (before after : List TextLine) {line edited : TextLine} (h : LineEdit line edited) :
      LayoutEdit (TextLine.textOf (before ++ line :: after))
        (TextLine.textOf (before ++ edited :: after))
  /-- A line without an instruction is put somewhere among the lines. -/
  | insertion (before after : List TextLine) {line : TextLine} (h : line.Vacant) :
      LayoutEdit (TextLine.textOf (before ++ after)) (TextLine.textOf (before ++ line :: after))
  /-- Every line break is preceded by a carriage return. -/
  | returns (source : String) : LayoutEdit source (String.ofList (withReturns source.toList))

theorem LineEdit.ofChars?_eq {line edited : TextLine} (h : LineEdit line edited) :
    Instruction.ofChars? edited.chars = Instruction.ofChars? line.chars := by
  cases h with
  | blanks hleft hright hchars => rw [hchars, ofChars?_between_blanks hleft hright]
  | comment heven hchars => rw [hchars, ofChars?_comment heven]

/-- A line that is followed by a line break reads the same with a carriage return between them. -/
theorem ofChars?_append_return (line : List Char) :
    Instruction.ofChars? (line ++ ['\r']) = Instruction.ofChars? line :=
  ofChars?_between_blanks (List.forall_mem_nil _) (List.forall_mem_singleton.2 (by decide)) line

/-- Carriage returns before the line breaks become blanks behind the lines. -/
theorem filterMap_splitOn_withReturns {lines : List TextLine} (hne : lines ≠ []) :
    ((withReturns (['\n'].intercalate (lines.map TextLine.chars))).splitOn '\n').filterMap
        Instruction.ofChars?
      = lines.filterMap fun line => Instruction.ofChars? line.chars := by
  induction lines with
  | nil => exact absurd rfl hne
  | cons line rest ih =>
    by_cases hnil : rest = []
    · subst hnil
      rw [List.map_singleton, List.intercalate_singleton, withReturns_eq_self line.newline_not_mem,
        List.splitOn_eq_singleton line.newline_not_mem]
      rfl
    · have hmap : rest.map TextLine.chars ≠ [] := by
        intro h
        exact hnil (List.map_eq_nil_iff.1 h)
      have hbreak : '\n' ∉ line.chars ++ ['\r'] := by
        intro hmem
        rcases List.mem_append.1 hmem with h | h
        · exact line.newline_not_mem h
        · exact absurd (List.mem_singleton.1 h) (by decide)
      have hsplit : withReturns (['\n'].intercalate ((line :: rest).map TextLine.chars))
          = (line.chars ++ ['\r'])
            ++ '\n' :: withReturns (['\n'].intercalate (rest.map TextLine.chars)) := by
        have hreturn : withReturns ['\n'] = ['\r', '\n'] := rfl
        rw [List.map_cons, List.intercalate_cons_of_ne_nil hmap, withReturns_append,
          withReturns_append, withReturns_eq_self line.newline_not_mem, hreturn, List.append_assoc,
          List.append_assoc]
        rfl
      rw [hsplit, List.splitOn_append_cons_self_of_not_mem hbreak, List.filterMap_cons,
        List.filterMap_cons, ofChars?_append_return, ih hnil]

theorem LayoutEdit.ofSource_eq {source edited : String} (h : LayoutEdit source edited) :
    Program.ofSource edited = Program.ofSource source := by
  cases h with
  | line before after h =>
    rw [TextLine.ofSource_textOf, TextLine.ofSource_textOf, List.filterMap_append,
      List.filterMap_append, List.filterMap_cons, List.filterMap_cons, h.ofChars?_eq]
  | insertion before after h =>
    rw [TextLine.ofSource_textOf, TextLine.ofSource_textOf, List.filterMap_append,
      List.filterMap_append, List.filterMap_cons, ofChars?_vacant h]
  | returns =>
    obtain ⟨lines, hne, rfl⟩ := TextLine.exists_textOf source
    rw [TextLine.ofSource_textOf, Program.ofSource, String.toList_ofList, TextLine.textOf,
      String.toList_ofList, filterMap_splitOn_withReturns hne]

/-- **Layout and comments are irrelevant**: after any edits of its layout a text reads as the same
program, and it runs to the same result or error under every patience and all settings. -/
theorem layout_irrelevant (source edited : String)
    (h : Relation.ReflTransGen LayoutEdit source edited) :
    Program.ofSource edited = Program.ofSource source
      ∧ ∀ patience settings,
        interpret patience settings edited = interpret patience settings source := by
  have hread : Program.ofSource edited = Program.ofSource source := by
    induction h with
    | refl => rfl
    | tail _ hedit ih => exact hedit.ofSource_eq.trans ih
  have hassemble : assemble edited = assemble source := by
    rw [assemble, assemble, hread]
  refine ⟨hread, fun patience settings => ?_⟩
  rw [interpret, interpret, hassemble]

/-- The text gets a comment with an apostrophe behind a label, a comment behind a comma, blanks
around the jump, one of them wide, a line with a comment before it, and carriage returns. -/
theorem layout_irrelevant_sample :
    Program.ofSource "loop:; it's\r\nmov a, 1,; one\r\n; 'back\r\n\u3000\tjmp loop "
        = Program.ofSource "loop:\nmov a, 1,\njmp loop"
      ∧ ∀ patience settings,
        interpret patience settings
            "loop:; it's\r\nmov a, 1,; one\r\n; 'back\r\n\u3000\tjmp loop "
          = interpret patience settings "loop:\nmov a, 1,\njmp loop" := by
  let label : TextLine := ⟨"loop:".toList, by decide⟩
  let label' : TextLine := ⟨"loop:; it's".toList, by decide⟩
  let move : TextLine := ⟨"mov a, 1,".toList, by decide⟩
  let move' : TextLine := ⟨"mov a, 1,; one".toList, by decide⟩
  let jump : TextLine := ⟨"jmp loop".toList, by decide⟩
  let jump' : TextLine := ⟨"\u3000\tjmp loop ".toList, by decide⟩
  let note : TextLine := ⟨"; 'back".toList, by decide⟩
  have hlabel : LineEdit label label' := .comment (by decide) rfl
  have hmove : LineEdit move move' := .comment (by decide) rfl
  have hbefore : ∀ c ∈ ['\u3000', '\t'], Text.isBlank c = true :=
    List.forall_mem_cons.2 ⟨by decide, List.forall_mem_singleton.2 (by decide)⟩
  have hbehind : ∀ c ∈ [' '], Text.isBlank c = true := List.forall_mem_singleton.2 (by decide)
  have hjump : LineEdit jump jump' := .blanks hbefore hbehind rfl
  have hnote : note.Vacant := by
    intro c hc
    exact (Option.some.inj hc).symm
  have hfirst : "loop:\nmov a, 1,\njmp loop" = TextLine.textOf [label, move, jump] := by decide
  have hlast : "loop:; it's\r\nmov a, 1,; one\r\n; 'back\r\n\u3000\tjmp loop "
      = String.ofList (withReturns (TextLine.textOf [label', move', note, jump']).toList) := by
    decide
  have hedits : Relation.ReflTransGen LayoutEdit (TextLine.textOf [label, move, jump])
      (String.ofList (withReturns (TextLine.textOf [label', move', note, jump']).toList)) :=
    ((((Relation.ReflTransGen.single (LayoutEdit.line [] [move, jump] hlabel)).tail
      (LayoutEdit.line [label'] [jump] hmove)).tail
      (LayoutEdit.line [label', move'] [] hjump)).tail
      (LayoutEdit.insertion [label', move'] [jump'] hnote)).tail (LayoutEdit.returns _)
  rw [hfirst, hlast]
  exact layout_irrelevant _ _ hedits

end PseudoAsm

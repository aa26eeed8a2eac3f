import PseudoAsm.Instruction.Line

/-!
# The line grammar by parity of apostrophes

The scanner reads a line once, with a flag for an open apostrophe and a buffer.  The grammar of a
line can be said without either: a character is quoted if an odd number of apostrophes precede it,
the name ends at the first character that may end it, and what follows is cut at its unquoted
commas.

* `LineGrammar.quotedAt`, `LineGrammar.marked` — quotation by counting;
* `LineGrammar.instruction?` — the grammar;
* `LineGrammar.scanParams_eq`, `LineGrammar.scanLine_eq` — the scanner in terms of marked
  characters, for every state that it can be in;
* `ofLine?_eq_grammar` — **the scanner accepts exactly the grammar.**
-/

namespace PseudoAsm

/-- A character of a line, and whether it is quoted. -/
structure MarkedChar where
  char : Char
  quoted : Bool
deriving DecidableEq, Repr

namespace MarkedChar

/-- A blank or a colon ends the name wherever it stands, a comma or a semicolon outside quotes. -/
def endsName (x : MarkedChar) : Bool :=
  Text.isBlank x.char || x.char == ':' || (!x.quoted && (x.char == ',' || x.char == ';'))

def startsComment (x : MarkedChar) : Bool :=
  !x.quoted && x.char == ';'

def separates (x : MarkedChar) : Bool :=
  !x.quoted && x.char == ','

/-- Whether a character is left out of the parameters. -/
def isDropped (x : MarkedChar) : Bool :=
  !x.quoted && (Text.isBlank x.char || x.char == ':')

end MarkedChar

namespace LineGrammar

/-! ### The grammar -/

/-- Whether an odd number of apostrophes precede a position. -/
def quotedAt (t : List Char) (i : Nat) : Bool :=
  (t.take i).count '\'' % 2 == 1

def marked (t : List Char) : List MarkedChar :=
  t.mapIdx fun i c => ⟨c, quotedAt t i⟩

/-- The text before the comment, unquoted blanks and colons left out, cut at the unquoted commas. -/
def pieces (rest : List MarkedChar) : List (List Char) :=
  (((rest.takeWhile fun x => !x.startsComment).filter fun x => !x.isDropped).splitOnP
    MarkedChar.separates).map fun piece => piece.map MarkedChar.char

/-- A list of pieces without its last one if that is empty. -/
def dropEmptyLast (pieces : List (List Char)) : List (List Char) :=
  if pieces.getLast? = some [] then pieces.dropLast else pieces

/-- The instruction on a trimmed line. -/
def instruction? (t : List Char) : Option Instruction :=
  match (marked t).findIdx? MarkedChar.endsName with
  | none => if t = [] then none else some ⟨Text.lower (String.ofList t), []⟩
  | some k =>
    if t[k]? = some ':' then some ⟨Text.lower (String.ofList (t.take (k + 1))), []⟩
    else if t[k]? = some ';' then
      if k = 0 then none else some ⟨Text.lower (String.ofList (t.take k)), []⟩
    else some ⟨Text.lower (String.ofList (t.take k)),
      (dropEmptyLast (pieces ((marked t).drop (k + 1)))).map fun piece =>
        Text.trim (String.ofList piece)⟩

/-! ### Marking from left to right -/

/-- The characters of a text before which an apostrophe is open or not. -/
def mark (quoted : Bool) : List Char → List MarkedChar
  | [] => []
  | c :: rest => ⟨c, quoted⟩ :: mark (quoted ^^ c == '\'') rest

theorem quotedAt_cons_succ (c : Char) (t : List Char) (i : Nat) :
    quotedAt (c :: t) (i + 1) = ((c == '\'') ^^ quotedAt t i) := by
  unfold quotedAt
  rw [List.take_succ_cons, List.count_cons]
  cases c == '\'' with
  | false => simp only [Bool.false_eq_true, if_false, Nat.add_zero, Bool.false_xor]
  | true =>
    rw [if_pos rfl, Bool.true_xor, Bool.eq_iff_iff]
    simp only [beq_iff_eq, Bool.not_eq_true', beq_eq_false_iff_ne]
    omega

/-- Counting the apostrophes before each position is passing the flag on. -/
theorem mapIdx_quotedAt (quoted : Bool) (t : List Char) :
    (t.mapIdx fun i c => (⟨c, quoted ^^ quotedAt t i⟩ : MarkedChar)) = mark quoted t := by
  induction t generalizing quoted with
  | nil => rfl
  | cons c rest ih =>
    have hhead : quotedAt (c :: rest) 0 = false := rfl
    rw [List.mapIdx_cons, mark, ← ih, hhead, Bool.xor_false]
    simp only [quotedAt_cons_succ, Bool.xor_assoc]

theorem marked_eq_mark (t : List Char) : marked t = mark false t := by
  rw [← mapIdx_quotedAt]
  simp only [Bool.false_xor]
  rfl

/-! ### Pieces from left to right -/

section Pieces

variable {x : MarkedChar} {rest : List MarkedChar}

theorem pieces_nil : pieces [] = [[]] := rfl

theorem pieces_ne_nil (rest : List MarkedChar) : pieces rest ≠ [] := by
  unfold pieces
  intro h
  exact List.splitOnP_ne_nil _ _ (List.map_eq_nil_iff.1 h)

theorem pieces_comment (hcomment : x.startsComment = true) : pieces (x :: rest) = [[]] := by
  unfold pieces
  rw [List.takeWhile_cons_of_neg (by rw [hcomment]; decide)]
  rfl

theorem pieces_dropped (hcomment : x.startsComment = false) (hdropped : x.isDropped = true) :
    pieces (x :: rest) = pieces rest := by
  unfold pieces
  rw [List.takeWhile_cons_of_pos (by rw [hcomment]; rfl),
    List.filter_cons_of_neg (by rw [hdropped]; decide)]

theorem pieces_separator (hcomment : x.startsComment = false) (hdropped : x.isDropped = false)
    (hseparates : x.separates = true) : pieces (x :: rest) = [] :: pieces rest := by
  unfold pieces
  rw [List.takeWhile_cons_of_pos (by rw [hcomment]; rfl),
    List.filter_cons_of_pos (by rw [hdropped]; rfl), List.splitOnP_cons_eq_if_modifyHead,
    if_pos hseparates, List.map_cons]
  rfl

/-- Any other character belongs to the piece that it stands in front of. -/
theorem pieces_kept (hcomment : x.startsComment = false) (hdropped : x.isDropped = false)
    (hseparates : x.separates = false) (buffer : List Char) :
    (pieces (x :: rest)).modifyHead (buffer.reverse ++ ·)
      = (pieces rest).modifyHead ((x.char :: buffer).reverse ++ ·) := by
  unfold pieces
  rw [List.takeWhile_cons_of_pos (by rw [hcomment]; rfl),
    List.filter_cons_of_pos (by rw [hdropped]; rfl), List.splitOnP_cons_eq_if_modifyHead,
    if_neg (by rw [hseparates]; decide)]
  rcases List.splitOnP MarkedChar.separates _ with _ | ⟨first, others⟩
  · rfl
  · simp only [List.modifyHead_cons, List.map_cons, List.reverse_cons, List.append_assoc,
      List.singleton_append]

theorem modifyHead_nil_append (pieces : List (List Char)) :
    pieces.modifyHead (([] : List Char).reverse ++ ·) = pieces := by
  cases pieces <;> rfl

theorem dropEmptyLast_singleton (buffer : List Char) :
    dropEmptyLast [buffer.reverse] = lastField buffer := by
  cases buffer with
  | nil => rfl
  | cons c rest =>
    have hne : some (c :: rest).reverse ≠ some [] := by
      rw [List.reverse_cons]
      simp only [ne_eq, Option.some.injEq, List.append_eq_nil_iff, List.cons_ne_self, and_false,
        not_false_eq_true]
    rw [dropEmptyLast, List.getLast?_singleton, if_neg hne]
    rfl

theorem dropEmptyLast_cons (piece : List Char) {others : List (List Char)} (h : others ≠ []) :
    dropEmptyLast (piece :: others) = piece :: dropEmptyLast others := by
  unfold dropEmptyLast
  rw [List.getLast?_cons_of_ne_nil h, List.dropLast_cons_of_ne_nil h]
  by_cases hlast : others.getLast? = some []
  · rw [if_pos hlast, if_pos hlast]
  · rw [if_neg hlast, if_neg hlast]

end Pieces

/-! ### The scanner -/

/-- One character of the rest of a line, by what it is. -/
theorem scanParams_cons (quoted : Bool) (buffer : List Char) (c : Char) (rest : List Char) :
    scanParams quoted buffer (c :: rest) =
      if MarkedChar.startsComment ⟨c, quoted⟩ then lastField buffer
      else if MarkedChar.isDropped ⟨c, quoted⟩ then scanParams (quoted ^^ c == '\'') buffer rest
      else if MarkedChar.separates ⟨c, quoted⟩ then
        buffer.reverse :: scanParams (quoted ^^ c == '\'') [] rest
      else scanParams (quoted ^^ c == '\'') (c :: buffer) rest := by
  rw [scanParams]
  by_cases hapostrophe : c = '\''
  · subst hapostrophe
    rw [if_pos rfl]
    cases quoted <;> rfl
  · have hflag : (quoted ^^ c == '\'') = quoted := by
      rw [beq_false_of_ne hapostrophe, Bool.xor_false]
    rw [if_neg hapostrophe, hflag]
    cases quoted with
    | true => rfl
    | false =>
      simp only [MarkedChar.startsComment, MarkedChar.isDropped, MarkedChar.separates,
        Bool.not_false, Bool.true_and, beq_iff_eq, Bool.false_eq_true, if_false]
      by_cases hcomma : c = ','
      · subst hcomma
        rfl
      · rw [if_neg hcomma, if_neg hcomma, Bool.or_comm]
        rfl

/-- **The rest of a line.**  The fields that the scanner cuts are the pieces, the buffer put before
the first of them. -/
theorem scanParams_eq (quoted : Bool) (buffer cs : List Char) :
    scanParams quoted buffer cs
      = dropEmptyLast ((pieces (mark quoted cs)).modifyHead (buffer.reverse ++ ·)) := by
  induction cs generalizing quoted buffer with
  | nil =>
    rw [scanParams, mark, pieces_nil, List.modifyHead_cons, List.append_nil,
      dropEmptyLast_singleton]
  | cons c rest ih =>
    rw [scanParams_cons, mark]
    cases hcomment : MarkedChar.startsComment ⟨c, quoted⟩ with
    | true =>
      rw [if_pos rfl, pieces_comment hcomment, List.modifyHead_cons, List.append_nil,
        dropEmptyLast_singleton]
    | false =>
      rw [if_neg Bool.false_ne_true]
      cases hdropped : MarkedChar.isDropped ⟨c, quoted⟩ with
      | true => rw [if_pos rfl, ih, pieces_dropped hcomment hdropped]
      | false =>
        rw [if_neg Bool.false_ne_true]
        cases hseparates : MarkedChar.separates ⟨c, quoted⟩ with
        | true =>
          rw [if_pos rfl, ih, modifyHead_nil_append, pieces_separator hcomment hdropped hseparates,
            List.modifyHead_cons, List.append_nil, dropEmptyLast_cons _ (pieces_ne_nil _)]
        | false =>
          rw [if_neg Bool.false_ne_true, ih, pieces_kept hcomment hdropped hseparates]

theorem scanParams_nil (quoted : Bool) (cs : List Char) :
    scanParams quoted [] cs = dropEmptyLast (pieces (mark quoted cs)) := by
  rw [scanParams_eq, modifyHead_nil_append]

/-- One character of a line whose name is not complete, by what it is. -/
theorem scanLine_cons (quoted : Bool) (buffer : List Char) (c : Char) (rest : List Char) :
    scanLine quoted buffer (c :: rest) =
      if MarkedChar.endsName ⟨c, quoted⟩ then
        if c = ':' then [(c :: buffer).reverse]
        else if c = ';' then lastField buffer
        else buffer.reverse :: scanParams (quoted ^^ c == '\'') [] rest
      else scanLine (quoted ^^ c == '\'') (c :: buffer) rest := by
  rw [scanLine]
  by_cases hapostrophe : c = '\''
  · subst hapostrophe
    cases quoted <;> rfl
  have hflag : (quoted ^^ c == '\'') = quoted := by
    rw [beq_false_of_ne hapostrophe, Bool.xor_false]
  rw [if_neg hapostrophe, hflag]
  by_cases hcolon : c = ':'
  · subst hcolon
    cases quoted <;> rfl
  rw [if_neg hcolon, if_neg hcolon]
  by_cases hsemicolon : c = ';'
  · subst hsemicolon
    cases quoted <;> rfl
  have hends : MarkedChar.endsName ⟨c, quoted⟩
      = (Text.isBlank c || (decide (c = ',') && !quoted)) := by
    simp only [MarkedChar.endsName, beq_false_of_ne hcolon, beq_false_of_ne hsemicolon,
      Bool.or_false, Bool.and_comm]
    rfl
  rw [hends, if_neg hsemicolon, decide_eq_false hsemicolon]
  rfl

/-- The fields of a line whose name begins with a buffer and ends at a position, if anywhere. -/
def fields (buffer cs : List Char) (marks : List MarkedChar) : Option Nat → List (List Char)
  | none => lastField (cs.reverse ++ buffer)
  | some k =>
    if cs[k]? = some ':' then [buffer.reverse ++ cs.take (k + 1)]
    else if cs[k]? = some ';' then lastField ((cs.take k).reverse ++ buffer)
    else (buffer.reverse ++ cs.take k) :: dropEmptyLast (pieces (marks.drop (k + 1)))

/-- A character before the end of the name may as well be in the buffer. -/
theorem fields_succ (buffer : List Char) (c : Char) (cs : List Char) (x : MarkedChar)
    (marks : List MarkedChar) (position : Option Nat) :
    fields buffer (c :: cs) (x :: marks) (position.map (· + 1))
      = fields (c :: buffer) cs marks position := by
  cases position with
  | none => simp only [fields, Option.map_none, List.reverse_cons, List.append_assoc,
      List.singleton_append]
  | some k =>
    simp only [fields, Option.map_some, List.getElem?_cons_succ, List.take_succ_cons,
      List.drop_succ_cons, List.reverse_cons, List.append_assoc, List.singleton_append]

/-- **A whole line.**  The scanner cuts the fields at the first character that ends the name. -/
theorem scanLine_eq (quoted : Bool) (buffer cs : List Char) :
    scanLine quoted buffer cs = fields buffer cs (mark quoted cs)
      ((mark quoted cs).findIdx? MarkedChar.endsName) := by
  induction cs generalizing quoted buffer with
  | nil => rfl
  | cons c rest ih =>
    rw [scanLine_cons, mark, List.findIdx?_cons]
    cases hends : MarkedChar.endsName ⟨c, quoted⟩ with
    | false => rw [if_neg Bool.false_ne_true, if_neg Bool.false_ne_true, ih, fields_succ]
    | true =>
      simp only [if_true, fields, List.getElem?_cons_zero, Option.some.injEq]
      by_cases hcolon : c = ':'
      · rw [if_pos hcolon, if_pos hcolon, List.reverse_cons]
        rfl
      · rw [if_neg hcolon, if_neg hcolon, scanParams_nil, List.take_zero, List.append_nil]
        rfl

/-! ### Instructions -/

/-- A name holds no blanks. -/
theorem isBlank_eq_false_of_mem_name {quoted : Bool} {buffer cs name : List Char}
    {params : List (List Char)} (hbuffer : ∀ c ∈ buffer, Text.isBlank c = false)
    (h : scanLine quoted buffer cs = name :: params) : ∀ c ∈ name, Text.isBlank c = false := by
  have hlast {buffer : List Char} (hbuffer : ∀ c ∈ buffer, Text.isBlank c = false)
      (h : lastField buffer = name :: params) : ∀ c ∈ name, Text.isBlank c = false := by
    unfold lastField at h
    split at h
    · cases h
    · cases h
      intro c hc
      exact hbuffer c (List.mem_reverse.1 hc)
  induction cs generalizing quoted buffer with
  | nil => exact hlast hbuffer h
  | cons c rest ih =>
    have hkept (hblank : Text.isBlank c = false) :
        ∀ d ∈ c :: buffer, Text.isBlank d = false := by
      intro d hd
      rcases List.mem_cons.1 hd with rfl | hd
      · exact hblank
      · exact hbuffer d hd
    rw [scanLine_cons] at h
    cases hends : MarkedChar.endsName ⟨c, quoted⟩ with
    | false =>
      have hblank : Text.isBlank c = false :=
        (Bool.or_eq_false_iff.1 (Bool.or_eq_false_iff.1 hends).1).1
      rw [hends, if_neg Bool.false_ne_true] at h
      exact ih (hkept hblank) h
    | true =>
      rw [hends, if_pos rfl] at h
      by_cases hcolon : c = ':'
      · subst hcolon
        cases h
        intro d hd
        exact hkept (by decide) d (List.mem_reverse.1 hd)
      rw [if_neg hcolon] at h
      by_cases hsemicolon : c = ';'
      · rw [if_pos hsemicolon] at h
        exact hlast hbuffer h
      · rw [if_neg hsemicolon] at h
        cases h
        intro d hd
        exact hbuffer d (List.mem_reverse.1 hd)

/-- The instruction that the fields of a line stand for. -/
def ofFields? : List (List Char) → Option Instruction
  | [] => none
  | name :: params => some ⟨Text.lower (String.ofList name),
      params.map fun piece => Text.trim (String.ofList piece)⟩

/-- Trimming the name changes nothing. -/
theorem ofChars?_eq_ofFields? (line : List Char) :
    Instruction.ofChars? line = ofFields? (scanLine false [] (Text.trimChars line)) := by
  unfold Instruction.ofChars?
  cases hscan : scanLine false [] (Text.trimChars line) with
  | nil => rfl
  | cons name params =>
    have hblank : ∀ c ∈ name, Text.isBlank c = false := by
      refine isBlank_eq_false_of_mem_name ?_ hscan
      intro c hc
      exact absurd hc List.not_mem_nil
    have hname : Text.trim (String.ofList name) = String.ofList name := by
      rw [Text.trim, String.toList_ofList, Text.trimChars_eq_self hblank]
    simp only [ofFields?, Instruction.normalized, hname, List.map_map]
    rfl

theorem ofFields?_lastField (cs : List Char) : ofFields? (lastField (cs.reverse ++ []))
    = if cs = [] then none else some ⟨Text.lower (String.ofList cs), []⟩ := by
  cases cs with
  | nil => rfl
  | cons c rest =>
    have hne : (c :: rest).reverse.isEmpty = false := by
      rw [List.isEmpty_reverse, List.isEmpty_cons]
    rw [List.append_nil, lastField, hne, if_neg Bool.false_ne_true, List.reverse_reverse,
      if_neg (List.cons_ne_nil c rest)]
    rfl

theorem ofFields?_fields (t : List Char) :
    ofFields? (fields [] t (marked t) ((marked t).findIdx? MarkedChar.endsName))
      = instruction? t := by
  unfold instruction?
  cases hfind : (marked t).findIdx? MarkedChar.endsName with
  | none => exact ofFields?_lastField t
  | some k =>
    simp only [fields]
    by_cases hcolon : t[k]? = some ':'
    · rw [if_pos hcolon, if_pos hcolon]
      rfl
    rw [if_neg hcolon, if_neg hcolon]
    by_cases hsemicolon : t[k]? = some ';'
    · have hlt : k < t.length := (List.getElem?_eq_some_iff.1 hsemicolon).1
      have hempty : t.take k = [] ↔ k = 0 := by
        rw [← List.length_eq_zero_iff, List.length_take]
        omega
      rw [if_pos hsemicolon, if_pos hsemicolon, ofFields?_lastField]
      simp only [hempty]
    · rw [if_neg hsemicolon, if_neg hsemicolon]
      rfl

end LineGrammar

/-- **The scanner accepts exactly the grammar**, line by line. -/
theorem ofLine?_eq_grammar (line source : String) :
    Instruction.ofLine? line = LineGrammar.instruction? (Text.trimChars line.toList)
      ∧ Program.ofSource source = (source.toList.splitOn '\n').filterMap fun line =>
        LineGrammar.instruction? (Text.trimChars line) := by
  have hline : ∀ line, Instruction.ofChars? line
      = LineGrammar.instruction? (Text.trimChars line) := by
    intro line
    rw [LineGrammar.ofChars?_eq_ofFields?, LineGrammar.scanLine_eq, ← LineGrammar.marked_eq_mark,
      LineGrammar.ofFields?_fields]
  refine ⟨hline line.toList, ?_⟩
  rw [Program.ofSource, funext hline]

example : Instruction.ofLine? "  Msg 'x; y', a : b,; c" = some ⟨"msg", ["'x; y'", "ab"]⟩ := by
  decide +kernel

end PseudoAsm

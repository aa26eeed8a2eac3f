import PseudoAsm.Proofs.Line.Grammar
import PseudoAsm.Proofs.Text.Lowercase
import PseudoAsm.Proofs.Text.Trimming

/-!
# Reading written instructions

An instruction that was read from a line, written out again, reads as the same instruction, unless
it has no name or its last parameter is empty.  The written form knows nothing about apostrophes.
It reads back because the scanner has cut the parameters where no apostrophe was open: whatever
could cut them again stands inside apostrophes.

* `LineGrammar.quotedAfter`, `LineGrammar.Throughout` — marking a text in two parts;
* `LineGrammar.LineFields` — what the fields of a line look like, kept by lowercase names and
  trimmed parameters;
* `LineGrammar.scanLine_writtenChars` — a written name with its parameters is cut where it was
  joined, an empty last parameter apart;
* `LineGrammar.length_lt_of_scanLine_writtenChars` — without a name a parameter is lost;
* `written_instructions_read_back` — **a written instruction reads back exactly if it has a name and
  its last parameter is not empty**, and so does a text of such instructions.
-/

namespace PseudoAsm

namespace MarkedChar

/-- Whether a character belongs to the parameter that it stands in. -/
def isKept (x : MarkedChar) : Bool :=
  !x.startsComment && !x.isDropped && !x.separates

/-- Whether a character belongs to the name that it stands in. -/
def staysInName (x : MarkedChar) : Bool :=
  !x.endsName

end MarkedChar

namespace LineGrammar

/-! ### Texts in two parts -/

/-- Whether an apostrophe is open behind a text, given whether one is open before it. -/
def quotedAfter (quoted : Bool) (cs : List Char) : Bool :=
  cs.foldl (fun q c => q ^^ c == '\'') quoted

theorem quotedAfter_append (quoted : Bool) (a b : List Char) :
    quotedAfter quoted (a ++ b) = quotedAfter (quotedAfter quoted a) b :=
  List.foldl_append

theorem mark_append (quoted : Bool) (a b : List Char) :
    mark quoted (a ++ b) = mark quoted a ++ mark (quotedAfter quoted a) b := by
  induction a generalizing quoted with
  | nil => rfl
  | cons c rest ih =>
    rw [List.cons_append, mark, mark, ih]
    rfl

/-- All characters of a text, marked from the left, have a property. -/
def Throughout (p : MarkedChar → Bool) (quoted : Bool) (cs : List Char) : Prop :=
  ∀ x ∈ mark quoted cs, p x = true

section Throughout

variable {p : MarkedChar → Bool} {quoted : Bool}

theorem throughout_nil : Throughout p quoted [] := by
  intro x hx
  exact absurd hx List.not_mem_nil

theorem throughout_append {a b : List Char} :
    Throughout p quoted (a ++ b)
      ↔ Throughout p quoted a ∧ Throughout p (quotedAfter quoted a) b := by
  unfold Throughout
  rw [mark_append]
  exact List.forall_mem_append

theorem throughout_cons {c : Char} {rest : List Char} :
    Throughout p quoted (c :: rest)
      ↔ p ⟨c, quoted⟩ = true ∧ Throughout p (quoted ^^ c == '\'') rest :=
  List.forall_mem_cons

theorem throughout_singleton {c : Char} : Throughout p quoted [c] ↔ p ⟨c, quoted⟩ = true := by
  rw [throughout_cons]
  exact and_iff_left throughout_nil

/-- Characters without apostrophes leave the mark of what follows alone. -/
theorem quotedAfter_of_forall_ne {cs : List Char} (h : ∀ c ∈ cs, c ≠ '\'') :
    quotedAfter quoted cs = quoted := by
  induction cs with
  | nil => rfl
  | cons c rest ih =>
    have hc : (c == '\'') = false := beq_false_of_ne (h c List.mem_cons_self)
    have hrest : ∀ d ∈ rest, d ≠ '\'' := by
      intro d hd
      exact h d (List.mem_cons_of_mem c hd)
    show quotedAfter (quoted ^^ c == '\'') rest = quoted
    rw [hc, Bool.xor_false, ih hrest]

theorem ne_apostrophe_of_isBlank {c : Char} (h : Text.isBlank c = true) : c ≠ '\'' := by
  rintro rfl
  exact absurd h (by decide)

/-- Trimming takes nothing that the marks of the other characters depend on. -/
theorem throughout_trimChars {cs : List Char} (h : Throughout p quoted cs) :
    Throughout p quoted (Text.trimChars cs)
      ∧ quotedAfter quoted (Text.trimChars cs) = quotedAfter quoted cs := by
  obtain ⟨before, after, hsplit, hbefore, hafter⟩ := Text.exists_blanks_around_trimChars cs
  have hquoted : quotedAfter quoted before = quoted :=
    quotedAfter_of_forall_ne fun c hc => ne_apostrophe_of_isBlank (hbefore c hc)
  constructor
  · rw [hsplit, throughout_append, hquoted, throughout_append] at h
    exact h.2.1
  · conv_rhs => rw [hsplit]
    rw [quotedAfter_append, hquoted, quotedAfter_append, quotedAfter_of_forall_ne
      fun c hc => ne_apostrophe_of_isBlank (hafter c hc)]

end Throughout

/-! ### Signs -/

/-- The characters that mean something to the scanner. -/
def isSign (c : Char) : Bool :=
  Text.isBlank c || c == '\'' || c == ',' || c == ';' || c == ':'

theorem isLower_of_isSign {c : Char} (h : isSign c = true) :
    Text.IsLower c ∧ ¬ Text.IsLetterLike c := by
  simp only [isSign, Bool.or_eq_true, beq_iff_eq] at h
  rcases h with (((hblank | rfl) | rfl) | rfl) | rfl
  · exact Text.isLower_of_isBlank hblank
  all_goals decide +kernel

theorem quotedAfter_filter_isSign (quoted : Bool) (cs : List Char) :
    quotedAfter quoted (cs.filter isSign) = quotedAfter quoted cs := by
  induction cs generalizing quoted with
  | nil => rfl
  | cons c rest ih =>
    cases hsign : isSign c with
    | true =>
      rw [List.filter_cons_of_pos hsign]
      exact ih _
    | false =>
      have hc : (c == '\'') = false := by
        simp only [isSign, Bool.or_eq_false_iff] at hsign
        exact hsign.1.1.1.2
      rw [List.filter_cons_of_neg (by rw [hsign]; exact Bool.false_ne_true), ih]
      show quotedAfter quoted rest = quotedAfter (quoted ^^ c == '\'') rest
      rw [hc, Bool.xor_false]

/-- Only the signs of a text decide whether a name goes through it. -/
theorem throughout_filter_isSign (quoted : Bool) (cs : List Char) :
    Throughout MarkedChar.staysInName quoted (cs.filter isSign)
      ↔ Throughout MarkedChar.staysInName quoted cs := by
  induction cs generalizing quoted with
  | nil => exact Iff.rfl
  | cons c rest ih =>
    cases hsign : isSign c with
    | true => rw [List.filter_cons_of_pos hsign, throughout_cons, throughout_cons, ih]
    | false =>
      have hnone := hsign
      simp only [isSign, Bool.or_eq_false_iff] at hnone
      obtain ⟨⟨⟨⟨hblank, hapostrophe⟩, hcomma⟩, hsemicolon⟩, hcolon⟩ := hnone
      have hstays : MarkedChar.staysInName ⟨c, quoted⟩ = true := by
        simp only [MarkedChar.staysInName, MarkedChar.endsName, hblank, hcomma, hsemicolon, hcolon,
          Bool.or_self, Bool.and_false, Bool.not_false]
      rw [List.filter_cons_of_neg (by rw [hsign]; exact Bool.false_ne_true), throughout_cons, ih,
        hapostrophe, Bool.xor_false]
      exact (and_iff_right hstays).symm

theorem filter_isSign_lowerChars (cs : List Char) :
    (Text.lowerChars cs).filter isSign = cs.filter isSign :=
  Text.filter_lowerChars (fun _ h => isLower_of_isSign h) cs

theorem quotedAfter_lowerChars (quoted : Bool) (cs : List Char) :
    quotedAfter quoted (Text.lowerChars cs) = quotedAfter quoted cs := by
  rw [← quotedAfter_filter_isSign, filter_isSign_lowerChars, quotedAfter_filter_isSign]

theorem throughout_lowerChars (quoted : Bool) (cs : List Char) :
    Throughout MarkedChar.staysInName quoted (Text.lowerChars cs)
      ↔ Throughout MarkedChar.staysInName quoted cs := by
  rw [← throughout_filter_isSign, filter_isSign_lowerChars, throughout_filter_isSign]

/-- A name holds no blanks. -/
theorem isBlank_eq_false_of_throughout {quoted : Bool} {name : List Char}
    (h : Throughout MarkedChar.staysInName quoted name) : ∀ c ∈ name, Text.isBlank c = false := by
  induction name generalizing quoted with
  | nil =>
    intro c hc
    exact absurd hc List.not_mem_nil
  | cons c rest ih =>
    obtain ⟨hc, hrest⟩ := throughout_cons.1 h
    have hblank : Text.isBlank c = false := by
      simp only [MarkedChar.staysInName, MarkedChar.endsName, Bool.not_eq_true',
        Bool.or_eq_false_iff] at hc
      exact hc.1.1
    intro d hd
    rcases List.mem_cons.1 hd with rfl | hd
    · exact hblank
    · exact ih hrest d hd

/-! ### The fields of a line -/

/-- Parameter fields, the first of which begins with an open apostrophe or not.  Nothing in them
cuts them, and an apostrophe is open behind the last one at most. -/
def Fields (quoted : Bool) : List (List Char) → Prop
  | [] => True
  | field :: rest => Throughout MarkedChar.isKept quoted field
      ∧ (rest ≠ [] → quotedAfter quoted field = false) ∧ Fields false rest

/-- The name and the parameter fields that a line can have. -/
inductive LineFields : List Char → List (List Char) → Prop
  | instruction {name : List Char} {params : List (List Char)}
      (hname : Throughout MarkedChar.staysInName false name)
      (hparams : Fields (quotedAfter false name) params) : LineFields name params
  | label {name : List Char} (hname : Throughout MarkedChar.staysInName false name) :
      LineFields (name ++ [':']) []

theorem fields_lastField {quoted : Bool} {buffer : List Char}
    (hbuffer : Throughout MarkedChar.isKept quoted buffer.reverse) :
    Fields quoted (lastField buffer) := by
  unfold lastField
  split
  · trivial
  · exact ⟨hbuffer, fun h => absurd rfl h, trivial⟩

/-- **What the scanner cuts are fields**, if what it has in its buffer is the beginning of one. -/
theorem fields_scanParams {start quoted : Bool} {buffer : List Char} (cs : List Char)
    (hbuffer : Throughout MarkedChar.isKept start buffer.reverse)
    (hquoted : quotedAfter start buffer.reverse = quoted) :
    Fields start (scanParams quoted buffer cs) := by
  induction cs generalizing start quoted buffer with
  | nil => exact fields_lastField hbuffer
  | cons c rest ih =>
    rw [scanParams_cons]
    cases hcomment : MarkedChar.startsComment ⟨c, quoted⟩ with
    | true => exact fields_lastField hbuffer
    | false =>
      rw [if_neg Bool.false_ne_true]
      cases hdropped : MarkedChar.isDropped ⟨c, quoted⟩ with
      | true =>
        have hc : (c == '\'') = false := by
          simp only [MarkedChar.isDropped, Bool.and_eq_true, Bool.or_eq_true, beq_iff_eq] at hdropped
          rcases hdropped.2 with hblank | rfl
          · exact beq_false_of_ne (ne_apostrophe_of_isBlank hblank)
          · rfl
        rw [if_pos rfl, hc, Bool.xor_false]
        exact ih hbuffer hquoted
      | false =>
        rw [if_neg Bool.false_ne_true]
        cases hseparates : MarkedChar.separates ⟨c, quoted⟩ with
        | true =>
          simp only [MarkedChar.separates, Bool.and_eq_true, Bool.not_eq_true', beq_iff_eq]
            at hseparates
          obtain ⟨hopen, rfl⟩ := hseparates
          rw [if_pos rfl, hopen]
          exact ⟨hbuffer, fun _ => hquoted.trans hopen, ih throughout_nil rfl⟩
        | false =>
          have hkept : MarkedChar.isKept ⟨c, quoted⟩ = true := by
            simp only [MarkedChar.isKept, hcomment, hdropped, hseparates, Bool.not_false,
              Bool.and_self]
          rw [if_neg Bool.false_ne_true]
          apply ih
          · rw [List.reverse_cons, throughout_append, hquoted, throughout_singleton]
            exact ⟨hbuffer, hkept⟩
          · rw [List.reverse_cons, quotedAfter_append, hquoted]
            rfl

theorem lineFields_lastField {buffer name : List Char} {params : List (List Char)}
    (hbuffer : Throughout MarkedChar.staysInName false buffer.reverse)
    (h : lastField buffer = name :: params) : LineFields name params := by
  unfold lastField at h
  split at h
  · cases h
  · cases h
    exact .instruction hbuffer trivial

/-- The fields of a line are a name and parameters, if what the scanner has in its buffer is the
beginning of a name. -/
theorem lineFields_scanLine {quoted : Bool} {buffer cs name : List Char}
    {params : List (List Char)}
    (hbuffer : Throughout MarkedChar.staysInName false buffer.reverse)
    (hquoted : quotedAfter false buffer.reverse = quoted)
    (h : scanLine quoted buffer cs = name :: params) : LineFields name params := by
  induction cs generalizing quoted buffer with
  | nil => exact lineFields_lastField hbuffer h
  | cons c rest ih =>
    rw [scanLine_cons] at h
    cases hends : MarkedChar.endsName ⟨c, quoted⟩ with
    | false =>
      have hstays : MarkedChar.staysInName ⟨c, quoted⟩ = true := by
        rw [MarkedChar.staysInName, hends]
        rfl
      rw [hends, if_neg Bool.false_ne_true] at h
      apply ih _ _ h
      · rw [List.reverse_cons, throughout_append, hquoted, throughout_singleton]
        exact ⟨hbuffer, hstays⟩
      · rw [List.reverse_cons, quotedAfter_append, hquoted]
        rfl
    | true =>
      rw [hends, if_pos rfl] at h
      by_cases hcolon : c = ':'
      · rw [if_pos hcolon, hcolon, List.reverse_cons] at h
        cases h
        exact .label hbuffer
      rw [if_neg hcolon] at h
      by_cases hsemicolon : c = ';'
      · rw [if_pos hsemicolon] at h
        exact lineFields_lastField hbuffer h
      · have hc : (c == '\'') = false := by
          refine beq_false_of_ne ?_
          rintro rfl
          cases quoted <;> exact absurd hends (by decide)
        rw [if_neg hsemicolon, hc, Bool.xor_false, List.cons.injEq] at h
        obtain ⟨rfl, rfl⟩ := h
        refine .instruction hbuffer ?_
        rw [hquoted]
        exact fields_scanParams rest throughout_nil rfl

theorem Fields.trim {quoted : Bool} {params : List (List Char)} (h : Fields quoted params) :
    Fields quoted (params.map Text.trimChars) := by
  induction params generalizing quoted with
  | nil => trivial
  | cons field rest ih =>
    obtain ⟨hfield, hquoted, hrest⟩ := h
    obtain ⟨hfield', hquoted'⟩ := throughout_trimChars hfield
    refine ⟨hfield', ?_, ih hrest⟩
    intro hne
    rw [hquoted']
    apply hquoted
    rintro rfl
    exact hne rfl

/-- Lowercase names and trimmed parameters can be the fields of a line too. -/
theorem LineFields.normalize {name : List Char} {params : List (List Char)}
    (h : LineFields name params) :
    LineFields (Text.lowerChars name) (params.map Text.trimChars) := by
  cases h with
  | instruction hname hparams =>
    refine .instruction ((throughout_lowerChars false name).2 hname) ?_
    rw [quotedAfter_lowerChars]
    exact hparams.trim
  | @label name hname =>
    rw [Text.lowerChars_concat (by decide +kernel) (by decide +kernel)]
    exact .label ((throughout_lowerChars false name).2 hname)

theorem LineFields.isBlank_name {name : List Char} {params : List (List Char)}
    (h : LineFields name params) : ∀ c ∈ name, Text.isBlank c = false := by
  cases h with
  | instruction hname _ => exact isBlank_eq_false_of_throughout hname
  | label hname =>
    intro c hc
    rcases List.mem_append.1 hc with hc | hc
    · exact isBlank_eq_false_of_throughout hname c hc
    · rw [List.mem_singleton.1 hc]
      decide

/-! ### Written fields -/

/-- Parameters separated by commas and blanks. -/
def joinedChars (params : List (List Char)) : List Char :=
  List.intercalate [',', ' '] params

theorem joinedChars_cons {rest : List (List Char)} (h : rest ≠ []) (field : List Char) :
    joinedChars (field :: rest) = field ++ [','] ++ ' ' :: joinedChars rest := by
  obtain ⟨next, others, rfl⟩ := List.exists_cons_of_ne_nil h
  rw [joinedChars, List.intercalate_cons_cons, ← joinedChars]
  simp only [List.append_assoc, List.cons_append, List.nil_append]

/-- A name, and after a blank its parameters. -/
def writtenChars (name : List Char) (params : List (List Char)) : List Char :=
  if params = [] then name else name ++ ' ' :: joinedChars params

/-- What is kept goes into the buffer. -/
theorem scanParams_append {quoted : Bool} {field : List Char}
    (hfield : Throughout MarkedChar.isKept quoted field) (buffer rest : List Char) :
    scanParams quoted buffer (field ++ rest)
      = scanParams (quotedAfter quoted field) (field.reverse ++ buffer) rest := by
  induction field generalizing quoted buffer with
  | nil => rfl
  | cons c field ih =>
    obtain ⟨hkept, hfield⟩ := throughout_cons.1 hfield
    simp only [MarkedChar.isKept, Bool.and_eq_true, Bool.not_eq_true'] at hkept
    obtain ⟨⟨hcomment, hdropped⟩, hseparates⟩ := hkept
    rw [List.cons_append, scanParams_cons, hcomment, hdropped, hseparates,
      if_neg Bool.false_ne_true, if_neg Bool.false_ne_true, if_neg Bool.false_ne_true, ih hfield,
      List.reverse_cons, List.append_assoc]
    rfl

/-- What stays in the name goes into the buffer. -/
theorem scanLine_append {quoted : Bool} {name : List Char}
    (hname : Throughout MarkedChar.staysInName quoted name) (buffer rest : List Char) :
    scanLine quoted buffer (name ++ rest)
      = scanLine (quotedAfter quoted name) (name.reverse ++ buffer) rest := by
  induction name generalizing quoted buffer with
  | nil => rfl
  | cons c name ih =>
    obtain ⟨hstays, hname⟩ := throughout_cons.1 hname
    rw [MarkedChar.staysInName, Bool.not_eq_true'] at hstays
    rw [List.cons_append, scanLine_cons, hstays, if_neg Bool.false_ne_true, ih hname,
      List.reverse_cons, List.append_assoc]
    rfl

/-- A blank before the rest of a line changes nothing, and is trimmed if nothing follows it. -/
theorem scanParams_trimEnd_blank (buffer rest : List Char) :
    scanParams false buffer (Text.trimEnd (' ' :: rest))
      = scanParams false buffer (Text.trimEnd rest) := by
  by_cases hrest : Text.trimEnd rest = []
  · rw [← List.singleton_append, Text.trimEnd_append_of_eq_nil hrest, hrest]
    rfl
  · rw [← List.singleton_append, Text.trimEnd_append_of_ne_nil hrest]
    rfl

/-- A blank behind a name ends it, and is trimmed if nothing follows it. -/
theorem scanLine_trimEnd_blank (quoted : Bool) {buffer : List Char} (hbuffer : buffer ≠ [])
    (rest : List Char) :
    scanLine quoted buffer (Text.trimEnd (' ' :: rest))
      = buffer.reverse :: scanParams quoted [] (Text.trimEnd rest) := by
  by_cases hrest : Text.trimEnd rest = []
  · rw [← List.singleton_append, Text.trimEnd_append_of_eq_nil hrest, hrest]
    show lastField buffer = [buffer.reverse]
    rw [lastField, if_neg (by rw [List.isEmpty_iff]; exact hbuffer)]
  · rw [← List.singleton_append, Text.trimEnd_append_of_ne_nil hrest, List.singleton_append,
      scanLine_cons]
    cases quoted <;> rfl

/-- **Joined parameters are cut where they were joined**, an empty last one apart. -/
theorem scanParams_joinedChars {quoted : Bool} {params : List (List Char)}
    (h : Fields quoted params) (htrimmed : ∀ field ∈ params, Text.trimEnd field = field) :
    scanParams quoted [] (Text.trimEnd (joinedChars params)) = dropEmptyLast params := by
  induction params generalizing quoted with
  | nil => rfl
  | cons field rest ih =>
    obtain ⟨hfield, hquoted, hrest⟩ := h
    by_cases hnil : rest = []
    · subst hnil
      rw [joinedChars, List.intercalate_singleton, htrimmed field List.mem_cons_self,
        ← List.append_nil field, scanParams_append hfield, List.append_nil, List.append_nil]
      show lastField field.reverse = dropEmptyLast [field]
      rw [← dropEmptyLast_singleton, List.reverse_reverse]
    · have htrimmed' : ∀ other ∈ rest, Text.trimEnd other = other := by
        intro other hother
        exact htrimmed other (List.mem_cons_of_mem field hother)
      rw [joinedChars_cons hnil,
        Text.trimEnd_append_of_eq_self (Text.trimEnd_concat (by decide) field), List.append_assoc,
        scanParams_append hfield, hquoted hnil, List.append_nil]
      show field.reverse.reverse :: scanParams false [] (Text.trimEnd (' ' :: joinedChars rest))
        = dropEmptyLast (field :: rest)
      rw [List.reverse_reverse, scanParams_trimEnd_blank, ih hrest htrimmed',
        dropEmptyLast_cons field hnil]

/-- **A written line is cut where it was joined**, an empty last parameter apart. -/
theorem scanLine_writtenChars {name : List Char} {params : List (List Char)}
    (h : LineFields name params) (hname : name ≠ [])
    (htrimmed : ∀ field ∈ params, Text.trimEnd field = field) :
    scanLine false [] (Text.trimChars (writtenChars name params))
      = name :: dropEmptyLast params := by
  have hblank := h.isBlank_name
  have hend : Text.trimEnd name = name := by
    have hreverse : ∀ c ∈ name.reverse, Text.isBlank c = false := by
      intro c hc
      exact hblank c (List.mem_reverse.1 hc)
    rw [Text.trimEnd, ← Text.trimStart, Text.trimStart_eq_self hreverse, List.reverse_reverse]
  have hstart (tail : List Char) : Text.trimStart (name ++ tail) = name ++ tail := by
    obtain ⟨c, rest, rfl⟩ := List.exists_cons_of_ne_nil hname
    exact Text.trimStart_cons_of_not_blank (hblank c List.mem_cons_self) _
  have hreverse : name.reverse ≠ [] := by
    rw [Ne, List.reverse_eq_nil_iff]
    exact hname
  cases h with
  | label hbody =>
    rw [writtenChars, if_pos rfl, Text.trimChars_eq_self hblank, scanLine_append hbody,
      List.append_nil]
    show [(':' :: _).reverse] = _
    rw [List.reverse_cons, List.reverse_reverse]
    rfl
  | instruction hbody hparams =>
    by_cases hnil : params = []
    · subst hnil
      rw [writtenChars, if_pos rfl, Text.trimChars_eq_self hblank, ← List.append_nil name,
        scanLine_append hbody, List.append_nil, List.append_nil]
      show lastField name.reverse = [name]
      rw [lastField, if_neg (by rw [List.isEmpty_iff]; exact hreverse), List.reverse_reverse]
    · rw [writtenChars, if_neg hnil, Text.trimChars, hstart,
        Text.trimEnd_append_of_eq_self hend, scanLine_append hbody, List.append_nil,
        scanLine_trimEnd_blank _ hreverse, List.reverse_reverse,
        scanParams_joinedChars hparams htrimmed]

/-! ### Lines without a name -/

/-- A name that was begun is not empty. -/
theorem ne_nil_of_scanLine {quoted : Bool} {buffer cs name : List Char}
    {params : List (List Char)} (hbuffer : buffer ≠ [])
    (h : scanLine quoted buffer cs = name :: params) : name ≠ [] := by
  have hreverse : buffer.reverse ≠ [] := by
    rw [Ne, List.reverse_eq_nil_iff]
    exact hbuffer
  have hlast (h : lastField buffer = name :: params) : name ≠ [] := by
    rw [lastField, if_neg (by rw [List.isEmpty_iff]; exact hbuffer)] at h
    cases h
    exact hreverse
  induction cs generalizing quoted buffer with
  | nil => exact hlast h
  | cons c rest ih =>
    rw [scanLine_cons] at h
    split at h
    · split at h
      · cases h
        rw [List.reverse_cons]
        exact List.append_ne_nil_of_right_ne_nil _ (List.cons_ne_nil c [])
      · split at h
        · exact hlast h
        · cases h
          exact hreverse
    · apply ih (List.cons_ne_nil c buffer) h
      · rw [List.reverse_cons]
        exact List.append_ne_nil_of_right_ne_nil _ (List.cons_ne_nil c [])
      · intro h
        cases h
        rw [List.reverse_cons]
        exact List.append_ne_nil_of_right_ne_nil _ (List.cons_ne_nil c [])

theorem length_dropEmptyLast_le (params : List (List Char)) :
    (dropEmptyLast params).length ≤ params.length := by
  unfold dropEmptyLast
  split
  · rw [List.length_dropLast]
    exact Nat.sub_le _ _
  · exact Nat.le_refl _

/-- The first character of a parameter can be that of a name. -/
theorem staysInName_of_isKept {c : Char} (hblank : Text.isBlank c = false)
    (hkept : MarkedChar.isKept ⟨c, false⟩ = true) : MarkedChar.staysInName ⟨c, false⟩ = true := by
  simp only [MarkedChar.isKept, MarkedChar.startsComment, MarkedChar.isDropped,
    MarkedChar.separates, hblank, Bool.false_or, Bool.not_false, Bool.true_and,
    Bool.and_eq_true, Bool.not_eq_true'] at hkept
  obtain ⟨⟨hsemicolon, hcolon⟩, hcomma⟩ := hkept
  simp only [MarkedChar.staysInName, MarkedChar.endsName, hblank, hsemicolon, hcolon, hcomma,
    Bool.or_self, Bool.and_false, Bool.not_false]

theorem exists_tail_joinedChars (c : Char) (field : List Char) (rest : List (List Char)) :
    ∃ tail, joinedChars ((c :: field) :: rest) = c :: tail := by
  by_cases hnil : rest = []
  · subst hnil
    exact ⟨field, List.intercalate_singleton⟩
  · exact ⟨_, joinedChars_cons hnil (c :: field)⟩

/-- **Without a name a parameter is lost**: the first one is read as the name, or it is empty and
its comma ends the empty name. -/
theorem length_lt_of_scanLine_writtenChars {params others : List (List Char)}
    (hfields : Fields false params) (htrimmed : ∀ field ∈ params, Text.trimChars field = field)
    (h : scanLine false [] (Text.trimChars (writtenChars [] params)) = [] :: others) :
    others.length < params.length := by
  have hend : ∀ field ∈ params, Text.trimEnd field = field := by
    intro field hfield
    rw [← htrimmed field hfield, Text.trimEnd_trimChars]
  cases params with
  | nil => cases h
  | cons field rest =>
    obtain ⟨hfield, -, hrest⟩ := hfields
    rw [writtenChars, if_neg (List.cons_ne_nil field rest), List.nil_append, Text.trimChars,
      Text.trimStart_cons_of_blank (by decide)] at h
    cases field with
    | cons c field =>
      have hstart := Text.trimStart_trimChars (c :: field)
      rw [htrimmed _ List.mem_cons_self] at hstart
      have hblank : Text.isBlank c = false := Text.isBlank_of_trimStart_cons hstart
      have hstays := staysInName_of_isKept hblank (throughout_cons.1 hfield).1
      obtain ⟨tail, htail⟩ := exists_tail_joinedChars c field rest
      rw [htail, Text.trimStart_cons_of_not_blank hblank, Text.trimEnd_cons hblank,
        ← List.singleton_append, scanLine_append (throughout_singleton.2 hstays)] at h
      exact absurd rfl (ne_nil_of_scanLine (List.cons_ne_nil c []) h)
    | nil =>
      by_cases hnil : rest = []
      · subst hnil
        cases h
      · have hend' : ∀ other ∈ rest, Text.trimEnd other = other := by
          intro other hother
          exact hend other (List.mem_cons_of_mem _ hother)
        rw [joinedChars_cons hnil, List.nil_append, List.singleton_append,
          Text.trimStart_cons_of_not_blank (by decide), Text.trimEnd_cons (by decide)] at h
        have hscan : scanLine false [] (',' :: Text.trimEnd (' ' :: joinedChars rest))
            = [] :: scanParams false [] (Text.trimEnd (' ' :: joinedChars rest)) := rfl
        rw [hscan, scanParams_trimEnd_blank, scanParams_joinedChars hrest hend',
          List.cons.injEq] at h
        rw [← h.2, List.length_cons]
        exact Nat.lt_succ_of_le (length_dropEmptyLast_le rest)

/-! ### Written instructions -/

theorem toList_text (ins : Instruction) :
    ins.text.toList = writtenChars ins.name.toList (ins.params.map String.toList) := by
  unfold Instruction.text writtenChars
  by_cases hnil : ins.params = []
  · rw [hnil]
    rfl
  · rw [if_neg (by rw [List.isEmpty_iff]; exact hnil),
      if_neg (by rw [List.map_eq_nil_iff]; exact hnil), String.toList_append, String.toList_append,
      String.toList_intercalate, List.append_assoc]
    rfl

/-- Fields stand for an instruction if they are its name and parameters but for letter case and
blanks. -/
theorem ofFields?_cons_eq_some_iff {name : List Char} {params : List (List Char)}
    {ins : Instruction} : ofFields? (name :: params) = some ins
      ↔ Text.lowerChars name = ins.name.toList
        ∧ params.map Text.trimChars = ins.params.map String.toList := by
  have hmap : (params.map fun piece => Text.trim (String.ofList piece)).map String.toList
      = params.map Text.trimChars := by
    rw [List.map_map]
    apply List.map_congr_left
    intro field _
    show (Text.trim (String.ofList field)).toList = Text.trimChars field
    rw [Text.toList_trim, String.toList_ofList]
  have hinjective : Function.Injective (List.map String.toList) :=
    List.map_injective_iff.2 fun _ _ h => String.toList_inj.1 h
  obtain ⟨insName, insParams⟩ := ins
  rw [ofFields?, Option.some.injEq, Instruction.mk.injEq, ← String.toList_inj, Text.toList_lower,
    String.toList_ofList, ← hmap, hinjective.eq_iff]

/-- What is known of an instruction that was read from a line. -/
structure WasRead (ins : Instruction) : Prop where
  fields : LineFields ins.name.toList (ins.params.map String.toList)
  lower : Text.lower ins.name = ins.name
  trimmed : ∀ param ∈ ins.params, Text.trim param = param

theorem exists_fields_of_ofChars? {line : List Char} {ins : Instruction}
    (h : Instruction.ofChars? line = some ins) : ∃ name params,
      scanLine false [] (Text.trimChars line) = name :: params
        ∧ ins.name.toList = Text.lowerChars name
        ∧ ins.params.map String.toList = params.map Text.trimChars := by
  rw [ofChars?_eq_ofFields?] at h
  cases hscan : scanLine false [] (Text.trimChars line) with
  | nil =>
    rw [hscan] at h
    cases h
  | cons name params =>
    rw [hscan] at h
    obtain ⟨hname, hparams⟩ := ofFields?_cons_eq_some_iff.1 h
    exact ⟨name, params, rfl, hname.symm, hparams.symm⟩

theorem wasRead_of_ofChars? {line : List Char} {ins : Instruction}
    (h : Instruction.ofChars? line = some ins) : WasRead ins := by
  obtain ⟨name, params, hscan, hname, hparams⟩ := exists_fields_of_ofChars? h
  constructor
  · have hstart : Throughout MarkedChar.staysInName false ([] : List Char).reverse := throughout_nil
    rw [hname, hparams]
    exact (lineFields_scanLine hstart rfl hscan).normalize
  · rw [← String.toList_inj, Text.toList_lower, hname, Text.lowerChars_lowerChars]
  · intro param hparam
    have hmem : param.toList ∈ params.map Text.trimChars := by
      rw [← hparams]
      exact List.mem_map_of_mem hparam
    obtain ⟨field, -, hfield⟩ := List.mem_map.1 hmem
    rw [← String.toList_inj, Text.toList_trim, ← hfield, Text.trimChars_trimChars]

theorem mem_of_mem_dropEmptyLast {params : List (List Char)} {field : List Char}
    (h : field ∈ dropEmptyLast params) : field ∈ params := by
  unfold dropEmptyLast at h
  split at h
  · exact (List.dropLast_sublist params).subset h
  · exact h

theorem dropEmptyLast_eq_self_iff {params : List (List Char)} :
    dropEmptyLast params = params ↔ params.getLast? ≠ some [] := by
  unfold dropEmptyLast
  by_cases hlast : params.getLast? = some []
  · have hne : params ≠ [] := by
      rintro rfl
      cases hlast
    have hlength : params.dropLast.length < params.length := by
      rw [List.length_dropLast]
      exact Nat.sub_lt (List.length_pos_of_ne_nil hne) Nat.one_pos
    rw [if_pos hlast]
    constructor
    · intro h
      rw [h] at hlength
      exact absurd hlength (Nat.lt_irrefl _)
    · intro h
      exact absurd hlast h
  · rw [if_neg hlast]
    exact iff_of_true rfl hlast

namespace WasRead

variable {ins : Instruction} (h : WasRead ins)

include h

theorem trimChars_param : ∀ field ∈ ins.params.map String.toList, Text.trimChars field = field := by
  intro field hfield
  obtain ⟨param, hparam, rfl⟩ := List.mem_map.1 hfield
  rw [← Text.toList_trim, h.trimmed param hparam]

/-- A written instruction with a name loses an empty last parameter and nothing else. -/
theorem ofChars?_text_eq_some_iff (hname : ins.name ≠ "") :
    Instruction.ofChars? ins.text.toList = some ins
      ↔ (ins.params.map String.toList).getLast? ≠ some [] := by
  have hne : ins.name.toList ≠ [] := by
    rw [Ne, String.toList_eq_nil_iff]
    exact hname
  have hend : ∀ field ∈ ins.params.map String.toList, Text.trimEnd field = field := by
    intro field hfield
    rw [← h.trimChars_param field hfield, Text.trimEnd_trimChars]
  have htrim : (dropEmptyLast (ins.params.map String.toList)).map Text.trimChars
      = dropEmptyLast (ins.params.map String.toList) := by
    refine (List.map_congr_left ?_).trans (List.map_id _)
    intro field hfield
    exact h.trimChars_param field (mem_of_mem_dropEmptyLast hfield)
  rw [ofChars?_eq_ofFields?, toList_text, scanLine_writtenChars h.fields hne hend,
    ofFields?_cons_eq_some_iff, ← Text.toList_lower, h.lower, htrim, dropEmptyLast_eq_self_iff]
  exact and_iff_right rfl

/-- Without a name a written instruction reads as something else. -/
theorem ofChars?_text_ne_some (hname : ins.name = "") :
    Instruction.ofChars? ins.text.toList ≠ some ins := by
  intro heq
  rw [ofChars?_eq_ofFields?, toList_text, hname] at heq
  cases hscan : scanLine false []
      (Text.trimChars (writtenChars "".toList (ins.params.map String.toList))) with
  | nil =>
    rw [hscan] at heq
    cases heq
  | cons name params =>
    rw [hscan, ofFields?_cons_eq_some_iff, hname] at heq
    have hnil : name = [] := Text.lowerChars_eq_nil_iff.1 heq.1
    have hfields : Fields false (ins.params.map String.toList) := by
      have hread := h.fields
      rw [hname] at hread
      generalize ins.params.map String.toList = fields at hread
      generalize hempty : "".toList = empty at hread
      cases hread with
      | instruction _ hparams =>
        rw [← hempty] at hparams
        exact hparams
      | label _ => trivial
    have hlt := length_lt_of_scanLine_writtenChars hfields h.trimChars_param (hnil ▸ hscan)
    have hlength := congrArg List.length heq.2
    rw [List.length_map] at hlength
    omega

end WasRead

/-! ### Texts of many lines -/

/-- No line of a text holds the character that separates the lines. -/
theorem not_mem_of_mem_splitOn {x : Char} {text line : List Char} (h : line ∈ text.splitOn x) :
    x ∉ line := by
  induction text generalizing line with
  | nil =>
    rw [List.splitOn_nil, List.mem_singleton] at h
    rw [h]
    exact List.not_mem_nil
  | cons c rest ih =>
    rw [List.splitOn_eq_splitOnP] at h ih
    rw [List.splitOnP_cons_eq_if_modifyHead] at h
    by_cases hc : (c == x) = true
    · rw [if_pos hc] at h
      rcases List.mem_cons.1 h with rfl | h
      · exact List.not_mem_nil
      · exact ih h
    · rw [if_neg hc] at h
      obtain ⟨first, others, hsplit⟩ := List.exists_cons_of_ne_nil
        (List.splitOnP_ne_nil (· == x) rest)
      rw [hsplit] at ih h
      rcases List.mem_cons.1 h with rfl | h
      · intro hmem
        rcases List.mem_cons.1 hmem with rfl | hmem
        · exact hc (beq_self_eq_true x)
        · exact ih List.mem_cons_self hmem
      · exact ih (List.mem_cons_of_mem first h)

section Fields

variable {x : Char}

theorem not_mem_lastField {buffer field : List Char} (hbuffer : x ∉ buffer)
    (hfield : field ∈ lastField buffer) : x ∉ field := by
  unfold lastField at hfield
  split at hfield
  · exact absurd hfield List.not_mem_nil
  · rw [List.mem_singleton.1 hfield, List.mem_reverse]
    exact hbuffer

/-- A field holds only characters of its line. -/
theorem not_mem_of_mem_scanParams {quoted : Bool} {buffer cs field : List Char}
    (hbuffer : x ∉ buffer) (hcs : x ∉ cs) (hfield : field ∈ scanParams quoted buffer cs) :
    x ∉ field := by
  induction cs generalizing quoted buffer with
  | nil => exact not_mem_lastField hbuffer hfield
  | cons c rest ih =>
    have hrest : x ∉ rest := List.not_mem_of_not_mem_cons hcs
    have hbuffer' : x ∉ c :: buffer :=
      List.not_mem_cons_of_ne_of_not_mem (List.ne_of_not_mem_cons hcs) hbuffer
    rw [scanParams_cons] at hfield
    split at hfield
    · exact not_mem_lastField hbuffer hfield
    · split at hfield
      · exact ih hbuffer hrest hfield
      · split at hfield
        · rcases List.mem_cons.1 hfield with rfl | hfield
          · rw [List.mem_reverse]
            exact hbuffer
          · exact ih List.not_mem_nil hrest hfield
        · exact ih hbuffer' hrest hfield

theorem not_mem_of_mem_scanLine {quoted : Bool} {buffer cs field : List Char}
    (hbuffer : x ∉ buffer) (hcs : x ∉ cs) (hfield : field ∈ scanLine quoted buffer cs) :
    x ∉ field := by
  induction cs generalizing quoted buffer with
  | nil => exact not_mem_lastField hbuffer hfield
  | cons c rest ih =>
    have hrest : x ∉ rest := List.not_mem_of_not_mem_cons hcs
    have hbuffer' : x ∉ c :: buffer :=
      List.not_mem_cons_of_ne_of_not_mem (List.ne_of_not_mem_cons hcs) hbuffer
    rw [scanLine_cons] at hfield
    split at hfield
    · split at hfield
      · rw [List.mem_singleton.1 hfield, List.mem_reverse]
        exact hbuffer'
      · split at hfield
        · exact not_mem_lastField hbuffer hfield
        · rcases List.mem_cons.1 hfield with rfl | hfield
          · rw [List.mem_reverse]
            exact hbuffer
          · exact not_mem_of_mem_scanParams List.not_mem_nil hrest hfield
    · exact ih hbuffer' hrest hfield

theorem not_mem_joinedChars {params : List (List Char)} (hcomma : x ≠ ',') (hblank : x ≠ ' ')
    (h : ∀ field ∈ params, x ∉ field) : x ∉ joinedChars params := by
  induction params with
  | nil => exact List.not_mem_nil
  | cons field rest ih =>
    have hfield := h field List.mem_cons_self
    by_cases hnil : rest = []
    · subst hnil
      rw [joinedChars, List.intercalate_singleton]
      exact hfield
    · have hrest := ih fun other hother => h other (List.mem_cons_of_mem field hother)
      rw [joinedChars_cons hnil]
      simp only [List.mem_append, List.mem_cons, List.not_mem_nil, hfield, hcomma, hblank, hrest,
        or_self, not_false_eq_true]

theorem not_mem_writtenChars {name : List Char} {params : List (List Char)} (hcomma : x ≠ ',')
    (hblank : x ≠ ' ') (hname : x ∉ name) (h : ∀ field ∈ params, x ∉ field) :
    x ∉ writtenChars name params := by
  unfold writtenChars
  by_cases hnil : params = []
  · rw [if_pos hnil]
    exact hname
  · rw [if_neg hnil]
    simp only [List.mem_append, List.mem_cons, hname, hblank, not_mem_joinedChars hcomma hblank h,
      or_self, not_false_eq_true]

end Fields

/-- Neither the name nor a parameter of an instruction holds a line break. -/
structure OneLine (ins : Instruction) : Prop where
  name : '\n' ∉ ins.name.toList
  params : ∀ param ∈ ins.params, '\n' ∉ param.toList

theorem oneLine_of_ofChars? {line : List Char} {ins : Instruction} (hline : '\n' ∉ line)
    (h : Instruction.ofChars? line = some ins) : OneLine ins := by
  obtain ⟨name, params, hscan, -, hparams⟩ := exists_fields_of_ofChars? h
  constructor
  · intro hmem
    exact absurd ((wasRead_of_ofChars? h).fields.isBlank_name _ hmem) (by decide)
  · intro param hparam
    have hfield : param.toList ∈ params.map Text.trimChars := by
      rw [← hparams]
      exact List.mem_map_of_mem hparam
    obtain ⟨raw, hraw, htrimmed⟩ := List.mem_map.1 hfield
    have hraw : raw ∈ scanLine false [] (Text.trimChars line) := by
      rw [hscan]
      exact List.mem_cons_of_mem name hraw
    have htrim : '\n' ∉ Text.trimChars line := fun hmem => hline (Text.mem_of_mem_trimChars hmem)
    rw [← htrimmed]
    intro hmem
    exact not_mem_of_mem_scanLine List.not_mem_nil htrim hraw (Text.mem_of_mem_trimChars hmem)

/-- The written form of an instruction without line breaks is one line. -/
theorem OneLine.newline_not_mem_text {ins : Instruction} (h : OneLine ins) :
    '\n' ∉ ins.text.toList := by
  rw [toList_text]
  refine not_mem_writtenChars (by decide) (by decide) h.name ?_
  intro field hfield
  obtain ⟨param, hparam, rfl⟩ := List.mem_map.1 hfield
  exact h.params param hparam

theorem exists_line_of_mem_ofSource {source : String} {ins : Instruction}
    (h : ins ∈ Program.ofSource source) :
    ∃ line, '\n' ∉ line ∧ Instruction.ofChars? line = some ins := by
  obtain ⟨line, hline, hread⟩ := List.mem_filterMap.1 h
  exact ⟨line, not_mem_of_mem_splitOn hline, hread⟩

end LineGrammar

/-- Whether the written form of an instruction shows all of it: it has a name, and no parameters or
a last one that is not empty. -/
def Instruction.Legible (ins : Instruction) : Prop :=
  ins.name ≠ "" ∧ ins.params.getLast? ≠ some ""

instance (ins : Instruction) : Decidable ins.Legible :=
  instDecidableAnd

theorem LineGrammar.WasRead.ofLine?_text_eq_some_iff {ins : Instruction}
    (h : LineGrammar.WasRead ins) : Instruction.ofLine? ins.text = some ins ↔ ins.Legible := by
  have hlast : (ins.params.map String.toList).getLast? = some []
      ↔ ins.params.getLast? = some "" := by
    rw [List.getLast?_map]
    constructor
    · intro hmap
      obtain ⟨last, hlast, hempty⟩ := Option.map_eq_some_iff.1 hmap
      rw [hlast, String.toList_eq_nil_iff.1 hempty]
    · intro hlast
      rw [hlast]
      rfl
  unfold Instruction.ofLine? Instruction.Legible
  by_cases hname : ins.name = ""
  · refine iff_of_false (h.ofChars?_text_ne_some hname) ?_
    intro hlegible
    exact hlegible.1 hname
  · rw [h.ofChars?_text_eq_some_iff hname, Ne, hlast]
    exact (and_iff_right hname).symm

/-- **Written instructions read back** exactly if their written form shows all of them.  A text of
which all instructions are of this kind may be replaced by the written forms, one a line. -/
theorem written_instructions_read_back (source : String) :
    (∀ ins ∈ Program.ofSource source, Instruction.ofLine? ins.text = some ins ↔ ins.Legible)
      ∧ ((∀ ins ∈ Program.ofSource source, ins.Legible) →
        Program.ofSource
            (String.intercalate "\n" ((Program.ofSource source).map Instruction.text))
          = Program.ofSource source) := by
  have hreads : ∀ ins ∈ Program.ofSource source,
      Instruction.ofLine? ins.text = some ins ↔ ins.Legible := by
    intro ins hins
    obtain ⟨line, -, hline⟩ := LineGrammar.exists_line_of_mem_ofSource hins
    exact (LineGrammar.wasRead_of_ofChars? hline).ofLine?_text_eq_some_iff
  refine ⟨hreads, ?_⟩
  intro hlegible
  generalize hprogram : Program.ofSource source = program at hreads hlegible
  by_cases hnil : program = []
  · rw [hnil]
    rfl
  have hlines : ∀ line ∈ (program.map Instruction.text).map String.toList, '\n' ∉ line := by
    intro line hmem
    rw [List.map_map] at hmem
    obtain ⟨ins, hins, rfl⟩ := List.mem_map.1 hmem
    obtain ⟨read, hread, hins'⟩ := LineGrammar.exists_line_of_mem_ofSource (hprogram ▸ hins)
    exact (LineGrammar.oneLine_of_ofChars? hread hins').newline_not_mem_text
  have hsplit : (String.intercalate "\n" (program.map Instruction.text)).toList.splitOn '\n'
      = (program.map Instruction.text).map String.toList := by
    rw [String.toList_intercalate]
    exact List.splitOn_intercalate '\n' hlines (by simpa only [ne_eq, List.map_eq_nil_iff])
  rw [Program.ofSource, hsplit, List.filterMap_map, List.filterMap_map]
  have hread : ∀ ins ∈ program,
      ((Instruction.ofChars? ∘ String.toList) ∘ Instruction.text) ins = some ins := by
    intro ins hins
    exact (hreads ins hins).2 (hlegible ins hins)
  rw [List.filterMap_congr hread, List.filterMap_some]

/-- A text with a label, apostrophes in a name and in parameters, and comments. -/
def quotingSource : String :=
  "Loop: rest\nMsg'a  b', 'x; y:', c:d ;note\n\n; note\n\tJMP lOOP,, x"

/-- The instructions of such a text read back one by one and together.  Two others do not: one has
no name, the other an empty last parameter. -/
theorem written_instructions_read_back_sample :
    Program.ofSource quotingSource
        = [⟨"loop:", []⟩, ⟨"msg'a", ["b'", "'x; y:'", "cd"]⟩, ⟨"jmp", ["lOOP", "", "x"]⟩]
      ∧ Instruction.ofLine? "msg'a b', 'x; y:', cd" = some ⟨"msg'a", ["b'", "'x; y:'", "cd"]⟩
      ∧ Program.ofSource "loop:\nmsg'a b', 'x; y:', cd\njmp lOOP, , x"
        = Program.ofSource quotingSource
      ∧ Instruction.ofLine? " a" ≠ some ⟨"", ["a"]⟩
      ∧ Instruction.ofLine? "inc x, " ≠ some ⟨"inc", ["x", ""]⟩ := by
  have hprogram : Program.ofSource quotingSource
      = [⟨"loop:", []⟩, ⟨"msg'a", ["b'", "'x; y:'", "cd"]⟩, ⟨"jmp", ["lOOP", "", "x"]⟩] := by
    decide +kernel
  obtain ⟨hreads, htext⟩ := written_instructions_read_back quotingSource
  obtain ⟨hillegible, -⟩ := written_instructions_read_back ", a\ninc x,,"
  have hother : Program.ofSource ", a\ninc x,," = [⟨"", ["a"]⟩, ⟨"inc", ["x", ""]⟩] := by
    decide +kernel
  rw [hprogram] at hreads htext
  rw [hother] at hillegible
  refine ⟨hprogram, ?_, ?_, ?_, ?_⟩
  · exact (hreads ⟨"msg'a", ["b'", "'x; y:'", "cd"]⟩ (by decide)).2 (by decide)
  · rw [hprogram]
    exact htext (by simp only [List.forall_mem_cons]; decide)
  · exact mt (hillegible ⟨"", ["a"]⟩ (by decide)).1 (by decide)
  · exact mt (hillegible ⟨"inc", ["x", ""]⟩ (by decide)).1 (by decide)

end PseudoAsm

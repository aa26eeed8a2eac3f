import PseudoAsm.Machine.Operand
import PseudoAsm.Proofs.Line.Rendering

/-!
# Plain tokens

Names of registers and decimal values mean nothing to the scanner: they hold neither blanks nor
apostrophes, and none of the signs that separate fields.  Letter case is the only thing about them
that can be written in several ways, and the file of registers does not look at it.

* `IsPlain` — a token of ASCII characters without signs;
* `isPlain_of_isIdentifier`, `IsPlain.of_toLower_eq` — ASCII identifiers in any letter case are
  plain;
* `key_eq_toLower` — a plain name is looked up by its ASCII lowercase form;
* `int32?_toString`, `isPlain_toString` — **the decimal text of every value reads back**,
  and it is plain;
* `IsField`, `IsPlain.isField`, `isField_quoted` — a text that is one parameter wherever it stands:
  a plain token, or **whatever stands between two apostrophes**;
* `ofLine?_standard` — a standard instruction whose parameters are fields reads back.
-/

namespace PseudoAsm

/-! ### ASCII characters -/

/-- What holds of the first 128 code points holds of every ASCII character. -/
theorem forall_ascii (p : Char → Prop) (h : ∀ n < 128, p (Char.ofNat n)) {c : Char}
    (hc : c.toNat < 128) : p c := by
  rw [← Char.ofNat_toNat c]
  exact h c.toNat hc

def isAscii (s : String) : Bool :=
  s.toList.all fun c => decide (c.toNat < 128)

/-- An ASCII character that means nothing to the scanner. -/
def IsPlainChar (c : Char) : Prop :=
  c.toNat < 128 ∧ LineGrammar.isSign c = false

instance (c : Char) : Decidable (IsPlainChar c) :=
  instDecidableAnd

theorem isPlainChar_of_word {c : Char} (hc : c.toNat < 128)
    (hword : (Text.isAlphanumeric c || c == '_') = true) : IsPlainChar c := by
  revert hword
  exact forall_ascii (fun c => (Text.isAlphanumeric c || c == '_') = true → IsPlainChar c)
    (by decide +kernel) hc

/-- Only ASCII letters have another ASCII lowercase form. -/
theorem toLower_eq_self {c : Char} (hc : ¬c.toNat < 128) : c.toLower = c := by
  have hle : ¬(c.val ≥ 'A'.val ∧ c.val ≤ 'Z'.val) := by
    rintro ⟨-, hupper⟩
    have hnat : c.val.toNat ≤ 'Z'.val.toNat := hupper
    have hcode : 'Z'.val.toNat = 90 := rfl
    have htoNat : c.toNat = c.val.toNat := rfl
    omega
  exact dif_neg hle

theorem isPlainChar_toLower_iff {c : Char} : IsPlainChar c.toLower ↔ IsPlainChar c := by
  by_cases hc : c.toNat < 128
  · exact forall_ascii (fun c => IsPlainChar c.toLower ↔ IsPlainChar c) (by decide +kernel) hc
  · rw [toLower_eq_self hc]

/-- Of an ASCII text only the ASCII capitals have another lowercase form. -/
theorem lowerChars_eq_map_toLower {cs : List Char} (h : ∀ c ∈ cs, c.toNat < 128) :
    Text.lowerChars cs = cs.map Char.toLower := by
  have hchar {c : Char} (hc : c.toNat < 128) : c ≠ 'Σ' ∧ Text.lowerChar c = [c.toLower] :=
    forall_ascii (fun c => c ≠ 'Σ' ∧ Text.lowerChar c = [c.toLower]) (by decide +kernel) hc
  unfold Text.lowerChars
  generalize false = before
  induction cs generalizing before with
  | nil => rfl
  | cons c rest ih =>
    obtain ⟨hsigma, hlower⟩ := hchar (h c List.mem_cons_self)
    have hrest : ∀ d ∈ rest, d.toNat < 128 := by
      intro d hd
      exact h d (List.mem_cons_of_mem c hd)
    rw [Text.lowerFrom_cons, Text.lowerIn, if_neg hsigma, hlower, ih hrest]
    rfl

/-! ### Tokens -/

/-- A token of ASCII characters that mean nothing to the scanner. -/
structure IsPlain (token : String) : Prop where
  ne_empty : token ≠ ""
  chars : ∀ c ∈ token.toList, IsPlainChar c

/-- ASCII identifiers are plain. -/
theorem isPlain_of_isIdentifier {name : String} (hascii : isAscii name = true)
    (hname : isIdentifier name = true) : IsPlain name := by
  unfold isIdentifier at hname
  cases hchars : name.toList with
  | nil => rw [hchars] at hname; cases hname
  | cons first rest =>
    rw [hchars, Bool.and_eq_true, List.all_eq_true] at hname
    obtain ⟨hfirst, hrest⟩ := hname
    have hwords : ∀ c ∈ name.toList, (Text.isAlphanumeric c || c == '_') = true := by
      rw [hchars]
      intro c hc
      rcases List.mem_cons.1 hc with rfl | hc
      · rw [Bool.or_eq_true] at hfirst ⊢
        rw [Text.isAlphanumeric, Bool.or_eq_true]
        exact hfirst.imp_left Or.inl
      · exact hrest c hc
    constructor
    · rw [Ne, ← String.toList_eq_nil_iff, hchars]
      exact List.cons_ne_nil first rest
    · intro c hc
      have hc128 : c.toNat < 128 := of_decide_eq_true (List.all_eq_true.1 hascii c hc)
      exact isPlainChar_of_word hc128 (hwords c hc)

theorem toLower_eq_iff {s t : String} :
    s.toLower = t.toLower ↔ s.toList.map Char.toLower = t.toList.map Char.toLower := by
  rw [← String.toList_map, ← String.toList_map, String.toList_inj]
  exact Iff.rfl

/-- A plain token is plain in any letter case. -/
theorem IsPlain.of_toLower_eq {name spelling : String} (h : IsPlain name)
    (hspelling : spelling.toLower = name.toLower) : IsPlain spelling := by
  have hmap := toLower_eq_iff.1 hspelling
  constructor
  · rw [Ne, ← String.toList_eq_nil_iff, ← List.map_eq_nil_iff, hmap, List.map_eq_nil_iff,
      String.toList_eq_nil_iff]
    exact h.ne_empty
  · intro c hc
    have hmem : c.toLower ∈ name.toList.map Char.toLower := by
      rw [← hmap]
      exact List.mem_map_of_mem hc
    obtain ⟨d, hd, hlower⟩ := List.mem_map.1 hmem
    rw [← isPlainChar_toLower_iff, ← hlower, isPlainChar_toLower_iff]
    exact h.chars d hd

theorem IsPlain.isBlank_eq_false {token : String} (h : IsPlain token) :
    ∀ c ∈ token.toList, Text.isBlank c = false := by
  intro c hc
  have hsign := (h.chars c hc).2
  simp only [LineGrammar.isSign, Bool.or_eq_false_iff] at hsign
  exact hsign.1.1.1.1

theorem IsPlain.newline_not_mem {token : String} (h : IsPlain token) : '\n' ∉ token.toList := by
  intro hmem
  exact absurd (h.isBlank_eq_false '\n' hmem) (by decide)

theorem IsPlain.ne_apostrophe {token : String} (h : IsPlain token) :
    ∀ c ∈ token.toList, c ≠ '\'' := by
  intro c hc
  have hsign := (h.chars c hc).2
  simp only [LineGrammar.isSign, Bool.or_eq_false_iff, beq_eq_false_iff_ne] at hsign
  exact hsign.1.1.1.2

theorem IsPlain.trim_eq_self {token : String} (h : IsPlain token) : Text.trim token = token := by
  rw [← String.toList_inj, Text.toList_trim, Text.trimChars_eq_self h.isBlank_eq_false]

/-- **A plain name is looked up by its lowercase form.** -/
theorem key_eq_toLower {name : String} (h : IsPlain name) :
    RegisterFile.key name = name.toLower := by
  have hascii : ∀ c ∈ name.toList, c.toNat < 128 := by
    intro c hc
    exact (h.chars c hc).1
  rw [RegisterFile.key, h.trim_eq_self, ← String.toList_inj, Text.toList_lower,
    lowerChars_eq_map_toLower hascii]
  exact String.toList_map.symm

/-! ### Decimal values -/

theorem toList_toString_ofNat (n : Nat) : (toString (Int.ofNat n)).toList = Nat.toDigits 10 n := by
  rw [Int.toString_eq_repr]
  show n.repr.toList = Nat.toDigits 10 n
  rw [Nat.repr_eq_ofList_toDigits, String.toList_ofList]

theorem toList_toString_negSucc (n : Nat) :
    (toString (Int.negSucc n)).toList = '-' :: Nat.toDigits 10 (n + 1) := by
  rw [Int.toString_eq_repr]
  show ("-" ++ (n + 1).repr).toList = '-' :: Nat.toDigits 10 (n + 1)
  rw [String.toList_append, Nat.repr_eq_ofList_toDigits, String.toList_ofList, String.toList_ofList]
  rfl

/-- A numeral without a sign is read as such. -/
theorem int32?_of_all_isDigit {text : String} (h : text.toList.all Char.isDigit = true) :
    Numeral.int32? text = (Numeral.natBelow? Numeral.int32Bound text.toList).map Int32.ofNat := by
  refine Numeral.int32?_of_not_minus ?_
  intro hhead
  have hminus : Char.isDigit '-' = true := List.all_eq_true.1 h '-' (List.mem_of_head? hhead)
  exact absurd hminus (by decide)

/-- **The decimal text of every value reads back**, that of the least one included. -/
theorem int32?_toString (v : Int32) : Numeral.int32? (toString v.toInt) = some v := by
  have hlower : -2 ^ 31 ≤ v.toInt := v.le_toInt
  have hupper : v.toInt < 2 ^ 31 := v.toInt_lt
  have hv : Int32.ofInt v.toInt = v := Int32.ofInt_toInt v
  have hbound : Numeral.int32Bound = 2 ^ 31 := by decide
  generalize v.toInt = value at hlower hupper hv ⊢
  cases value with
  | ofNat n =>
    rw [Int.ofNat_eq_natCast] at hupper
    have hlt : n < Numeral.int32Bound := by omega
    have hdigits : (toString (Int.ofNat n)).toList.all Char.isDigit = true := by
      rw [toList_toString_ofNat, Numeral.all_isDigit_toDigits]
    rw [int32?_of_all_isDigit hdigits, toList_toString_ofNat, Numeral.natBelow?_toDigits hlt,
      Option.map_some, ← hv]
    rfl
  | negSucc n =>
    have hle : n + 1 ≤ Numeral.int32Bound := by omega
    unfold Numeral.int32?
    rw [toList_toString_negSucc]
    show (Numeral.digits? (Nat.toDigits 10 (n + 1))).bind _ = _
    rw [Numeral.digits?_toDigits, Option.bind_some, if_pos hle, ← hv]
    rfl

theorem isPlainChar_of_isDigit {c : Char} (h : c.isDigit = true) : IsPlainChar c := by
  have hascii : c.toNat < 128 := by
    simp only [Char.isDigit, Bool.and_eq_true, decide_eq_true_eq] at h
    have hle : c.val.toNat ≤ 57 := h.2
    have htoNat : c.toNat = c.val.toNat := rfl
    omega
  apply isPlainChar_of_word hascii
  rw [Text.isAlphanumeric, Text.isNumeric_of_isDigit h, Bool.or_true, Bool.true_or]

theorem isPlain_toString (value : Int) : IsPlain (toString value) := by
  have hdigits {n : Nat} {c : Char} (hc : c ∈ Nat.toDigits 10 n) : IsPlainChar c :=
    isPlainChar_of_isDigit (List.all_eq_true.1 (Numeral.all_isDigit_toDigits n) c hc)
  cases value with
  | ofNat n =>
    constructor
    · rw [Ne, ← String.toList_eq_nil_iff, toList_toString_ofNat]
      exact Nat.toDigits_ne_nil
    · rw [toList_toString_ofNat]
      intro c hc
      exact hdigits hc
  | negSucc n =>
    constructor
    · rw [Ne, ← String.toList_eq_nil_iff, toList_toString_negSucc]
      exact List.cons_ne_nil _ _
    · rw [toList_toString_negSucc]
      intro c hc
      rcases List.mem_cons.1 hc with rfl | hc
      · decide +kernel
      · exact hdigits hc

/-! ### Fields -/

namespace LineGrammar

/-- Characters without apostrophes are all marked alike. -/
theorem throughout_of_forall_ne {p : MarkedChar → Bool} {quoted : Bool} {cs : List Char}
    (hne : ∀ c ∈ cs, c ≠ '\'') (hp : ∀ c ∈ cs, p ⟨c, quoted⟩ = true) :
    Throughout p quoted cs := by
  induction cs with
  | nil => exact throughout_nil
  | cons c rest ih =>
    have hc : (c == '\'') = false := beq_false_of_ne (hne c List.mem_cons_self)
    rw [throughout_cons, hc, Bool.xor_false]
    refine ⟨hp c List.mem_cons_self, ih ?_ ?_⟩
    · intro d hd
      exact hne d (List.mem_cons_of_mem c hd)
    · intro d hd
      exact hp d (List.mem_cons_of_mem c hd)

theorem isKept_of_isSign {c : Char} (h : isSign c = false) :
    MarkedChar.isKept ⟨c, false⟩ = true := by
  simp only [isSign, Bool.or_eq_false_iff] at h
  obtain ⟨⟨⟨⟨hblank, -⟩, hcomma⟩, hsemicolon⟩, hcolon⟩ := h
  simp only [MarkedChar.isKept, MarkedChar.startsComment, MarkedChar.isDropped,
    MarkedChar.separates, hblank, hcomma, hsemicolon, hcolon, Bool.or_self, Bool.and_false,
    Bool.not_false, Bool.and_self]

/-- What can belong to a parameter, blanks apart, can belong to a name. -/
theorem throughout_staysInName {token : String} (h : IsPlain token) :
    Throughout MarkedChar.staysInName false token.toList := by
  apply throughout_of_forall_ne h.ne_apostrophe
  intro c hc
  exact staysInName_of_isKept (h.isBlank_eq_false c hc) (isKept_of_isSign (h.chars c hc).2)

end LineGrammar

open LineGrammar

/-- A text that is one parameter wherever it stands among others. -/
structure IsField (param : String) : Prop where
  ne_empty : param ≠ ""
  trimmed : Text.trim param = param
  kept : Throughout MarkedChar.isKept false param.toList
  closed : quotedAfter false param.toList = false

/-- Plain tokens are fields. -/
theorem IsPlain.isField {token : String} (h : IsPlain token) : IsField token where
  ne_empty := h.ne_empty
  trimmed := h.trim_eq_self
  kept := by
    apply throughout_of_forall_ne h.ne_apostrophe
    intro c hc
    exact isKept_of_isSign (h.chars c hc).2
  closed := quotedAfter_of_forall_ne h.ne_apostrophe

theorem toList_quoted (s : String) : ("'" ++ s ++ "'").toList = '\'' :: (s.toList ++ ['\'']) := by
  rw [String.toList_append, String.toList_append]
  rfl

/-- **Whatever stands between two apostrophes is a field**, unless it holds another. -/
theorem isField_quoted {s : String} (h : '\'' ∉ s.toList) : IsField ("'" ++ s ++ "'") := by
  have hne : ∀ c ∈ s.toList, c ≠ '\'' := by
    rintro c hc rfl
    exact h hc
  have hopen : quotedAfter true s.toList = true := quotedAfter_of_forall_ne hne
  constructor
  · rw [Ne, ← String.toList_eq_nil_iff, toList_quoted]
    exact List.cons_ne_nil _ _
  · rw [← String.toList_inj, Text.toList_trim, toList_quoted, Text.trimChars,
      Text.trimStart_cons_of_not_blank (by decide), ← List.cons_append,
      Text.trimEnd_concat (by decide)]
  · rw [toList_quoted, throughout_cons]
    refine ⟨rfl, ?_⟩
    show Throughout MarkedChar.isKept true (s.toList ++ ['\''])
    rw [throughout_append, hopen, throughout_singleton]
    exact ⟨throughout_of_forall_ne hne fun c _ => rfl, rfl⟩
  · rw [toList_quoted]
    show quotedAfter true (s.toList ++ ['\'']) = false
    rw [quotedAfter_append, hopen]
    rfl

theorem fields_of_forall {params : List String} (h : ∀ param ∈ params, IsField param) :
    Fields false (params.map String.toList) := by
  induction params with
  | nil => trivial
  | cons param rest ih =>
    obtain ⟨hparam, hrest⟩ := List.forall_mem_cons.1 h
    exact ⟨hparam.kept, fun _ => hparam.closed, ih hrest⟩

/-! ### Standard instructions -/

theorem isPlain_mnemonic (op : Operation) : IsPlain op.mnemonic := by
  apply isPlain_of_isIdentifier
  · cases op <;> decide +kernel
  · cases op <;> decide +kernel

theorem lower_mnemonic (op : Operation) : Text.lower op.mnemonic = op.mnemonic := by
  cases op <;> decide +kernel

/-- **A standard instruction whose parameters are fields reads back.** -/
theorem ofLine?_standard (op : Operation) {params : List String}
    (h : ∀ param ∈ params, IsField param) :
    Instruction.ofLine? (Instruction.text ⟨op.mnemonic, params⟩) = some ⟨op.mnemonic, params⟩ := by
  have hname := isPlain_mnemonic op
  have hfields := fields_of_forall h
  have hread : WasRead ⟨op.mnemonic, params⟩ := by
    refine ⟨.instruction (throughout_staysInName hname) ?_, lower_mnemonic op, ?_⟩
    · rw [quotedAfter_of_forall_ne hname.ne_apostrophe]
      exact hfields
    · intro param hparam
      exact (h param hparam).trimmed
  refine hread.ofLine?_text_eq_some_iff.2 ⟨hname.ne_empty, ?_⟩
  intro hlast
  exact (h "" (List.mem_of_getLast? hlast)).ne_empty rfl

end PseudoAsm

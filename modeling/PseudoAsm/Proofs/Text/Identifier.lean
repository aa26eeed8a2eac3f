import PseudoAsm.Machine.Operand
import PseudoAsm.Proofs.Text.Lowercase

/-!
# Identifiers in another letter case

Whether a token reads as a register name depends on letters only through what they are, and a
letter stays a letter in lowercase.  There is one exception: the lowercase form of `İ` ends in a
combining dot, which is no part of an identifier.  So the question can be asked of the lowercase
form, as long as no such dot stands in the token itself.

* `isAlphabetic_of_isCased`, `isAlphabetic_of_lowerChar_ne` — cased characters are alphabetic, and
  so are all that have another lowercase form;
* `exists_filter_lowerIn` — what becomes of one character, combining dots aside;
* `isIdentifier_eq_false_of_dot` — no identifier holds a combining dot;
* `isIdentifier_congr` — **tokens with one lowercase form are identifiers alike**, unless one holds
  a combining dot and the other does not.
-/

namespace PseudoAsm.Text

/-! ### Letters -/

/-- All cased characters are alphabetic. -/
theorem isAlphabetic_of_isCased {c : Char} (h : isCased c = true) : isAlphabetic c = true := by
  have htable : casedRanges.all (fun r => coversAll alphabeticRanges r.1 r.2) = true := by
    decide +kernel
  obtain ⟨r, hr, hfirst, hlast⟩ := exists_range_of_covers h
  exact covers_of_coversAll (List.all_eq_true.1 htable r hr) hfirst hlast

/-- Whether all code points that a run maps are cased: the whole stretch is, or each of them. -/
def CaseRun.isCased (run : CaseRun) : Bool :=
  coversAll casedRanges run.first run.last
    || (List.range (run.last - run.first + 1)).all fun k =>
      k % run.step != 0 || coversAll casedRanges (run.first + k) (run.first + k)

theorem lowerRuns_isCased : ∀ run ∈ lowerRuns, run.isCased = true := by
  rw [← List.all_eq_true]
  decide +kernel

/-- What the table maps is cased. -/
theorem covers_casedRanges_of_maps {run : CaseRun} (hrun : run ∈ lowerRuns) {n m : Nat}
    (hmaps : run.Maps n m) : covers casedRanges n = true := by
  obtain ⟨k, hk, hstep, rfl, -⟩ := hmaps
  have hcased := lowerRuns_isCased run hrun
  rw [CaseRun.isCased, Bool.or_eq_true] at hcased
  rcases hcased with hstretch | hpoints
  · have hordered : run.first ≤ run.last := by
      have hsound := lowerRuns_isSound run hrun
      simp only [CaseRun.isSound, Bool.and_eq_true, decide_eq_true_eq] at hsound
      exact hsound.1.1.1.1
    exact covers_of_coversAll hstretch (by omega) (by omega)
  · have hpoint := List.all_eq_true.1 hpoints k (List.mem_range.2 (by omega))
    have hcovers : coversAll casedRanges (run.first + k) (run.first + k) = true := by
      simpa [hstep] using hpoint
    exact covers_of_coversAll hcovers (Nat.le_refl _) (Nat.le_refl _)

/-- A character with another lowercase form is alphabetic. -/
theorem isAlphabetic_of_lowerChar_ne {c : Char} (h : lowerChar c ≠ [c]) :
    isAlphabetic c = true := by
  by_cases hdotted : c = 'İ'
  · rw [hdotted]
    decide +kernel
  · rcases lowerCodeIn_eq_or lowerRuns c.toNat with hself | ⟨run, hrun, hmaps⟩
    · exact absurd (lowerChar_of_lowerCode hdotted hself) h
    · exact isAlphabetic_of_isCased (covers_casedRanges_of_maps hrun hmaps)

/-! ### One character in a text -/

/-- Whether a character is other than the combining dot. -/
def isNoDot (c : Char) : Bool :=
  c != '\u0307'

/-- A character leaves one behind, combining dots aside: itself, or a letter for a letter. -/
theorem exists_filter_lowerIn (before : Bool) {c : Char} (hdot : c ≠ '\u0307') (rest : List Char) :
    ∃ d, (lowerIn before c rest).filter isNoDot = [d]
      ∧ (d = c ∨ isAlphabetic c = true ∧ isAlphabetic d = true) := by
  have hletter {d : Char} (h : isCased d = true) : isNoDot d = true := by
    rw [isNoDot, bne_iff_ne]
    rintro rfl
    exact absurd h (by decide +kernel)
  unfold lowerIn
  by_cases hsigma : c = 'Σ'
  · rw [if_pos hsigma, hsigma]
    cases before && !casedAhead rest
    · exact ⟨'σ', by decide, .inr (by decide +kernel)⟩
    · exact ⟨'ς', by decide, .inr (by decide +kernel)⟩
  rw [if_neg hsigma]
  by_cases hself : lowerChar c = [c]
  · refine ⟨c, ?_, .inl rfl⟩
    rw [hself, List.filter_singleton, isNoDot, bne_iff_ne.2 hdot]
    rfl
  · have halphabetic := isAlphabetic_of_lowerChar_ne hself
    by_cases hdotted : c = 'İ'
    · refine ⟨'i', ?_, .inr ⟨halphabetic, by decide +kernel⟩⟩
      rw [hdotted]
      decide
    · rcases lowerCodeIn_eq_or lowerRuns c.toNat with hsame | ⟨run, hrun, hmaps⟩
      · exact absurd (lowerChar_of_lowerCode hdotted hsame) hself
      · obtain ⟨-, hcased⟩ := isLower_of_isLowerLetter (isLowerLetter_of_maps hrun hmaps)
        refine ⟨Char.ofNat (lowerCode c.toNat), ?_,
          .inr ⟨halphabetic, isAlphabetic_of_isCased hcased⟩⟩
        rw [lowerChar, if_neg hdotted, List.filter_singleton]
        simp [hletter (show isCased (Char.ofNat (lowerCode c.toNat)) = true from hcased)]

/-! ### Identifiers -/

/-- Whether an identifier can start with a character. -/
def startsIdentifier (c : Char) : Bool :=
  isAlphabetic c || c == '_'

/-- Whether a character can stand in an identifier. -/
def continuesIdentifier (c : Char) : Bool :=
  isAlphanumeric c || c == '_'

/-- Whether characters read as an identifier. -/
def identifierChars : List Char → Bool
  | [] => false
  | c :: rest => startsIdentifier c && rest.all continuesIdentifier

theorem isIdentifier_eq (token : String) : isIdentifier token = identifierChars token.toList := rfl

theorem classes_eq {c d : Char} (h : d = c ∨ isAlphabetic c = true ∧ isAlphabetic d = true) :
    startsIdentifier d = startsIdentifier c ∧ continuesIdentifier d = continuesIdentifier c := by
  rcases h with rfl | ⟨hc, hd⟩
  · exact ⟨rfl, rfl⟩
  · simp [startsIdentifier, continuesIdentifier, isAlphanumeric, hc, hd]

section Dots

variable {cs : List Char} (hdots : '\u0307' ∉ cs)

include hdots

theorem all_filter_lowerFrom (before : Bool) :
    ((lowerFrom before cs).filter isNoDot).all continuesIdentifier
      = cs.all continuesIdentifier := by
  induction cs generalizing before with
  | nil => rfl
  | cons c rest ih =>
    rw [List.mem_cons, not_or] at hdots
    obtain ⟨d, hd, hclass⟩ := exists_filter_lowerIn before (Ne.symm hdots.1) rest
    rw [lowerFrom_cons, List.filter_append, List.all_append, hd, ih hdots.2]
    simp [(classes_eq hclass).2]

/-- The lowercase form tells whether a text without combining dots is an identifier. -/
theorem identifierChars_filter_lowerChars :
    identifierChars ((lowerChars cs).filter isNoDot) = identifierChars cs := by
  cases cs with
  | nil => rfl
  | cons c rest =>
    rw [List.mem_cons, not_or] at hdots
    obtain ⟨d, hd, hclass⟩ := exists_filter_lowerIn false (Ne.symm hdots.1) rest
    rw [lowerChars, lowerFrom_cons, List.filter_append, hd, List.singleton_append, identifierChars,
      identifierChars, all_filter_lowerFrom hdots.2, (classes_eq hclass).1]

end Dots

end PseudoAsm.Text

namespace PseudoAsm

variable {s t : String}

/-- No identifier holds a combining dot. -/
theorem isIdentifier_eq_false_of_dot (h : '\u0307' ∈ s.toList) : isIdentifier s = false := by
  have hstarts : Text.startsIdentifier '\u0307' = false := by decide +kernel
  have hcontinues : Text.continuesIdentifier '\u0307' = false := by decide +kernel
  rw [Text.isIdentifier_eq]
  cases hchars : s.toList with
  | nil => rfl
  | cons c rest =>
    rw [hchars, List.mem_cons] at h
    rw [Text.identifierChars, Bool.and_eq_false_iff]
    rcases h with rfl | hrest
    · exact .inl hstarts
    · right
      rw [List.all_eq_false]
      exact ⟨_, hrest, by simp [hcontinues]⟩

/-- **Tokens with one lowercase form are identifiers alike**, unless a combining dot stands in one
of them and not in the other. -/
theorem isIdentifier_congr (h : Text.lower s = Text.lower t)
    (hdots : '\u0307' ∈ s.toList ↔ '\u0307' ∈ t.toList) : isIdentifier s = isIdentifier t := by
  by_cases hs : '\u0307' ∈ s.toList
  · rw [isIdentifier_eq_false_of_dot hs, isIdentifier_eq_false_of_dot (hdots.1 hs)]
  · have ht : '\u0307' ∉ t.toList := fun ht => hs (hdots.2 ht)
    rw [Text.isIdentifier_eq, Text.isIdentifier_eq, ← Text.identifierChars_filter_lowerChars hs,
      Text.lowerChars_eq_of_lower_eq h, Text.identifierChars_filter_lowerChars ht]

end PseudoAsm

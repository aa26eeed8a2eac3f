import Mathlib.Data.List.DropRight
import PseudoAsm.Text.Blank

/-!
# Trimmed texts

Trimming takes nothing but blanks, and takes them all at once.

* `exists_blanks_around_trimChars` — a text is its trimmed form between two runs of blanks;
* `trimStart_trimChars`, `trimEnd_trimChars` — nothing is left to trim at either end;
* `trimEnd_append_of_ne_nil`, `trimEnd_append_of_eq_nil`, `trimEnd_append_of_eq_self` — the end of a
  text in two parts;
* `trimChars_between_blanks`, `trimChars_append_cons` — a text between blanks, and one around a
  character that is not blank.
-/

namespace PseudoAsm.Text

theorem trimEnd_eq_rdropWhile (cs : List Char) : trimEnd cs = cs.rdropWhile isBlank := rfl

/-! ### What trimming takes -/

theorem exists_blanks_before_trimStart (cs : List Char) :
    ∃ blanks, cs = blanks ++ trimStart cs ∧ ∀ c ∈ blanks, isBlank c = true := by
  refine ⟨cs.takeWhile isBlank, List.takeWhile_append_dropWhile.symm, ?_⟩
  intro c hc
  exact List.mem_takeWhile_imp hc

theorem exists_blanks_after_trimEnd (cs : List Char) :
    ∃ blanks, cs = trimEnd cs ++ blanks ∧ ∀ c ∈ blanks, isBlank c = true := by
  obtain ⟨blanks, hsplit, hblanks⟩ := exists_blanks_before_trimStart cs.reverse
  refine ⟨blanks.reverse, ?_, ?_⟩
  · have h := congrArg List.reverse hsplit
    rw [List.reverse_reverse, List.reverse_append] at h
    exact h
  · intro c hc
    exact hblanks c (List.mem_reverse.1 hc)

/-- A text is its trimmed form between two runs of blanks. -/
theorem exists_blanks_around_trimChars (cs : List Char) :
    ∃ before after, cs = before ++ (trimChars cs ++ after)
      ∧ (∀ c ∈ before, isBlank c = true) ∧ ∀ c ∈ after, isBlank c = true := by
  obtain ⟨before, hbefore, hblank⟩ := exists_blanks_before_trimStart cs
  obtain ⟨after, hafter, hblank'⟩ := exists_blanks_after_trimEnd (trimStart cs)
  exact ⟨before, after, hbefore.trans (congrArg _ hafter), hblank, hblank'⟩

theorem mem_of_mem_trimChars {c : Char} {cs : List Char} (h : c ∈ trimChars cs) : c ∈ cs := by
  obtain ⟨before, after, hsplit, -, -⟩ := exists_blanks_around_trimChars cs
  rw [hsplit]
  exact List.mem_append_right _ (List.mem_append_left _ h)

/-! ### Trimmed texts -/

theorem trimEnd_trimEnd (cs : List Char) : trimEnd (trimEnd cs) = trimEnd cs := by
  simp only [trimEnd_eq_rdropWhile, List.rdropWhile_idempotent]

/-- Nothing is left to trim at the end. -/
theorem trimEnd_trimChars (cs : List Char) : trimEnd (trimChars cs) = trimChars cs :=
  trimEnd_trimEnd _

theorem trimStart_cons_of_not_blank {c : Char} (hc : isBlank c = false) (cs : List Char) :
    trimStart (c :: cs) = c :: cs := by
  rw [trimStart, List.dropWhile_cons_of_neg (by rw [hc]; decide)]

theorem trimStart_cons_of_blank {c : Char} (hc : isBlank c = true) (cs : List Char) :
    trimStart (c :: cs) = trimStart cs := by
  rw [trimStart, List.dropWhile_cons_of_pos hc]
  rfl

theorem isBlank_of_trimStart_cons {c : Char} {cs : List Char}
    (h : trimStart (c :: cs) = c :: cs) : isBlank c = false := by
  have hhead := List.head?_dropWhile_not isBlank (c :: cs)
  rw [← trimStart, h] at hhead
  exact hhead

/-- Nothing is left to trim at the start: the first character of a text trimmed at its start is not
blank, and trimming the end takes it only if it takes all. -/
theorem trimStart_trimChars (cs : List Char) : trimStart (trimChars cs) = trimChars cs := by
  cases hstart : trimStart cs with
  | nil =>
    rw [trimChars, hstart]
    rfl
  | cons c rest =>
    have hc : isBlank c = false := by
      have hhead := List.head?_dropWhile_not isBlank cs
      rw [← trimStart, hstart] at hhead
      exact hhead
    obtain ⟨after, hafter, -⟩ := exists_blanks_after_trimEnd (c :: rest)
    rw [trimChars, hstart]
    cases hend : trimEnd (c :: rest) with
    | nil => rfl
    | cons d others =>
      rw [hend, List.cons_append, List.cons.injEq] at hafter
      exact trimStart_cons_of_not_blank (hafter.1 ▸ hc) others

theorem trimChars_trimChars (cs : List Char) : trimChars (trimChars cs) = trimChars cs := by
  rw [trimChars, trimStart_trimChars, trimEnd_trimChars]

/-! ### The end of a text in two parts -/

theorem trimEnd_append_of_ne_nil {b : List Char} (hb : trimEnd b ≠ []) (a : List Char) :
    trimEnd (a ++ b) = a ++ trimEnd b := by
  have hreverse : b.reverse.dropWhile isBlank ≠ [] := by
    intro h
    exact hb (by rw [trimEnd, h]; rfl)
  rw [trimEnd, List.reverse_append, List.dropWhile_append,
    if_neg (by rw [List.isEmpty_iff]; exact hreverse), List.reverse_append, List.reverse_reverse]
  rfl

theorem trimEnd_append_of_eq_nil {b : List Char} (hb : trimEnd b = []) (a : List Char) :
    trimEnd (a ++ b) = trimEnd a := by
  have hreverse : b.reverse.dropWhile isBlank = [] := List.reverse_eq_nil_iff.1 hb
  rw [trimEnd, List.reverse_append, List.dropWhile_append,
    if_pos (by rw [List.isEmpty_iff]; exact hreverse)]
  rfl

/-- What ends in no blank is kept, and trimming goes on behind it. -/
theorem trimEnd_append_of_eq_self {a : List Char} (ha : trimEnd a = a) (b : List Char) :
    trimEnd (a ++ b) = a ++ trimEnd b := by
  by_cases hb : trimEnd b = []
  · rw [trimEnd_append_of_eq_nil hb, hb, ha, List.append_nil]
  · exact trimEnd_append_of_ne_nil hb a

theorem trimEnd_concat {c : Char} (hc : isBlank c = false) (a : List Char) :
    trimEnd (a ++ [c]) = a ++ [c] := by
  have hend : trimEnd [c] = [c] := by
    rw [trimEnd, List.reverse_singleton, ← trimStart, trimStart_cons_of_not_blank hc]
    rfl
  rw [trimEnd_append_of_ne_nil (by rw [hend]; exact List.cons_ne_nil c []), hend]

theorem trimEnd_cons {c : Char} (hc : isBlank c = false) (cs : List Char) :
    trimEnd (c :: cs) = c :: trimEnd cs :=
  trimEnd_append_of_eq_self (trimEnd_concat hc []) cs

/-! ### Texts between blanks -/

theorem trimEnd_eq_nil_of_forall {cs : List Char} (h : ∀ c ∈ cs, isBlank c = true) :
    trimEnd cs = [] := by
  rw [trimEnd_eq_rdropWhile, List.rdropWhile_eq_nil_iff]
  exact h

theorem trimStart_eq_nil_iff {cs : List Char} : trimStart cs = [] ↔ ∀ c ∈ cs, isBlank c = true :=
  List.dropWhile_eq_nil_iff

/-- Trimming a text at its end leaves something of it unless it is trimmed away at its start. -/
theorem trimStart_eq_nil_of_trimChars {cs : List Char} (h : trimChars cs = []) :
    trimStart cs = [] := by
  obtain ⟨after, hsplit, hafter⟩ := exists_blanks_after_trimEnd (trimStart cs)
  rw [← trimChars, h, List.nil_append] at hsplit
  have hagain : trimStart (trimStart cs) = trimStart cs := List.dropWhile_idempotent _ _
  rw [← hagain, trimStart_eq_nil_iff, hsplit]
  exact hafter

/-- What stands in front of a text that begins with no blank is trimmed alone. -/
theorem trimStart_append_of_eq_self {b : List Char} (hb : trimStart b = b) (a : List Char) :
    trimStart (a ++ b) = trimStart a ++ b := by
  rw [trimStart, List.dropWhile_append, ← trimStart, ← trimStart]
  split
  · next hempty => rw [hb, List.isEmpty_iff.1 hempty, List.nil_append]
  · rfl

/-- **Blanks around a text are trimmed away with its own.** -/
theorem trimChars_between_blanks {left right : List Char} (hleft : ∀ c ∈ left, isBlank c = true)
    (hright : ∀ c ∈ right, isBlank c = true) (cs : List Char) :
    trimChars (left ++ (cs ++ right)) = trimChars cs := by
  have hstart : trimStart (left ++ (cs ++ right)) = trimStart (cs ++ right) :=
    List.dropWhile_append_of_pos hleft
  rw [trimChars, hstart, trimStart, List.dropWhile_append, ← trimStart, ← trimStart]
  split
  · next hempty =>
    rw [trimStart_eq_nil_iff.2 hright, trimChars, List.isEmpty_iff.1 hempty]
  · rw [trimEnd_append_of_eq_nil (trimEnd_eq_nil_of_forall hright), trimChars]

/-- Trimming a text around a character that is not blank trims what stands before it at the start
and what stands behind it at the end. -/
theorem trimChars_append_cons {c : Char} (hc : isBlank c = false) (a b : List Char) :
    trimChars (a ++ c :: b) = trimStart a ++ c :: trimEnd b := by
  have hend : trimEnd (c :: b) = c :: trimEnd b := trimEnd_cons hc b
  rw [trimChars, trimStart_append_of_eq_self (trimStart_cons_of_not_blank hc b),
    trimEnd_append_of_ne_nil (by rw [hend]; exact List.cons_ne_nil _ _), hend]

end PseudoAsm.Text

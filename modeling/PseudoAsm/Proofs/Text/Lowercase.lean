import PseudoAsm.Proofs.Text.Trimming
import PseudoAsm.Text.Lowercase

/-!
# Lowercase forms

The lowercase mapping turns letters into letters and leaves everything else alone, and what it has
produced it leaves alone too.

* `lowerRuns_isSound` — what the table says, checked stretch by stretch;
* `lowerIn_eq_or` — a character of a text is left alone, or it becomes lowercase letters;
* `lowerChars_lowerChars` — **lowercase text is its own lowercase form**;
* `filter_lowerChars` — characters that are no letters stay what and where they are;
* `eq_of_lower_eq` — a text without letters is the lowercase form of no other;
* `dropWhile_lowerChars`, `rdropWhile_lowerChars` — characters that are no letters can be taken from
  the ends of a text before or after it is made lowercase;
* `trimChars_lowerChars` — **trimming and lowercase do not get in each other's way**.
-/

namespace PseudoAsm.Text

/-! ### The table -/

/-- Whether each code point of a stretch is in a table of stretches. -/
def coversAll : List (Nat × Nat) → Nat → Nat → Bool
  | [], _, _ => false
  | (start, stop) :: rest, first, last =>
    start.ble first && (last.ble stop || coversAll rest first last)

theorem covers_of_coversAll {table : List (Nat × Nat)} {first last n : Nat}
    (h : coversAll table first last = true) (hfirst : first ≤ n) (hlast : n ≤ last) :
    covers table n = true := by
  induction table with
  | nil => cases h
  | cons r rest ih =>
    simp only [coversAll, Bool.and_eq_true, Bool.or_eq_true, Nat.ble_eq] at h
    obtain ⟨hstart, hstop | hrest⟩ := h
    · exact covers_of_mem_head (Nat.le_trans hstart hfirst) (Nat.le_trans hlast hstop)
    · exact covers_of_covers_tail (Nat.le_trans hstart hfirst) (ih hrest)

namespace CaseRun

/-- The last code point that a run maps to. -/
def lastTarget (run : CaseRun) : Nat :=
  run.target + (run.last - run.first)

/-- Whether a run maps a code point to another. -/
def Maps (run : CaseRun) (n m : Nat) : Prop :=
  ∃ k ≤ run.last - run.first, k % run.step = 0 ∧ n = run.first + k ∧ m = run.target + k

/-- Whether a run leaves alone what another produces: it lies elsewhere, or the two pass each other
on every other code point. -/
def leaves (run other : CaseRun) : Bool :=
  run.last.blt other.target || other.lastTarget.blt run.first
    || ((other.step == 2 || other.first == other.last) && run.step == 2
      && (run.first + other.target) % 2 == 1)

theorem not_maps_of_leaves {run other : CaseRun} (hleaves : run.leaves other = true) {n m l : Nat}
    (hfirst : run.first ≤ run.last) (hother : other.Maps n m) : ¬ run.Maps m l := by
  rintro ⟨j, hj, hjstep, hm, -⟩
  obtain ⟨k, hk, hkstep, -, hm'⟩ := hother
  unfold leaves lastTarget at hleaves
  simp only [Bool.or_eq_true, Bool.and_eq_true, Nat.blt_eq, beq_iff_eq] at hleaves
  obtain (hafter | hbefore) | ⟨⟨hsteps, hstep⟩, hparity⟩ := hleaves
  · omega
  · omega
  · rw [hstep] at hjstep
    have hkeven : k % 2 = 0 := by
      rcases hsteps with htwo | hone
      · rw [← htwo]
        exact hkstep
      · omega
    omega

/-- Whether a run of the table maps to cased characters that all runs leave alone. -/
def isSound (run : CaseRun) : Bool :=
  decide (run.first ≤ run.last)
    && (decide (run.lastTarget < 0xD800)
      || decide (0xDFFF < run.target) && decide (run.lastTarget < 0x110000))
    && (decide (run.lastTarget < 0x130) || decide (0x130 < run.target))
    && coversAll casedRanges run.target run.lastTarget
    && lowerRuns.all fun other => other.leaves run

end CaseRun

theorem lowerRuns_isSound : ∀ run ∈ lowerRuns, run.isSound = true := by
  rw [← List.all_eq_true]
  decide +kernel

/-- A code point is its own lowercase, or a run of the table maps it. -/
theorem lowerCodeIn_eq_or (table : List CaseRun) (n : Nat) :
    lowerCodeIn table n = n ∨ ∃ run ∈ table, run.Maps n (lowerCodeIn table n) := by
  induction table with
  | nil => exact Or.inl rfl
  | cons run rest ih =>
    rw [lowerCodeIn]
    by_cases hbefore : n < run.first
    · exact Or.inl (if_pos hbefore)
    by_cases hmapped : n ≤ run.last ∧ (n - run.first) % run.step = 0
    · rw [if_neg hbefore, if_pos hmapped]
      have hmaps : run.Maps n (run.target + (n - run.first)) :=
        ⟨n - run.first, by omega, hmapped.2, by omega, rfl⟩
      exact Or.inr ⟨run, List.mem_cons_self, hmaps⟩
    · rw [if_neg hbefore, if_neg hmapped]
      refine ih.imp_right ?_
      rintro ⟨other, hother, hmaps⟩
      exact ⟨other, List.mem_cons_of_mem _ hother, hmaps⟩

/-- A code point of a cased character that the mapping leaves alone, İ and Σ apart. -/
structure IsLowerLetter (n : Nat) : Prop where
  valid : n.isValidChar
  cased : covers casedRanges n = true
  lower : lowerCode n = n
  ne_dotted : n ≠ 'İ'.toNat

/-- What the table maps to is lowercase. -/
theorem isLowerLetter_of_maps {run : CaseRun} (hrun : run ∈ lowerRuns) {n m : Nat}
    (hmaps : run.Maps n m) : IsLowerLetter m := by
  have hsound := lowerRuns_isSound run hrun
  simp only [CaseRun.isSound, Bool.or_eq_true, Bool.and_eq_true, decide_eq_true_eq,
    List.all_eq_true] at hsound
  obtain ⟨⟨⟨⟨hfirst, hvalid⟩, hdotted⟩, hcased⟩, hleaves⟩ := hsound
  have hlower : lowerCode m = m := by
    rcases lowerCodeIn_eq_or lowerRuns m with hself | ⟨other, hother, hmaps'⟩
    · exact hself
    · have hsound' := lowerRuns_isSound other hother
      simp only [CaseRun.isSound, Bool.and_eq_true, decide_eq_true_eq] at hsound'
      exact absurd hmaps'
        (CaseRun.not_maps_of_leaves (hleaves other hother) hsound'.1.1.1.1 hmaps)
  obtain ⟨k, hk, -, -, rfl⟩ := hmaps
  have hlast : run.target + k ≤ run.lastTarget := Nat.add_le_add_left hk _
  have hnat : 'İ'.toNat = 0x130 := by decide
  refine ⟨?_, covers_of_coversAll hcased (Nat.le_add_right _ _) hlast, hlower, by omega⟩
  show run.target + k < 0xD800 ∨ 0xDFFF < run.target + k ∧ run.target + k < 0x110000
  omega

/-! ### Characters -/

/-- A character that is its own lowercase form wherever it stands. -/
def IsLower (c : Char) : Prop :=
  c ≠ 'Σ' ∧ lowerChar c = [c]

instance (c : Char) : Decidable (IsLower c) :=
  instDecidableAnd

/-- A cased letter, or the combining dot that the lowercase form of a dotted capital ends in. -/
def IsLetterLike (c : Char) : Prop :=
  isCased c = true ∨ c = '\u0307'

instance (c : Char) : Decidable (IsLetterLike c) :=
  instDecidableOr

theorem lowerChar_of_lowerCode {c : Char} (hdotted : c ≠ 'İ') (h : lowerCode c.toNat = c.toNat) :
    lowerChar c = [c] := by
  rw [lowerChar, if_neg hdotted, h, Char.ofNat_toNat]

theorem isLower_of_isLowerLetter {n : Nat} (h : IsLowerLetter n) :
    IsLower (Char.ofNat n) ∧ isCased (Char.ofNat n) = true := by
  have hnat : (Char.ofNat n).toNat = n := by
    rw [Char.ofNat, dif_pos h.valid]
    rfl
  have hdotted : Char.ofNat n ≠ 'İ' := by
    intro heq
    exact h.ne_dotted (by rw [← heq, hnat])
  have hsigma : Char.ofNat n ≠ 'Σ' := by
    intro heq
    have hcode : lowerCode 'Σ'.toNat = 'Σ'.toNat := by
      rw [← heq, hnat]
      exact h.lower
    exact absurd hcode (by decide +kernel)
  refine ⟨⟨hsigma, lowerChar_of_lowerCode hdotted ?_⟩, ?_⟩
  · rw [hnat, h.lower]
  · rw [isCased, hnat, h.cased]

/-- A character is left alone, or it becomes lowercase letters. -/
theorem lowerChar_eq_or (c : Char) :
    lowerChar c = [c] ∨ ∀ d ∈ lowerChar c, IsLower d ∧ IsLetterLike d := by
  by_cases hdotted : c = 'İ'
  · subst hdotted
    right
    intro d hd
    have hpair : d = 'i' ∨ d = '\u0307' := by
      simpa only [lowerChar, if_true, List.mem_cons, List.not_mem_nil, or_false] using hd
    rcases hpair with rfl | rfl <;> decide +kernel
  · rcases lowerCodeIn_eq_or lowerRuns c.toNat with hself | ⟨run, hrun, hmaps⟩
    · exact Or.inl (lowerChar_of_lowerCode hdotted hself)
    · refine Or.inr ?_
      intro d hd
      rw [lowerChar, if_neg hdotted, List.mem_singleton] at hd
      obtain ⟨hlower, hcased⟩ := isLower_of_isLowerLetter (isLowerLetter_of_maps hrun hmaps)
      exact hd ▸ ⟨hlower, Or.inl hcased⟩

/-- What stands for one character in a lowercase text. -/
def lowerIn (before : Bool) (c : Char) (rest : List Char) : List Char :=
  if c = 'Σ' then [if before && !casedAhead rest then 'ς' else 'σ'] else lowerChar c

theorem lowerFrom_cons (before : Bool) (c : Char) (rest : List Char) :
    lowerFrom before (c :: rest) = lowerIn before c rest ++ lowerFrom (casedBehind before c) rest :=
  rfl

/-- In a text as well, a character is left alone, or it becomes lowercase letters. -/
theorem lowerIn_eq_or (before : Bool) (c : Char) (rest : List Char) :
    (IsLower c ∧ lowerIn before c rest = [c])
      ∨ ∀ d ∈ lowerIn before c rest, IsLower d ∧ IsLetterLike d := by
  unfold lowerIn
  by_cases hsigma : c = 'Σ'
  · rw [if_pos hsigma]
    right
    intro d hd
    rw [List.mem_singleton] at hd
    subst hd
    cases before && !casedAhead rest <;> decide +kernel
  · rw [if_neg hsigma]
    rcases lowerChar_eq_or c with hself | hletters
    · exact Or.inl ⟨⟨hsigma, hself⟩, hself⟩
    · exact Or.inr hletters

/-- Blanks are no letters. -/
theorem isLower_of_isBlank {c : Char} (h : isBlank c = true) : IsLower c ∧ ¬ IsLetterLike c := by
  obtain ⟨r, hr, hfirst, hlast⟩ := exists_range_of_covers h
  have htable : ∀ r ∈ blankRanges, ∀ k < r.2 + 1 - r.1, lowerCode (r.1 + k) = r.1 + k
      ∧ covers casedRanges (r.1 + k) = false ∧ r.1 + k ≠ 'Σ'.toNat ∧ r.1 + k ≠ 'İ'.toNat
      ∧ r.1 + k ≠ '\u0307'.toNat := by
    decide +kernel
  have hpoint := htable r hr (c.toNat - r.1) (by omega)
  rw [Nat.add_sub_cancel' hfirst] at hpoint
  obtain ⟨hlower, hcased, hsigma, hdotted, hdot⟩ := hpoint
  have hne {d : Char} (h : c.toNat ≠ d.toNat) : c ≠ d := by
    intro heq
    exact h (congrArg Char.toNat heq)
  refine ⟨⟨hne hsigma, lowerChar_of_lowerCode (hne hdotted) hlower⟩, ?_⟩
  rintro (hcased' | hdot')
  · rw [isCased, hcased] at hcased'
    exact Bool.noConfusion hcased'
  · exact hne hdot hdot'

theorem lowerChar_ne_nil (c : Char) : lowerChar c ≠ [] := by
  unfold lowerChar
  split <;> exact List.cons_ne_nil _ _

theorem lowerIn_ne_nil (before : Bool) (c : Char) (rest : List Char) :
    lowerIn before c rest ≠ [] := by
  unfold lowerIn
  split
  · exact List.cons_ne_nil _ _
  · exact lowerChar_ne_nil c

/-! ### Texts -/

theorem isLower_of_mem_lowerFrom {before : Bool} {cs : List Char} {d : Char}
    (h : d ∈ lowerFrom before cs) : IsLower d := by
  induction cs generalizing before with
  | nil => exact absurd h List.not_mem_nil
  | cons c rest ih =>
    rw [lowerFrom_cons] at h
    rcases List.mem_append.1 h with hhead | hrest
    · rcases lowerIn_eq_or before c rest with ⟨hlower, hself⟩ | hletters
      · rw [hself, List.mem_singleton] at hhead
        exact hhead ▸ hlower
      · exact (hletters d hhead).1
    · exact ih hrest

theorem lowerFrom_eq_self {before : Bool} {cs : List Char} (h : ∀ c ∈ cs, IsLower c) :
    lowerFrom before cs = cs := by
  induction cs generalizing before with
  | nil => rfl
  | cons c rest ih =>
    obtain ⟨hsigma, hself⟩ := h c List.mem_cons_self
    have hrest : ∀ d ∈ rest, IsLower d := by
      intro d hd
      exact h d (List.mem_cons_of_mem c hd)
    rw [lowerFrom_cons, lowerIn, if_neg hsigma, hself, ih hrest]
    rfl

/-- **Lowercase text is its own lowercase form.** -/
theorem lowerChars_lowerChars (cs : List Char) : lowerChars (lowerChars cs) = lowerChars cs :=
  lowerFrom_eq_self fun _ hd => isLower_of_mem_lowerFrom hd

theorem lowerChars_eq_nil_iff {cs : List Char} : lowerChars cs = [] ↔ cs = [] := by
  cases cs with
  | nil => exact Iff.rfl
  | cons c rest =>
    rw [lowerChars, lowerFrom_cons, List.append_eq_nil_iff]
    constructor
    · intro h
      exact absurd h.1 (lowerIn_ne_nil false c rest)
    · intro h
      exact absurd h (List.cons_ne_nil c rest)

theorem lower_eq_empty_iff {s : String} : lower s = "" ↔ s = "" := by
  rw [← String.toList_eq_nil_iff, toList_lower, lowerChars_eq_nil_iff, String.toList_eq_nil_iff]

/-- Characters that are no letters stay what and where they are. -/
theorem filter_lowerChars {p : Char → Bool}
    (hp : ∀ c, p c = true → IsLower c ∧ ¬ IsLetterLike c) (cs : List Char) :
    (lowerChars cs).filter p = cs.filter p := by
  unfold lowerChars
  generalize false = before
  induction cs generalizing before with
  | nil => rfl
  | cons c rest ih =>
    rw [lowerFrom_cons, List.filter_append, ih, ← List.singleton_append, List.filter_append]
    congr 1
    cases hc : p c with
    | true =>
      obtain ⟨hsigma, hself⟩ := (hp c hc).1
      rw [lowerIn, if_neg hsigma, hself]
    | false =>
      have hnone : (lowerIn before c rest).filter p = [] := by
        rw [List.filter_eq_nil_iff]
        intro d hd hpd
        rcases lowerIn_eq_or before c rest with ⟨-, hself⟩ | hletters
        · rw [hself, List.mem_singleton] at hd
          rw [← hd, hpd] at hc
          exact Bool.noConfusion hc
        · exact (hp d hpd).2 (hletters d hd).2
      rw [hnone, List.filter_cons_of_neg (by rw [hc]; exact Bool.false_ne_true)]
      rfl

/-- A text that is without letters in lowercase was so before. -/
theorem lowerFrom_eq_self_of_no_letters {before : Bool} {cs : List Char}
    (h : ∀ d ∈ lowerFrom before cs, ¬ IsLetterLike d) : lowerFrom before cs = cs := by
  induction cs generalizing before with
  | nil => rfl
  | cons c rest ih =>
    rw [lowerFrom_cons] at h ⊢
    obtain ⟨hhead, hrest⟩ := List.forall_mem_append.1 h
    rw [ih hrest]
    rcases lowerIn_eq_or before c rest with ⟨-, hself⟩ | hletters
    · rw [hself, List.singleton_append]
    · obtain ⟨d, hd⟩ := List.exists_mem_of_ne_nil _ (lowerIn_ne_nil before c rest)
      exact absurd (hletters d hd).2 (hhead d hd)

/-- Texts with one lowercase form have the same characters in lowercase. -/
theorem lowerChars_eq_of_lower_eq {s t : String} (h : lower s = lower t) :
    lowerChars s.toList = lowerChars t.toList := by
  rw [← toList_lower, h, toList_lower]

/-- **A text without letters is the lowercase form of no other text.** -/
theorem eq_of_lower_eq {s t : String} (h : lower s = lower t)
    (hs : ∀ c ∈ s.toList, IsLower c ∧ ¬ IsLetterLike c) : t = s := by
  have hself : lowerChars s.toList = s.toList := lowerFrom_eq_self fun c hc => (hs c hc).1
  have hsame : lowerChars t.toList = s.toList :=
    (lowerChars_eq_of_lower_eq h).symm.trans hself
  have hother : lowerChars t.toList = t.toList := by
    refine lowerFrom_eq_self_of_no_letters ?_
    intro d hd
    exact (hs d (hsame ▸ hd)).2
  rw [← String.toList_inj, ← hother, hsame]

/-! ### The ends of a text -/

theorem isCased_eq_false_of_not_isLetterLike {c : Char} (h : ¬ IsLetterLike c) :
    isCased c = false := by
  rw [Bool.eq_false_iff]
  intro hcased
  exact h (.inl hcased)

/-- Whether a word goes on does not depend on a last character that is no letter. -/
theorem casedAhead_concat {d : Char} (hd : isCased d = false) (cs : List Char) :
    casedAhead (cs ++ [d]) = casedAhead cs := by
  unfold casedAhead
  rw [List.dropWhile_append]
  by_cases hall : (cs.dropWhile isCaseIgnorable).isEmpty = true
  · rw [if_pos hall, List.isEmpty_iff.1 hall]
    cases hignorable : isCaseIgnorable d <;> simp [hignorable, hd]
  · rw [if_neg hall]
    cases hdrop : cs.dropWhile isCaseIgnorable with
    | nil => exact absurd (by rw [hdrop]; rfl) hall
    | cons c rest => rfl

/-- A last character that is no letter changes nothing before it. -/
theorem lowerChars_concat {d : Char} (hcased : isCased d = false) (hlower : IsLower d)
    (cs : List Char) : lowerChars (cs ++ [d]) = lowerChars cs ++ [d] := by
  unfold lowerChars
  generalize false = before
  induction cs generalizing before with
  | nil => exact lowerFrom_eq_self fun c hc => List.mem_singleton.1 hc ▸ hlower
  | cons c rest ih =>
    rw [List.cons_append, lowerFrom_cons, lowerFrom_cons, ih, lowerIn, casedAhead_concat hcased,
      ← lowerIn, List.append_assoc]

/-- A first character that is no letter changes nothing behind it. -/
theorem lowerChars_cons {d : Char} (hcased : isCased d = false) (hlower : IsLower d)
    (cs : List Char) : lowerChars (d :: cs) = d :: lowerChars cs := by
  have hbehind : casedBehind false d = false := by simp [casedBehind, hcased]
  rw [lowerChars, lowerFrom_cons, lowerIn, if_neg hlower.1, hlower.2, hbehind]
  rfl

theorem exists_lowerFrom_concat (before : Bool) (cs : List Char) (c : Char) :
    ∃ start before', lowerFrom before (cs ++ [c]) = start ++ lowerIn before' c [] := by
  induction cs generalizing before with
  | nil => exact ⟨[], before, List.append_nil _⟩
  | cons d rest ih =>
    obtain ⟨start, before', hrest⟩ := ih (casedBehind before d)
    refine ⟨lowerIn before d (rest ++ [c]) ++ start, before', ?_⟩
    rw [List.cons_append, lowerFrom_cons, hrest, List.append_assoc]

section Ends

variable {p : Char → Bool} (hp : ∀ c, p c = true → IsLower c ∧ ¬ IsLetterLike c)

include hp

/-- Nothing else becomes such a character. -/
theorem eq_false_of_mem_lowerIn {before : Bool} {c d : Char} {rest : List Char}
    (hc : p c = false) (hd : d ∈ lowerIn before c rest) : p d = false := by
  rcases lowerIn_eq_or before c rest with ⟨-, hself⟩ | hletters
  · rw [hself, List.mem_singleton] at hd
    exact hd ▸ hc
  · rw [Bool.eq_false_iff]
    intro hpd
    exact (hp d hpd).2 (hletters d hd).2

/-- A text starts with such a character if its lowercase form does. -/
theorem head?_lowerChars_eq_some_iff {d : Char} (hd : p d = true) {cs : List Char} :
    (lowerChars cs).head? = some d ↔ cs.head? = some d := by
  cases cs with
  | nil => rfl
  | cons c rest =>
    cases hc : p c with
    | true =>
      obtain ⟨hlower, hletter⟩ := hp c hc
      rw [lowerChars_cons (isCased_eq_false_of_not_isLetterLike hletter) hlower]
      rfl
    | false =>
      obtain ⟨e, others, hhead⟩ := List.exists_cons_of_ne_nil (lowerIn_ne_nil false c rest)
      have he : p e = false := eq_false_of_mem_lowerIn hp hc (by rw [hhead]; simp)
      have hne {x : Char} (hx : p x = false) : x ≠ d := by
        rintro rfl
        rw [hd] at hx
        exact Bool.noConfusion hx
      rw [lowerChars, lowerFrom_cons, hhead]
      simp [hne he, hne hc]

/-- Characters that are no letters can be taken from the start before or after. -/
theorem dropWhile_lowerChars (cs : List Char) :
    (lowerChars cs).dropWhile p = lowerChars (cs.dropWhile p) := by
  induction cs with
  | nil => rfl
  | cons c rest ih =>
    cases hc : p c with
    | true =>
      obtain ⟨hlower, hletter⟩ := hp c hc
      rw [lowerChars_cons (isCased_eq_false_of_not_isLetterLike hletter) hlower,
        List.dropWhile_cons_of_pos hc, List.dropWhile_cons_of_pos hc, ih]
    | false =>
      rw [List.dropWhile_cons_of_neg (by simp [hc]), lowerChars, lowerFrom_cons]
      obtain ⟨d, others, hhead⟩ := List.exists_cons_of_ne_nil (lowerIn_ne_nil false c rest)
      have hd : p d = false := eq_false_of_mem_lowerIn hp hc (by rw [hhead]; simp)
      rw [hhead, List.cons_append, List.dropWhile_cons_of_neg (by simp [hd])]

/-- They can be taken from the end before or after. -/
theorem rdropWhile_lowerChars (cs : List Char) :
    (lowerChars cs).rdropWhile p = lowerChars (cs.rdropWhile p) := by
  induction cs using List.reverseRecOn with
  | nil => rfl
  | append_singleton init c ih =>
    cases hc : p c with
    | true =>
      obtain ⟨hlower, hletter⟩ := hp c hc
      rw [lowerChars_concat (isCased_eq_false_of_not_isLetterLike hletter) hlower,
        List.rdropWhile_concat_pos p init c hc, List.rdropWhile_concat_pos p _ c hc, ih]
    | false =>
      rw [List.rdropWhile_concat_neg p init c (by simp [hc]), List.rdropWhile_eq_self_iff]
      obtain ⟨start, before', hsplit⟩ := exists_lowerFrom_concat false init c
      intro hne
      have hlast : (lowerChars (init ++ [c])).getLast hne ∈ lowerIn before' c [] := by
        simp only [lowerChars, hsplit]
        rw [List.getLast_append_of_ne_nil _ (lowerIn_ne_nil before' c [])]
        exact List.getLast_mem _
      rw [eq_false_of_mem_lowerIn hp hc hlast]
      exact Bool.false_ne_true

end Ends

/-- **Trimming and lowercase do not get in each other's way.** -/
theorem trimChars_lowerChars (cs : List Char) :
    trimChars (lowerChars cs) = lowerChars (trimChars cs) := by
  have hblank (c : Char) (hc : isBlank c = true) : IsLower c ∧ ¬ IsLetterLike c :=
    isLower_of_isBlank hc
  rw [trimChars, trimChars, trimStart, trimStart, dropWhile_lowerChars hblank,
    trimEnd_eq_rdropWhile, trimEnd_eq_rdropWhile, rdropWhile_lowerChars hblank]

end PseudoAsm.Text

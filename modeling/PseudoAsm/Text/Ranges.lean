/-!
# Tables of code point ranges

A property of characters is given by the stretches of code points that have it, in ascending
order.  This file provides the look-up and its meaning:

* `covers` — walks the table and stops at the first stretch that starts above the code point;
* `exists_range_of_covers` — a positive answer names the stretch that holds the code point.
-/

namespace PseudoAsm.Text

/-- Whether one of the stretches `(first, last)` of a table in ascending order holds `n`. -/
def covers : List (Nat × Nat) → Nat → Bool
  | [], _ => false
  | (first, last) :: rest, n => decide (first ≤ n) && (decide (n ≤ last) || covers rest n)

theorem covers_cons (first last n : Nat) (rest : List (Nat × Nat)) :
    covers ((first, last) :: rest) n
      = (decide (first ≤ n) && (decide (n ≤ last) || covers rest n)) := rfl

/-- A table covers what lies in its first stretch. -/
theorem covers_of_mem_head {first last n : Nat} {rest : List (Nat × Nat)} (hfirst : first ≤ n)
    (hlast : n ≤ last) : covers ((first, last) :: rest) n = true := by
  simp only [covers_cons, hfirst, hlast, decide_true, Bool.true_or, Bool.and_self]

/-- A table covers what its rest covers, unless it lies before the first stretch. -/
theorem covers_of_covers_tail {first last n : Nat} {rest : List (Nat × Nat)} (hfirst : first ≤ n)
    (hrest : covers rest n = true) : covers ((first, last) :: rest) n = true := by
  simp only [covers_cons, hfirst, hrest, decide_true, Bool.or_true, Bool.and_self]

/-- A code point that a table covers lies in one of its stretches. -/
theorem exists_range_of_covers {table : List (Nat × Nat)} {n : Nat}
    (h : covers table n = true) : ∃ r ∈ table, r.1 ≤ n ∧ n ≤ r.2 := by
  induction table with
  | nil => simp [covers] at h
  | cons r rest ih =>
    obtain ⟨first, last⟩ := r
    simp only [covers_cons, Bool.and_eq_true, Bool.or_eq_true, decide_eq_true_eq] at h
    obtain ⟨hfirst, hlast | hrest⟩ := h
    · exact ⟨(first, last), List.mem_cons_self, hfirst, hlast⟩
    · obtain ⟨s, hs, hn⟩ := ih hrest
      exact ⟨s, List.mem_cons_of_mem _ hs, hn⟩

end PseudoAsm.Text

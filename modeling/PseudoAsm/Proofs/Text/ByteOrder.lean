import Mathlib.Tactic.ByContra
import Mathlib.Tactic.SplitIfs

/-!
# The order of texts by their bytes

UTF-8 keeps the order of code points: of two texts the one whose bytes come first is the one whose
characters come first.  Characters with longer forms start with greater bytes, and forms of one
length compare like the numbers whose digits they hold.

* `utf8` — the bytes of a text;
* `utf8EncodeChar_append_lt` — the forms of two characters compare, whatever follows them;
* `utf8_lt_iff`, `utf8_le_iff` — **texts are ordered by their bytes**.
-/

namespace PseudoAsm.Text

/-- The bytes of a text in UTF-8. -/
def utf8 (s : String) : List UInt8 :=
  s.toUTF8.data.toList

theorem utf8_eq_flatMap (s : String) : utf8 s = s.toList.flatMap String.utf8EncodeChar := by
  rw [utf8, String.toUTF8_eq_toByteArray, ← String.utf8Encode_toList, List.utf8Encode]
  exact List.toList_data_toByteArray

/-- The form of the smaller character comes first, whatever follows the two. -/
theorem utf8EncodeChar_append_lt {c d : Char} (h : c < d) (rest others : List UInt8) :
    String.utf8EncodeChar c ++ rest < String.utf8EncodeChar d ++ others := by
  have hlt : c.val.toNat < d.val.toNat := h
  have hbound : d.val.toNat < 0x110000 := by
    rcases d.valid with hlow | ⟨-, hhigh⟩
    · exact Nat.lt_trans hlow (by decide)
    · exact hhigh
  simp only [String.utf8EncodeChar]
  -- one case for each pair of lengths; the lead bytes decide unless these are equal
  split_ifs <;>
    simp only [List.cons_append, List.nil_append, List.cons_lt_cons_iff, UInt8.lt_iff_toNat_lt,
      ← UInt8.toNat_inj, UInt8.toNat_ofNat'] <;>
    simp (disch := omega) only [Nat.mod_eq_of_lt] <;>
    omega

theorem flatMap_utf8EncodeChar_lt {s t : List Char} (h : s < t) :
    s.flatMap String.utf8EncodeChar < t.flatMap String.utf8EncodeChar := by
  induction h with
  | @nil d t =>
    obtain ⟨lead, others, hform⟩ :=
      List.exists_cons_of_ne_nil (String.utf8EncodeChar_ne_nil (c := d))
    rw [List.flatMap_nil, List.flatMap_cons, hform]
    exact .nil
  | @rel c s d t hlt =>
    rw [List.flatMap_cons, List.flatMap_cons]
    exact utf8EncodeChar_append_lt hlt _ _
  | @cons c s t _ ih =>
    rw [List.flatMap_cons, List.flatMap_cons]
    exact List.append_left_lt ih

/-- **The text whose characters come first is the one whose bytes come first.** -/
theorem utf8_lt_iff {s t : String} : utf8 s < utf8 t ↔ s < t := by
  rw [utf8_eq_flatMap, utf8_eq_flatMap, String.lt_iff]
  constructor
  · intro h
    by_contra hle
    by_cases hgt : t < s
    · exact List.lt_asymm h (flatMap_utf8EncodeChar_lt hgt)
    · obtain rfl : s = t := String.le_antisymm hgt hle
      exact List.lt_irrefl _ h
  · exact flatMap_utf8EncodeChar_lt

theorem utf8_le_iff {s t : String} : utf8 s ≤ utf8 t ↔ s ≤ t :=
  not_congr utf8_lt_iff

end PseudoAsm.Text

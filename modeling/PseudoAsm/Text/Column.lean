/-!
# Columns

Alignment of short texts in columns of a fixed width; a text that is too wide is kept whole.
-/

namespace PseudoAsm.Text

/-- As many blanks as a text lacks to a width. -/
def filling (width : Nat) (s : String) : String :=
  String.ofList (List.replicate (width - s.length) ' ')

/-- A text at the right edge of a column. -/
def alignRight (width : Nat) (s : String) : String :=
  filling width s ++ s

/-- A text at the left edge of a column. -/
def alignLeft (width : Nat) (s : String) : String :=
  s ++ filling width s

theorem toList_alignRight (width : Nat) (s : String) :
    (alignRight width s).toList = List.replicate (width - s.length) ' ' ++ s.toList := by
  rw [alignRight, filling, String.toList_append, String.toList_ofList]

theorem length_alignRight (width : Nat) (s : String) :
    (alignRight width s).length = max width s.length := by
  simp only [alignRight, filling, String.length_append, String.length_ofList,
    List.length_replicate]
  omega

theorem length_alignLeft (width : Nat) (s : String) :
    (alignLeft width s).length = max width s.length := by
  simp only [alignLeft, filling, String.length_append, String.length_ofList,
    List.length_replicate]
  omega

end PseudoAsm.Text

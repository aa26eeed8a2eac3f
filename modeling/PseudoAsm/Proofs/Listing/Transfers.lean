import PseudoAsm.Listing
import PseudoAsm.Proofs.Analysis.Reachability
import PseudoAsm.Proofs.Machine.Token

/-!
# Transfers of control in listings

The analysis reads the operand of a jump or call as a numeral, and so takes an edge from it; the
listing looks at how the same operand is spelled.  Behind the mark of an address both agree on every
numeral.  An offset gets a plus sign in the listing unless it starts with a minus sign; one that had
a plus sign already then has two, and what is shown reads as no number, although the analysis has
followed it.

* `behindLastBlank` — where the offset of a relative jump is to be found;
* `Instruction.ShowsTarget`, `Instruction.ShowsOffset` — what a reader of the listing is told;
* `showsTarget_of_statedTarget?` — **an address that the analysis follows is shown**;
* `showsOffset_of_unsigned`, `showsOffset_of_minus` — **so is an offset**, if it has no sign, or a
  minus sign and no parameter behind it;
* `not_showsOffset_of_plus` — **no offset with a plus sign is**;
* `listing_shows_transfers` — the edges of the analysis in the listing.
-/

namespace PseudoAsm

/-! ### Numerals with two signs -/

namespace Numeral

/-- No blank is part of a signed numeral. -/
theorem blank_not_mem_of_int32? {text : String} {value : Int32} (h : int32? text = some value) :
    ' ' ∉ text.toList := by
  intro hmem
  have hblank := isDigit_or_sign_of_int32? h ' ' hmem
  exact absurd hblank (by decide)

theorem toList_plus (text : String) : ("+" ++ text).toList = '+' :: text.toList := by
  rw [String.toList_append]
  rfl

/-- Behind a plus sign an unsigned numeral is read. -/
theorem int32?_plus (text : String) :
    int32? ("+" ++ text)
      = ((digits? text.toList).filter fun n => decide (n < int32Bound)).map Int32.ofNat := by
  have hminus : ("+" ++ text).toList.head? ≠ some '-' := by
    rw [toList_plus, List.head?_cons]
    decide
  rw [int32?_of_not_minus hminus, toList_plus]
  rfl

/-- A numeral without a sign reads the same behind a plus sign. -/
theorem int32?_plus_eq_self {text : String} (hplus : text.toList.head? ≠ some '+')
    (hminus : text.toList.head? ≠ some '-') : int32? ("+" ++ text) = int32? text := by
  rw [int32?_plus, int32?_of_not_minus hminus, natBelow?, dropPlus_eq_self hplus]

/-- Behind a plus sign no numeral has another one. -/
theorem int32?_plus_eq_none {text : String} (hplus : text.toList.head? = some '+') :
    int32? ("+" ++ text) = none := by
  have hdigits : digits? text.toList = none := by
    cases hread : digits? text.toList with
    | none => rfl
    | some n =>
      have hdigit : Char.isDigit '+' = true :=
        all_isDigit_of_digits? hread '+' (List.mem_of_head? hplus)
      exact absurd hdigit (by decide)
  rw [int32?_plus, hdigits]
  rfl

end Numeral

/-- What stands behind the last blank of a text. -/
def behindLastBlank (cs : List Char) : List Char :=
  (cs.reverse.takeWhile (· != ' ')).reverse

theorem behindLastBlank_append {b : List Char} (h : ' ' ∉ b) (a : List Char) :
    behindLastBlank (a ++ ' ' :: b) = b := by
  have hkept : ∀ c ∈ b.reverse, (c != ' ') = true := by
    intro c hc
    rw [bne_iff_ne]
    rintro rfl
    exact h (List.mem_reverse.1 hc)
  have hreverse : (a ++ ' ' :: b).reverse = b.reverse ++ ' ' :: a.reverse := by
    rw [List.reverse_append, List.reverse_cons, List.append_assoc]
    rfl
  rw [behindLastBlank, hreverse, List.takeWhile_append_of_pos hkept,
    List.takeWhile_cons_of_neg (by decide), List.append_nil, List.reverse_reverse]

/-! ### What a listing tells of a transfer -/

namespace Instruction

variable {ins : Instruction} {op : Operation}

/-- The listing shows an address as the target of an instruction. -/
def ShowsTarget (ins : Instruction) (target : Nat) : Prop :=
  ∃ text, ins.listed = ins.name ++ " @" ++ text ∧ Numeral.nat64? text = some target

/-- The listing shows an offset as the last thing of an instruction. -/
def ShowsOffset (ins : Instruction) (offset : Int32) : Prop :=
  ∃ before text, ins.listed = before ++ ", " ++ text ∧ Numeral.int32? text = some offset

/-- The form that a listing gives an instruction goes by the shape of its operands. -/
theorem listed_of_operation? (hop : ins.operation? = some op) :
    ins.listed = match op.operands with
      | .address => ins.listedTarget
      | .valueOffset => ins.listedOffset
      | _ => ins.text := by
  obtain ⟨row, hrow, rfl⟩ := Option.map_eq_some_iff.1 hop
  have hoperands : row.operands = row.operation.operands := by
    obtain ⟨op, -, rfl⟩ := List.mem_map.1 (List.mem_of_find?_eq_some hrow)
    rfl
  rw [listed, hrow]
  show (match row.operands with
    | .address => ins.listedTarget
    | .valueOffset => ins.listedOffset
    | _ => ins.text) = _
  rw [hoperands]

/-- **An address that an instruction states is shown as its target.** -/
theorem showsTarget_of_statedTarget? {target : Nat} (hop : ins.operation? = some op)
    (hoperands : op.operands = .address) (h : statedTarget? ins = some target) :
    ins.ShowsTarget target := by
  obtain ⟨text, hparam, hread⟩ := Option.bind_eq_some_iff.1 h
  refine ⟨text, ?_, hread⟩
  rw [listed_of_operation? hop, hoperands]
  show ins.listedTarget = _
  simp only [listedTarget, hparam, hread, Option.isSome_some, if_true]

section Offsets

variable {value text : String} {offset : Int32} (hop : ins.operation? = some .jnz)
  (hvalue : ins.param? 0 = some value) (htext : ins.param? 1 = some text)

include hop hvalue htext

theorem listed_of_not_minus (hminus : text.toList.head? ≠ some '-') :
    ins.listed = ins.name ++ " " ++ value ++ ", " ++ ("+" ++ text) := by
  have hsign : ", +" ++ text = ", " ++ ("+" ++ text) := by
    rw [← String.append_assoc]
    rfl
  rw [listed_of_operation? hop]
  show ins.listedOffset = _
  simp only [listedOffset, hvalue, htext, if_neg hminus]
  rw [String.append_assoc, hsign, ← String.append_assoc]

/-- **An offset without a sign is shown**, with a plus sign. -/
theorem showsOffset_of_unsigned (hplus : text.toList.head? ≠ some '+')
    (hminus : text.toList.head? ≠ some '-') (h : Numeral.int32? text = some offset) :
    ins.ShowsOffset offset :=
  ⟨_, _, listed_of_not_minus hop hvalue htext hminus, (Numeral.int32?_plus_eq_self hplus hminus).trans h⟩

/-- **No offset with a plus sign is shown as one**: it gets another sign. -/
theorem not_showsOffset_of_plus (hplus : text.toList.head? = some '+')
    (h : Numeral.int32? text = some offset) (shown : Int32) : ¬ins.ShowsOffset shown := by
  rintro ⟨before, numeral, hlisted, hnumeral⟩
  have hminus : text.toList.head? ≠ some '-' := by
    rw [hplus]
    decide
  rw [listed_of_not_minus hop hvalue htext hminus] at hlisted
  have hblank : ' ' ∉ ("+" ++ text).toList := by
    rw [String.toList_append, List.mem_append, not_or]
    exact ⟨by decide, Numeral.blank_not_mem_of_int32? h⟩
  -- Whatever reads as an offset has no blank, so it is all that stands behind the last one.
  have hlast (a b : String) (hb : ' ' ∉ b.toList) :
      behindLastBlank (a ++ ", " ++ b).toList = b.toList := by
    have hchars : (a ++ ", " ++ b).toList = (a.toList ++ [',']) ++ ' ' :: b.toList := by
      rw [String.toList_append, String.toList_append, List.append_assoc, List.append_assoc]
      rfl
    rw [hchars, behindLastBlank_append hb]
  have hsame : "+" ++ text = numeral := by
    rw [← String.toList_inj, ← hlast (ins.name ++ " " ++ value) _ hblank, hlisted,
      hlast _ _ (Numeral.blank_not_mem_of_int32? hnumeral)]
  rw [← hsame, Numeral.int32?_plus_eq_none hplus] at hnumeral
  cases hnumeral

/-- **An offset with a minus sign is shown** if it is the last parameter. -/
theorem showsOffset_of_minus (hminus : text.toList.head? = some '-')
    (hlast : ins.params.getLast? = some text) (h : Numeral.int32? text = some offset) :
    ins.ShowsOffset offset := by
  have hlisted : ins.listed = ins.text := by
    rw [listed_of_operation? hop]
    show ins.listedOffset = _
    simp only [listedOffset, hvalue, htext, if_pos hminus]
  obtain ⟨init, hparams⟩ := List.getLast?_eq_some_iff.1 hlast
  have hinit : init ≠ [] := by
    rintro rfl
    rw [param?, hparams] at htext
    cases htext
  refine ⟨ins.name ++ " " ++ String.intercalate ", " init, text, ?_, h⟩
  have hparams_ne : ¬ins.params.isEmpty = true := by
    rw [hparams, List.isEmpty_iff]
    exact List.append_ne_nil_of_right_ne_nil init (List.cons_ne_nil text [])
  rw [hlisted, Instruction.text, if_neg hparams_ne, hparams,
    String.intercalate_append_of_ne_nil hinit (List.cons_ne_nil text []),
    String.intercalate_singleton, ← String.append_assoc, ← String.append_assoc]

end Offsets

/-- An instruction with a second parameter has a first one. -/
theorem exists_param?_zero {text : String} (h : ins.param? 1 = some text) :
    ∃ value, ins.param? 0 = some value := by
  obtain ⟨hlt, -⟩ := List.getElem?_eq_some_iff.1 h
  exact ⟨ins.params[0], List.getElem?_eq_getElem (Nat.lt_trans Nat.zero_lt_one hlt)⟩

/-- What the listing has to tell of a transfer from an instruction. -/
structure ShowsTransfer (ins : Instruction) (edge : Edge) : Prop where
  /-- A jump or call shows where it leads. -/
  target : ins.operation? ≠ some .jnz → ins.ShowsTarget edge.target
  /-- A relative jump shows how far it leads if its offset has no sign, or a minus sign and no
  parameter behind it.  If the offset has a plus sign it shows nothing. -/
  offset : ins.operation? = some .jnz → ∃ text, ins.param? 1 = some text
    ∧ (text.toList.head? ≠ some '+' →
      (text.toList.head? = some '-' → ins.params.getLast? = some text) →
      ∃ offset, ins.ShowsOffset offset ∧ (edge.target : Int) = edge.source + offset.toInt)
    ∧ (text.toList.head? = some '+' → ∀ offset, ¬ins.ShowsOffset offset)

/-- A conditional jump states an address. -/
theorem operands_of_mem_conditionalJumps (h : op ∈ conditionalJumps) : op.operands = .address := by
  have hall : ∀ op ∈ conditionalJumps, op.operands = .address := by
    decide
  exact hall op h

theorem showsTransfer_of_statedTarget? {edge : Edge} (hop : ins.operation? = some op)
    (hoperands : op.operands = .address) (h : statedTarget? ins = some edge.target) :
    ins.ShowsTransfer edge where
  target _ := showsTarget_of_statedTarget? hop hoperands h
  offset hrelative := by
    rw [hrelative, Option.some.injEq] at hop
    rw [← hop] at hoperands
    cases hoperands

theorem showsTransfer_of_offset? {edge : Edge} {offset : Int32} (hop : ins.operation? = some .jnz)
    (h : ins.offset? = some offset) (htarget : (edge.target : Int) = edge.source + offset.toInt) :
    ins.ShowsTransfer edge where
  target hother := absurd hop hother
  offset _ := by
    obtain ⟨text, htext, hread⟩ := Option.bind_eq_some_iff.1 h
    obtain ⟨value, hvalue⟩ := exists_param?_zero htext
    refine ⟨text, htext, ?_, ?_⟩
    · intro hplus hlast
      refine ⟨offset, ?_, htarget⟩
      by_cases hminus : text.toList.head? = some '-'
      · exact showsOffset_of_minus hop hvalue htext hminus (hlast hminus) hread
      · exact showsOffset_of_unsigned hop hvalue htext hplus hminus hread
    · intro hplus
      exact not_showsOffset_of_plus hop hvalue htext hplus hread

end Instruction

/-! ### The edges of the analysis in the listing -/

/-- **The listing shows the transfers that the analysis found**, but for offsets that were given
with a plus sign: their lines show no number at all. -/
theorem listing_shows_transfers (program : Program) (edge : Edge)
    (h : edge ∈ (analyze program).edges) (hkind : edge.kind ≠ .fallthrough) :
    ∃ ins, program[edge.source]? = some ins ∧ ins.ShowsTransfer edge := by
  obtain ⟨source, target, kind⟩ := edge
  obtain ⟨-, ins, hins, hedge⟩ := mem_edges_analyze_iff.1 h
  have hsuccessor : Successor program source target kind := (mem_edges_iff_successor hins).1 hedge
  cases hsuccessor with
  | @branch jump _ hjump hop htarget =>
    exact ⟨jump, hjump, Instruction.showsTransfer_of_statedTarget? hop rfl htarget⟩
  | @conditional jump op _ hjump hop hconditional htarget =>
    exact ⟨jump, hjump, Instruction.showsTransfer_of_statedTarget? hop
      (Instruction.operands_of_mem_conditionalJumps hconditional) htarget⟩
  | @relative jump offset _ hjump hop hoffset htarget =>
    exact ⟨jump, hjump, Instruction.showsTransfer_of_offset? hop hoffset htarget⟩
  | @call call _ hcall hop htarget =>
    exact ⟨call, hcall, Instruction.showsTransfer_of_statedTarget? hop rfl htarget⟩
  | fallthrough => exact absurd rfl hkind

/-- A call to a numeral with a sign and zeros, an offset with zeros, and a negative one. -/
def transferringProgram : Program :=
  [⟨"call", ["+02"]⟩, ⟨"jnz", ["a", "007"]⟩, ⟨"jnz", ["a", "-1"]⟩]

/-- The offset with zeros is shown on a line that leads to address 8. -/
theorem listing_shows_transfers_sample :
    Instruction.listed ⟨"jnz", ["a", "007"]⟩ = "jnz a, +007"
      ∧ (⟨1, 8, .conditional⟩ : Edge) ∈ (analyze transferringProgram).edges
      ∧ ∃ ins, transferringProgram[1]? = some ins ∧ ins.ShowsTransfer ⟨1, 8, .conditional⟩ := by
  have hedge : (⟨1, 8, .conditional⟩ : Edge) ∈ (analyze transferringProgram).edges := by
    decide +kernel
  exact ⟨by decide +kernel, hedge,
    listing_shows_transfers transferringProgram ⟨1, 8, .conditional⟩ hedge (by decide)⟩

/-- The analysis follows an offset with a plus sign, whose line shows two signs and so no number. -/
theorem plus_sign_shown_twice :
    (⟨0, 2, .conditional⟩ : Edge) ∈ (analyze [⟨"jnz", ["a", "+2"]⟩]).edges
      ∧ Instruction.listed ⟨"jnz", ["a", "+2"]⟩ = "jnz a, ++2"
      ∧ ∀ offset, ¬Instruction.ShowsOffset ⟨"jnz", ["a", "+2"]⟩ offset := by
  refine ⟨by decide +kernel, by decide +kernel, ?_⟩
  exact Instruction.not_showsOffset_of_plus (by decide) rfl rfl (by decide)
    (show Numeral.int32? "+2" = some 2 by decide +kernel)

end PseudoAsm

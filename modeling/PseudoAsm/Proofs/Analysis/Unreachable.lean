import PseudoAsm.Proofs.Analysis.Soundness
import PseudoAsm.Proofs.Machine.Running

/-!
# Unreachable code is irrelevant

What stands at the addresses that a report calls unreachable changes neither the report nor, if the
report has nothing undetermined, any run.

* `AgreeOn` — two programs of one length with the same instructions at some addresses;
* `Walk.advance_congr`, `Walk.advanceBy_congr` — a walk only looks at addresses that it adds to its
  findings, so that it takes the same course on a program that agrees there;
* `Processor.step_congr`, `Processor.runFrom_congr` — a step only looks at the instruction under the
  pointer, so that a run takes the same course as long as an invariant keeps the pointer where the
  programs agree;
* `unreachable_irrelevant` — **programs that agree on the reachable addresses of one of them have
  the same findings, and the same runs if nothing is undetermined**.
-/

namespace PseudoAsm

variable {program other : Program}

/-- Two programs of one length have the same instruction at every address of a set. -/
structure AgreeOn (addresses : List Nat) (program other : Program) : Prop where
  length : other.length = program.length
  instruction : ∀ a ∈ addresses, other[a]? = program[a]?

theorem AgreeOn.mono {addresses wider : List Nat} (h : AgreeOn wider program other)
    (hsubset : addresses ⊆ wider) : AgreeOn addresses program other where
  length := h.length
  instruction := by
    intro a ha
    exact h.instruction a (hsubset ha)

/-- Past the last instruction programs of one length agree anyway. -/
theorem AgreeOn.getElem?_eq {addresses : List Nat} {a : Nat} (h : AgreeOn addresses program other)
    (ha : a < program.length → a ∈ addresses) : other[a]? = program[a]? := by
  by_cases hlt : a < program.length
  · exact h.instruction a (ha hlt)
  · have hle : program.length ≤ a := Nat.le_of_not_lt hlt
    have hother : other.length ≤ a := h.length ▸ hle
    rw [List.getElem?_eq_none hle, List.getElem?_eq_none hother]

/-! ### The walk -/

namespace Walk

variable {walk : Walk}

/-- A step adds to the reachable addresses and removes none. -/
theorem reachable_subset_of_advanced {after : Walk} (hstep : Advanced program walk after) :
    walk.found.reachable ⊆ after.found.reachable := by
  cases hstep with
  | idle | dropped => exact List.Subset.refl _
  | expanded hins hnew =>
    intro b hb
    rw [Findings.add_operation?]
    exact mem_insertAddress.2 (.inr hb)

theorem reachable_subset_advanceBy (program : Program) (walk : Walk) (n : Nat) :
    walk.found.reachable ⊆ (walk.advanceBy program n).found.reachable :=
  advanceBy_induction (fun _ _ hstep h => List.Subset.trans h (reachable_subset_of_advanced hstep))
    (List.Subset.refl _) n

/-- **A step looks at no instruction but the one that it adds to the findings.** -/
theorem advance_congr (h : AgreeOn (walk.advance program).found.reachable program other) :
    walk.advance other = walk.advance program := by
  obtain ⟨waiting, found⟩ := walk
  cases waiting with
  | nil => rfl
  | cons a rest =>
    unfold Walk.advance at h ⊢
    by_cases hseen : found.reachable.contains a = true
    · simp only [hseen, if_true]
    · simp only [hseen, Bool.false_eq_true, if_false] at h ⊢
      cases hins : program[a]? with
      | none =>
        have hle : program.length ≤ a := List.getElem?_eq_none_iff.1 hins
        have hother : other.length ≤ a := h.length ▸ hle
        rw [List.getElem?_eq_none hother]
      | some ins =>
        simp only [hins] at h
        have hadded : a ∈ (found.add a ins ins.operation?).reachable := by
          rw [Findings.add_operation?]
          exact mem_insertAddress.2 (.inl rfl)
        rw [h.instruction a hadded, hins, h.length]

/-- **A walk takes the same course on a program that agrees on what the walk has found.** -/
theorem advanceBy_congr {n : Nat}
    (h : AgreeOn (walk.advanceBy program n).found.reachable program other) :
    walk.advanceBy other n = walk.advanceBy program n := by
  induction n generalizing walk with
  | zero => rfl
  | succ n ih =>
    rw [Walk.advanceBy] at h ⊢
    rw [Walk.advanceBy]
    by_cases hempty : walk.waiting.isEmpty = true
    · rw [if_pos hempty, if_pos hempty]
    · rw [if_neg hempty] at h
      rw [if_neg hempty, if_neg hempty,
        advance_congr (h.mono (reachable_subset_advanceBy program (walk.advance program) n))]
      exact ih h

theorem start_congr (h : other.length = program.length) : start other = start program := by
  have hempty : other.isEmpty = program.isEmpty := by
    rw [Bool.eq_iff_iff, List.isEmpty_iff_length_eq_zero, List.isEmpty_iff_length_eq_zero, h]
  unfold start
  rw [hempty]

end Walk

/-- Programs that agree on what one of them can reach have the same findings. -/
theorem analyze_congr (h : AgreeOn (analyze program).reachable program other) :
    analyze other = analyze program := by
  unfold analyze at h ⊢
  rw [Walk.start_congr h.length, h.length, Walk.advanceBy_congr h]

/-! ### Runs -/

namespace Processor

variable {p : Processor} {m : Machine}

theorem fetch_congr {a : Nat} (h : other[a]? = program[a]?) :
    p.fetch other a = p.fetch program a := by
  unfold fetch
  rw [h]

/-- **A step looks at no instruction but the one under the pointer.** -/
theorem step_congr (hlength : other.length = program.length)
    (hins : other[m.ip]? = program[m.ip]?) : (p.step other).on m = (p.step program).on m := by
  have hmove : moveTo other = moveTo program := by
    funext address
    unfold moveTo
    rw [hlength]
  unfold step
  rw [Action.on_bind, Action.on_bind, Action.on_get]
  simp only [fetch_congr hins, hmove]

/-- Two runs take the same course under an invariant that makes their steps the same. -/
theorem runFrom_congr {Holds : Machine → Prop}
    (hkept : ∀ m, Holds m → Holds ((p.step program).on m).2)
    (hstep : ∀ m, Holds m → (p.step other).on m = (p.step program).on m)
    (hm : Holds m) (patience taken : Nat) :
    p.runFrom other patience taken m = p.runFrom program patience taken m := by
  induction patience generalizing taken m with
  | zero => rfl
  | succ patience ih =>
    have hafter := hkept m hm
    rw [runFrom, runFrom, hstep m hm]
    cases m.settings.maxSteps.filter (· ≤ taken) with
    | some limit => rfl
    | none =>
      generalize (p.step program).on m = stepped at hafter ⊢
      obtain ⟨result, after⟩ := stepped
      cases result with
      | error trap => rfl
      | ok status =>
        cases status with
        | running => exact ih hafter (taken + 1)
        | ended | fellThrough => rfl

end Processor

/-- A tracked machine takes the same step in a program that agrees on the reachable addresses. -/
theorem Tracked.step_congr {m : Machine} (hm : Tracked program m)
    (h : AgreeOn (analyze program).reachable program other) :
    (Processor.standard.step other).on m = (Processor.standard.step program).on m :=
  Processor.step_congr h.length (h.getElem?_eq hm.pointer)

/-- **Unreachable code is irrelevant.**  A program that agrees with another on its reachable
addresses has the same findings.  If nothing is undetermined, its runs have the same answers too,
whatever the step limit and however long one waits. -/
theorem unreachable_irrelevant (program other : Program)
    (hlength : other.length = program.length)
    (hagree : ∀ a ∈ (analyze program).reachable, other[a]? = program[a]?) :
    analyze other = analyze program
      ∧ ((analyze program).undetermined = [] → ∀ settings patience,
        Processor.standard.run patience other (.fresh settings)
          = Processor.standard.run patience program (.fresh settings)) := by
  have h : AgreeOn (analyze program).reachable program other := ⟨hlength, hagree⟩
  refine ⟨analyze_congr h, ?_⟩
  intro hnone settings patience
  -- the invariant speaks of one program only: its runs stay where the other one agrees
  have hkept : ∀ m, Tracked program m →
      Tracked program ((Processor.standard.step program).on m).2 := by
    intro m hm
    exact hm.step (determined_of_eq_nil hnone m) (stepped program m)
  have hstep : ∀ m, Tracked program m →
      (Processor.standard.step other).on m = (Processor.standard.step program).on m := by
    intro m hm
    exact hm.step_congr h
  have hfresh : Tracked program (Machine.fresh settings).reset := tracked_fresh program settings
  unfold Processor.run
  rw [Processor.runFrom_congr hkept hstep hfresh]

/-- A jump in the place that nothing in the calling program leads to changes nothing. -/
theorem unreachable_irrelevant_calling :
    6 ∉ (analyze callingProgram).reachable
      ∧ analyze (callingProgram.set 6 ⟨"jmp", ["0"]⟩) = analyze callingProgram
      ∧ ∀ settings patience,
        Processor.standard.run patience (callingProgram.set 6 ⟨"jmp", ["0"]⟩) (.fresh settings)
          = Processor.standard.run patience callingProgram (.fresh settings) := by
  have hreachable : (analyze callingProgram).reachable = [0, 1, 2, 3, 4, 5] := by decide +kernel
  have hnone : (analyze callingProgram).undetermined = [] := by decide +kernel
  have hagree : ∀ a ∈ (analyze callingProgram).reachable,
      (callingProgram.set 6 ⟨"jmp", ["0"]⟩)[a]? = callingProgram[a]? := by
    rw [hreachable]
    decide
  have hunreached : 6 ∉ (analyze callingProgram).reachable := by
    rw [hreachable]
    decide
  obtain ⟨hfindings, hruns⟩ := unreachable_irrelevant callingProgram _ (by rfl) hagree
  exact ⟨hunreached, hfindings, hruns hnone⟩

end PseudoAsm

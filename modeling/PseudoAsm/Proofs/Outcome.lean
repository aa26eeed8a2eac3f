/-!
# Outcomes of computations that may fail

A computation in sequence succeeds if both its parts do.  All readings of successful executions and
resolutions start here, and so do comparisons of two computations that fail alike.
-/

namespace PseudoAsm

variable {ε α β : Type} {x : Except ε α} {f : α → Except ε β}

/-- A sequence succeeds exactly if its parts do. -/
theorem bind_eq_ok_iff {b : β} : x >>= f = .ok b ↔ ∃ a, x = .ok a ∧ f a = .ok b := by
  constructor
  · intro h
    cases x with
    | error e => cases h
    | ok a => exact ⟨a, rfl, h⟩
  · rintro ⟨a, rfl, h⟩
    exact h

/-- Of the second part of a sequence only what it makes of the value of the first matters. -/
theorem bind_congr_of_ok {g : α → Except ε β} (h : ∀ a, x = .ok a → f a = g a) :
    x >>= f = x >>= g := by
  cases x with
  | error e => rfl
  | ok a => exact h a rfl

/-- What is made of the value of a sequence can be made in its second part. -/
theorem map_bind {γ : Type} (x : Except ε α) (f : α → Except ε β) (g : β → γ) :
    (x >>= f).map g = x >>= fun a => (f a).map g := by
  cases x <;> rfl

/-- What is made of the errors of a sequence can be made of those of its parts. -/
theorem mapError_bind (x : Except ε α) (f : α → Except ε β) (g : ε → ε) :
    (x >>= f).mapError g = x.mapError g >>= fun a => (f a).mapError g := by
  cases x <;> rfl

/-! ### Computations over lists -/

/-- A computation over a list fails exactly if one of its elements does, and then with the first. -/
theorem mapM_eq_error_iff {l : List α} {e : ε} :
    l.mapM f = .error e
      ↔ ∃ (i : Nat) (a : α), l[i]? = some a ∧ f a = .error e
        ∧ ∀ j < i, ∀ b, l[j]? = some b → ∃ c, f b = .ok c := by
  induction l with
  | nil => simp [pure, Except.pure]
  | cons a l ih =>
    rw [List.mapM_cons]
    cases ha : f a with
    | error raised =>
      constructor
      · intro h
        cases h
        exact ⟨0, a, rfl, ha, fun j hj => absurd hj (Nat.not_lt_zero j)⟩
      · rintro ⟨i, b, hb, hfails, hbefore⟩
        cases i with
        | zero =>
          cases hb
          rw [ha] at hfails
          cases hfails
          rfl
        | succ i =>
          obtain ⟨c, hc⟩ := hbefore 0 (Nat.succ_pos i) a rfl
          rw [ha] at hc
          cases hc
    | ok c =>
      have htail : (Except.ok c >>= fun c => l.mapM f >>= fun cs => pure (c :: cs)) = .error e
          ↔ l.mapM f = .error e := by
        cases l.mapM f <;> simp [bind, Except.bind, pure, Except.pure]
      rw [htail, ih]
      constructor
      · rintro ⟨i, b, hb, hfails, hbefore⟩
        refine ⟨i + 1, b, hb, hfails, ?_⟩
        intro j hj
        cases j with
        | zero =>
          intro b hb
          cases hb
          exact ⟨c, ha⟩
        | succ j => exact hbefore j (by omega)
      · rintro ⟨i, b, hb, hfails, hbefore⟩
        cases i with
        | zero =>
          cases hb
          rw [ha] at hfails
          cases hfails
        | succ i => exact ⟨i, b, hb, hfails, fun j hj => hbefore (j + 1) (by omega)⟩

/-! ### Computations in step -/

/-- Two computations fail alike, or succeed with related values. -/
inductive InStep {γ : Type} (related : α → γ → Prop) : Except ε α → Except ε γ → Prop
  | ok {a : α} {c : γ} (h : related a c) : InStep related (.ok a) (.ok c)
  | error (e : ε) : InStep related (.error e) (.error e)

namespace InStep

variable {γ δ : Type} {related : α → γ → Prop} {after : β → δ → Prop} {y : Except ε γ}

theorem refl (x : Except ε α) : InStep (· = ·) x x := by
  cases x with
  | error e => exact .error e
  | ok a => exact .ok rfl

/-- Sequences stay in step if their parts do. -/
theorem bind {g : γ → Except ε δ} (h : InStep related x y)
    (hf : ∀ a c, related a c → InStep after (f a) (g c)) : InStep after (x >>= f) (y >>= g) := by
  cases h with
  | error e => exact .error e
  | ok h => exact hf _ _ h

/-- Where one of them succeeds the other does. -/
theorem exists_ok {a : α} (h : InStep related x y) (hx : x = .ok a) :
    ∃ c, y = .ok c ∧ related a c := by
  cases h with
  | error e => cases hx
  | ok h =>
    cases hx
    exact ⟨_, rfl, h⟩

end InStep

end PseudoAsm

import PseudoAsm.Machine.Run
import PseudoAsm.Proofs.Machine.Frame

/-!
# Runs as steps taken one after another

A run steps its machine behind a limit check, counts the steps, and waits with a patience.  This
file ties its answer to the plain sequence of steps, for every processor whose steps take no notice
of the settings.

* `Processor.GoesOn` — the first steps all leave the machine running;
* `Processor.HaltsAt` — the first step that does not;
* `Processor.runFrom_of_goesOn` — a run passes over the steps that leave it running;
* `Processor.run_mono`, `Processor.run_unique` — more patience keeps an answer;
* `Processor.run_of_haltsAt`, `Processor.run_of_limit` — **the answer of a run that halts before its
  limit, and of one that reaches it**.
-/

namespace PseudoAsm

namespace Processor

variable {p : Processor} {program : Program} {m : Machine}

/-! ### Going on and halting -/

/-- The first `n` steps all leave the machine running. -/
def GoesOn (p : Processor) (program : Program) (m : Machine) (n : Nat) : Prop :=
  ∀ i < n, p.resultAt program m i = .ok .running

/-- The step after the first `n` is the first that does not leave the machine running. -/
def HaltsAt (p : Processor) (program : Program) (m : Machine) (n : Nat) : Prop :=
  p.GoesOn program m n ∧ p.resultAt program m n ≠ .ok .running

theorem goesOn_zero (p : Processor) (program : Program) (m : Machine) : p.GoesOn program m 0 := by
  intro i hi
  exact absurd hi (Nat.not_lt_zero i)

theorem GoesOn.succ {n : Nat} (h : p.GoesOn program m n)
    (hn : p.resultAt program m n = .ok .running) : p.GoesOn program m (n + 1) := by
  intro i hi
  rcases Nat.lt_succ_iff_lt_or_eq.1 hi with hlt | rfl
  · exact h i hlt
  · exact hn

theorem GoesOn.mono {k n : Nat} (h : p.GoesOn program m n) (hk : k ≤ n) : p.GoesOn program m k := by
  intro i hi
  exact h i (by omega)

theorem HaltsAt.not_goesOn {k n : Nat} (h : p.HaltsAt program m k) (hk : k < n) :
    ¬p.GoesOn program m n := by
  intro hn
  exact h.2 (hn k hk)

/-- The first steps leave the machine running, or it halts among them. -/
theorem goesOn_or_haltsAt (p : Processor) (program : Program) (m : Machine) (n : Nat) :
    p.GoesOn program m n ∨ ∃ k < n, p.HaltsAt program m k := by
  induction n with
  | zero => exact .inl (goesOn_zero p program m)
  | succ n ih =>
    rcases ih with hgoes | ⟨k, hk, hhalts⟩
    · by_cases hn : p.resultAt program m n = .ok .running
      · exact .inl (hgoes.succ hn)
      · exact .inr ⟨n, Nat.lt_succ_self n, hgoes, hn⟩
    · exact .inr ⟨k, by omega, hhalts⟩

/-! ### Taking no notice of the settings -/

/-- No step reads or changes the settings. -/
def IgnoresSettings (p : Processor) (program : Program) : Prop :=
  ∀ (m : Machine) (settings : Settings),
    (p.step program).on (m.withSettings settings)
      = (((p.step program).on m).1, ((p.step program).on m).2.withSettings settings)

theorem machineAt_withSettings (hp : p.IgnoresSettings program) (m : Machine) (settings : Settings)
    (n : Nat) : p.machineAt program (m.withSettings settings) n
      = (p.machineAt program m n).withSettings settings := by
  induction n with
  | zero => rfl
  | succ n ih => rw [machineAt_succ, machineAt_succ, ih, hp]

theorem resultAt_withSettings (hp : p.IgnoresSettings program) (m : Machine) (settings : Settings)
    (n : Nat) : p.resultAt program (m.withSettings settings) n = p.resultAt program m n := by
  rw [resultAt, machineAt_withSettings hp, hp, resultAt]

theorem settings_machineAt (hp : p.IgnoresSettings program) (m : Machine) (n : Nat) :
    (p.machineAt program m n).settings = m.settings := by
  have h := machineAt_withSettings hp m m.settings n
  rw [Machine.withSettings_settings] at h
  rw [h, Machine.settings_withSettings]

/-- Whether a machine goes on does not depend on its settings. -/
theorem goesOn_withSettings (hp : p.IgnoresSettings program) (m : Machine) (settings : Settings)
    (n : Nat) : p.GoesOn program (m.withSettings settings) n ↔ p.GoesOn program m n := by
  simp only [GoesOn, resultAt_withSettings hp]

theorem haltsAt_withSettings (hp : p.IgnoresSettings program) (m : Machine) (settings : Settings)
    (n : Nat) : p.HaltsAt program (m.withSettings settings) n ↔ p.HaltsAt program m n := by
  simp only [HaltsAt, goesOn_withSettings hp, resultAt_withSettings hp]

end Processor

theorem ignoresSettings (instructions : InstructionSet) (program : Program) :
    instructions.processor.IgnoresSettings program := by
  intro m settings
  exact step_settings instructions program m settings

/-! ### The steps of a run -/

/-- The step limit, if there is one, allows a number of steps. -/
def Settings.Allows (settings : Settings) (steps : Nat) : Prop :=
  ∀ limit, settings.maxSteps = some limit → steps ≤ limit

theorem Settings.allows_of_unlimited {settings : Settings} (h : settings.maxSteps = none)
    (steps : Nat) : settings.Allows steps := by
  intro limit hlimit
  rw [h] at hlimit
  cases hlimit

theorem Settings.Allows.mono {settings : Settings} {k n : Nat} (h : settings.Allows n)
    (hk : k ≤ n) : settings.Allows k := by
  intro limit hlimit
  exact Nat.le_trans hk (h limit hlimit)

namespace Processor

variable {p : Processor} {program : Program} {m : Machine}

/-- A run whose limit is used up is over. -/
theorem runFrom_limited {limit taken : Nat} (hlimit : m.settings.maxSteps = some limit)
    (htaken : limit ≤ taken) (patience : Nat) :
    p.runFrom program (patience + 1) taken m = some (.error (.stepLimit limit), m) := by
  have hfilter : m.settings.maxSteps.filter (· ≤ taken) = some limit := by
    rw [hlimit, Option.filter_some, if_pos (decide_eq_true htaken)]
  rw [runFrom, hfilter]

/-- A run that is allowed one more step takes it. -/
theorem runFrom_allowed {taken : Nat} (hallows : m.settings.Allows (taken + 1)) (patience : Nat) :
    p.runFrom program (patience + 1) taken m = match (p.step program).on m with
      | (.ok .running, after) => p.runFrom program patience (taken + 1) after
      | halted => some halted := by
  have hfilter : m.settings.maxSteps.filter (· ≤ taken) = none := by
    rw [Option.filter_eq_none_iff]
    intro limit hlimit htaken
    have hle : limit ≤ taken := of_decide_eq_true htaken
    have hlt : taken + 1 ≤ limit := hallows limit hlimit
    omega
  rewrite [runFrom, hfilter]
  rfl

/-- **A run passes over the steps that leave it running.** -/
theorem runFrom_of_goesOn (hp : p.IgnoresSettings program) {k taken : Nat}
    (hgoes : p.GoesOn program m k) (hallows : m.settings.Allows (taken + k)) (patience : Nat) :
    p.runFrom program (patience + k) taken m
      = p.runFrom program patience (taken + k) (p.machineAt program m k) := by
  induction k generalizing patience with
  | zero => rfl
  | succ k ih =>
    have hk : p.resultAt program m k = .ok .running := hgoes k (Nat.lt_succ_self k)
    have hstep : (p.step program).on (p.machineAt program m k)
        = (.ok .running, p.machineAt program m (k + 1)) := Prod.ext hk rfl
    have hsettings : (p.machineAt program m k).settings.Allows (taken + k + 1) := by
      rw [settings_machineAt hp]
      exact hallows
    rw [show patience + (k + 1) = patience + 1 + k by omega,
      ih (hgoes.mono (Nat.le_succ k)) (hallows.mono (by omega)) (patience + 1),
      runFrom_allowed hsettings, hstep]
    rfl

/-- There is no answer before the machine halts or reaches its limit. -/
theorem runFrom_eq_none (hp : p.IgnoresSettings program) {k : Nat} (hgoes : p.GoesOn program m k)
    (hallows : m.settings.Allows k) : p.runFrom program k 0 m = none := by
  have h : p.runFrom program (0 + k) 0 m = p.runFrom program 0 (0 + k) (p.machineAt program m k) :=
    runFrom_of_goesOn hp hgoes (by rwa [Nat.zero_add]) 0
  rw [Nat.zero_add] at h
  rw [h, runFrom]

/-- The steps of a run that halts before its limit. -/
theorem runFrom_of_haltsAt (hp : p.IgnoresSettings program) {n : Nat}
    (hhalts : p.HaltsAt program m n) (hallows : m.settings.Allows (n + 1)) (patience : Nat) :
    p.runFrom program patience 0 m
      = if n < patience then some (p.resultAt program m n, p.machineAt program m (n + 1))
        else none := by
  by_cases hpatience : n < patience
  · obtain ⟨rest, rfl⟩ : ∃ rest, patience = rest + 1 + n := ⟨patience - n - 1, by omega⟩
    have hsettings : (p.machineAt program m n).settings.Allows (0 + n + 1) := by
      rw [settings_machineAt hp, Nat.zero_add]
      exact hallows
    rw [if_pos hpatience,
      runFrom_of_goesOn hp hhalts.1 (hallows.mono (by omega)) (rest + 1),
      runFrom_allowed hsettings]
    have hresult : p.resultAt program m n = ((p.step program).on (p.machineAt program m n)).1 := rfl
    have hne := hhalts.2
    rw [machineAt_succ, hresult]
    rw [hresult] at hne
    split
    · next after hstep =>
      rw [hstep] at hne
      exact absurd rfl hne
    · rfl
  · rw [if_neg hpatience]
    exact runFrom_eq_none hp (hhalts.1.mono (by omega)) (hallows.mono (by omega))

/-- The steps of a run that reaches its limit. -/
theorem runFrom_of_limit (hp : p.IgnoresSettings program) {limit : Nat}
    (hgoes : p.GoesOn program m limit) (hlimit : m.settings.maxSteps = some limit)
    (patience : Nat) :
    p.runFrom program patience 0 m
      = if limit < patience then some (.error (.stepLimit limit), p.machineAt program m limit)
        else none := by
  have hallows : m.settings.Allows limit := by
    intro other hother
    rw [hlimit, Option.some.injEq] at hother
    exact Nat.le_of_eq hother
  by_cases hpatience : limit < patience
  · obtain ⟨rest, rfl⟩ : ∃ rest, patience = rest + 1 + limit := ⟨patience - limit - 1, by omega⟩
    have hsettings : (p.machineAt program m limit).settings.maxSteps = some limit := by
      rw [settings_machineAt hp, hlimit]
    rw [if_pos hpatience, runFrom_of_goesOn hp hgoes (by rwa [Nat.zero_add]) (rest + 1),
      runFrom_limited hsettings (by omega)]
  · rw [if_neg hpatience]
    exact runFrom_eq_none hp (hgoes.mono (by omega)) (hallows.mono (by omega))

/-! ### More patience -/

/-- More patience keeps an answer. -/
theorem runFrom_mono {patience more taken : Nat} {answer : Except Trap Status × Machine}
    (h : p.runFrom program patience taken m = some answer) (hmore : patience ≤ more) :
    p.runFrom program more taken m = some answer := by
  induction patience generalizing more taken m with
  | zero =>
    rw [runFrom] at h
    cases h
  | succ patience ih =>
    obtain ⟨more, rfl⟩ : ∃ rest, more = rest + 1 := ⟨more - 1, by omega⟩
    rw [runFrom] at h ⊢
    cases hfilter : m.settings.maxSteps.filter (· ≤ taken) with
    | some limit =>
      rw [hfilter] at h
      exact h
    | none =>
      rw [hfilter] at h
      rcases hstep : (p.step program).on m with ⟨trap | status, after⟩
      · rw [hstep] at h
        exact h
      · rw [hstep] at h
        cases status with
        | running => exact ih h (by omega)
        | ended | fellThrough => exact h

/-- The steps of a run leave the settings as they are. -/
theorem settings_runFrom (hp : p.IgnoresSettings program) {patience taken : Nat}
    {result : Except Trap Status} {final : Machine}
    (h : p.runFrom program patience taken m = some (result, final)) :
    final.settings = m.settings := by
  induction patience generalizing taken m with
  | zero =>
    rw [runFrom] at h
    cases h
  | succ patience ih =>
    have hstepped : ((p.step program).on m).2.settings = m.settings := settings_machineAt hp m 1
    rw [runFrom] at h
    cases hfilter : m.settings.maxSteps.filter (· ≤ taken) with
    | some limit =>
      rw [hfilter] at h
      cases h
      rfl
    | none =>
      rw [hfilter] at h
      rcases hstep : (p.step program).on m with ⟨trap | status, after⟩
      · rw [hstep] at h hstepped
        cases h
        exact hstepped
      · rw [hstep] at h hstepped
        cases status with
        | running => exact (ih h).trans hstepped
        | ended | fellThrough =>
          cases h
          exact hstepped

theorem run_mono {patience more : Nat} {outcome : Except Trap (Option String) × Machine}
    (h : p.run patience program m = some outcome) (hmore : patience ≤ more) :
    p.run more program m = some outcome := by
  obtain ⟨halted, hhalted, rfl⟩ := Option.map_eq_some_iff.1 h
  exact Option.map_eq_some_iff.2 ⟨halted, runFrom_mono hhalted hmore, rfl⟩

/-- With every patience that suffices, a run gives the same answer and leaves the same machine. -/
theorem run_unique {patience other : Nat} {outcome found : Except Trap (Option String) × Machine}
    (h : p.run patience program m = some outcome) (hfound : p.run other program m = some found) :
    found = outcome := by
  have hmax := run_mono h (Nat.le_max_left patience other)
  rw [run_mono hfound (Nat.le_max_right patience other)] at hmax
  exact Option.some.inj hmax

/-- A run that returns leaves the machine reset. -/
theorem run_reset (hp : p.IgnoresSettings program) {patience : Nat}
    {outcome : Except Trap (Option String) × Machine}
    (h : p.run patience program m = some outcome) : outcome.2 = m.reset := by
  obtain ⟨⟨result, final⟩, hhalted, rfl⟩ := Option.map_eq_some_iff.1 h
  have hsettings : final.settings = m.reset.settings := settings_runFrom hp hhalted
  show Machine.fresh final.settings = m.reset
  rw [hsettings]
  rfl

/-! ### The answer of a run -/

/-- A run answers what its steps release, and resets the machine. -/
theorem run_of_runFrom (hp : p.IgnoresSettings program) {n k patience : Nat}
    {result : Except Trap Status}
    (h : p.runFrom program patience 0 m.reset
      = if n < patience then some (result, p.machineAt program m.reset k) else none) :
    p.run patience program m
      = if n < patience then
          some (released result (p.machineAt program m.reset k).output, m.reset)
        else none := by
  rw [run, h]
  by_cases hpatience : n < patience
  · rw [if_pos hpatience, if_pos hpatience, Option.map_some]
    show some (_, Machine.fresh (p.machineAt program m.reset k).settings) = _
    rw [settings_machineAt hp]
    rfl
  · rw [if_neg hpatience, if_neg hpatience, Option.map_none]

/-- **The answer of a run that halts before its limit.** -/
theorem run_of_haltsAt (hp : p.IgnoresSettings program) {n : Nat}
    (hhalts : p.HaltsAt program m.reset n) (hallows : m.settings.Allows (n + 1))
    (patience : Nat) :
    p.run patience program m
      = if n < patience then
          some (released (p.resultAt program m.reset n) (p.machineAt program m.reset (n + 1)).output,
            m.reset)
        else none :=
  run_of_runFrom hp (runFrom_of_haltsAt hp hhalts hallows patience)

/-- **The answer of a run that reaches its limit.** -/
theorem run_of_limit (hp : p.IgnoresSettings program) {limit : Nat}
    (hgoes : p.GoesOn program m.reset limit) (hlimit : m.settings.maxSteps = some limit)
    (patience : Nat) :
    p.run patience program m
      = if limit < patience then some (.error (.stepLimit limit), m.reset) else none :=
  run_of_runFrom hp (runFrom_of_limit hp hgoes hlimit patience)

/-- Under a step limit a run returns. -/
theorem exists_run_of_limit (hp : p.IgnoresSettings program) {limit : Nat}
    (hlimit : m.settings.maxSteps = some limit) :
    ∃ outcome, p.run (limit + 1) program m = some outcome := by
  rcases goesOn_or_haltsAt p program m.reset limit with hgoes | ⟨n, hn, hhalts⟩
  · exact ⟨_, by rw [run_of_limit hp hgoes hlimit, if_pos (Nat.lt_succ_self limit)]⟩
  · have hallows : m.settings.Allows (n + 1) := by
      intro other hother
      rw [hlimit, Option.some.injEq] at hother
      omega
    exact ⟨_, by rw [run_of_haltsAt hp hhalts hallows, if_pos (by omega)]⟩

/-- A run has no answer before the machine halts or reaches its limit. -/
theorem run_eq_none (hp : p.IgnoresSettings program) {k : Nat}
    (hgoes : p.GoesOn program m.reset k) (hallows : m.settings.Allows k) :
    p.run k program m = none := by
  rw [run, runFrom_eq_none hp hgoes hallows, Option.map_none]

theorem released_eq_error_iff {result : Except Trap Status} {output : Option String} {trap : Trap} :
    released result output = .error trap ↔ result = .error trap := by
  rcases result with raised | (_ | _ | _) <;> simp [released]

/-- An unlimited run that answers has halted, and answers what the last step releases. -/
theorem exists_haltsAt_of_run (hp : p.IgnoresSettings program)
    (hunlimited : m.settings.maxSteps = none) {patience : Nat}
    {answer : Except Trap (Option String)} {after : Machine}
    (h : p.run patience program m = some (answer, after)) :
    ∃ n < patience, p.HaltsAt program m.reset n
      ∧ released (p.resultAt program m.reset n) (p.machineAt program m.reset (n + 1)).output
        = answer := by
  have hallows : ∀ steps, m.settings.Allows steps := Settings.allows_of_unlimited hunlimited
  rcases goesOn_or_haltsAt p program m.reset patience with hgoes | ⟨n, hn, hhalts⟩
  · rw [run_eq_none hp hgoes (hallows patience)] at h
    cases h
  · rw [run_of_haltsAt hp hhalts (hallows (n + 1)), if_pos hn, Option.some.injEq,
      Prod.mk.injEq] at h
    exact ⟨n, hn, hhalts, h.1⟩

end Processor

end PseudoAsm

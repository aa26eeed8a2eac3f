import Mathlib.Data.List.Forall2
import PseudoAsm.Proofs.Machine.Running

/-!
# What a run makes known

A run of the standard machine keeps the text of every message it executes until the next one
replaces it, and shows the last one only if the program ends itself.  This file says so in terms of
the plain sequence of steps from a fresh machine.

* `Says` — the instruction under the pointer is a message with a text;
* `LastMessage` — what the last message among the first steps said;
* `lastMessage_iff_output` — the output of the machine is exactly that;
* `Disclosed` — what may be known of a sequence of steps that halts;
* `run_discloses_steps` — **a run without limit answers exactly what its steps disclose, and does
  not answer if they go on for ever**.
-/

namespace PseudoAsm

variable {program : Program} {m : Machine}

/-! ### Messages -/

/-- The instruction under the pointer is a message.  Its parts, read with the registers as they
are, make up the text. -/
def Says (program : Program) (m : Machine) (text : String) : Prop :=
  ∃ ins texts, Processor.standard.fetch program m.ip = .ready ins .msg
    ∧ List.Forall₂ (fun part text => m.messagePart part = .ok text) ins.params texts
    ∧ text = String.join texts

/-- A message is made up of the texts of its parts. -/
theorem message_eq_ok_iff {parts : List String} {text : String} :
    m.message parts = .ok text
      ↔ ∃ texts, List.Forall₂ (fun part text => m.messagePart part = .ok text) parts texts
        ∧ text = String.join texts := by
  induction parts generalizing text with
  | nil =>
    constructor
    · intro h
      cases h
      exact ⟨[], .nil, String.join_nil.symm⟩
    · rintro ⟨texts, htexts, rfl⟩
      cases htexts
      rw [Machine.message, String.join_nil]
  | cons part rest ih =>
    constructor
    · intro h
      obtain ⟨head, hhead, h⟩ := bind_eq_ok_iff.1 h
      obtain ⟨tail, htail, h⟩ := bind_eq_ok_iff.1 h
      obtain ⟨texts, htexts, rfl⟩ := ih.1 htail
      cases h
      exact ⟨head :: texts, .cons hhead htexts, String.join_cons.symm⟩
    · rintro ⟨texts, htexts, rfl⟩
      cases htexts with
      | cons hhead hrest =>
        refine bind_eq_ok_iff.2 ⟨_, hhead, bind_eq_ok_iff.2 ⟨_, ih.2 ⟨_, hrest, rfl⟩, ?_⟩⟩
        rw [String.join_cons]
        rfl

theorem says_iff {text : String} :
    Says program m text ↔ ∃ ins, Processor.standard.fetch program m.ip = .ready ins .msg
      ∧ m.message ins.params = .ok text := by
  constructor
  · rintro ⟨ins, texts, hfetch, htexts⟩
    exact ⟨ins, hfetch, message_eq_ok_iff.2 ⟨texts, htexts⟩⟩
  · rintro ⟨ins, hfetch, hmessage⟩
    obtain ⟨texts, htexts⟩ := message_eq_ok_iff.1 hmessage
    exact ⟨ins, texts, hfetch, htexts⟩

/-- Where something is said, a message was fetched. -/
theorem Says.fetched {text : String} {fetched : Fetched} (h : Says program m text)
    (hfetch : Processor.standard.fetch program m.ip = fetched) : ∃ ins, fetched = .ready ins .msg := by
  obtain ⟨ins, texts, hready, -⟩ := h
  exact ⟨ins, hfetch.symm.trans hready⟩

theorem Says.unique {text other : String} (h : Says program m text)
    (hother : Says program m other) : text = other := by
  obtain ⟨ins, hfetch, hmessage⟩ := says_iff.1 h
  obtain ⟨ins', hfetch', hmessage'⟩ := says_iff.1 hother
  rw [hfetch] at hfetch'
  cases hfetch'
  rw [hmessage] at hmessage'
  exact Except.ok.inj hmessage'

/-- A step leaves the text of its message, and the output as it was if it executes none. -/
theorem Stepped.output {result : Except Trap Status} {after : Machine}
    (h : Stepped program m result after) :
    (∃ text, Says program m text ∧ after.output = some text)
      ∨ (∀ text, ¬Says program m text) ∧ after.output = m.output := by
  cases h with
  | outside hfetch | unknown hfetch =>
    refine .inr ⟨?_, rfl⟩
    intro text hsaid
    obtain ⟨ins, hready⟩ := hsaid.fetched hfetch
    cases hready
  | trapped hfetch heffect =>
    refine .inr ⟨?_, rfl⟩
    intro text hsaid
    obtain ⟨ins, hready, hmessage⟩ := says_iff.1 hsaid
    rw [hfetch] at hready
    cases hready
    rw [effect_msg_eq_ok_iff.2 ⟨text, hmessage, rfl, rfl⟩] at heffect
    cases heffect
  | @ended ins op flow after hfetch heffect htarget =>
    have hop : op ≠ .msg := by
      rintro rfl
      obtain ⟨text, -, rfl, -⟩ := effect_msg_eq_ok_iff.1 heffect
      cases htarget
    refine .inr ⟨?_, output_of_effect heffect hop⟩
    intro text hsaid
    obtain ⟨ins', hready⟩ := hsaid.fetched hfetch
    cases hready
    exact hop rfl
  | @moved ins op flow after target hfetch heffect htarget =>
    by_cases hop : op = .msg
    · subst hop
      obtain ⟨text, hmessage, -, rfl⟩ := effect_msg_eq_ok_iff.1 heffect
      exact .inl ⟨text, says_iff.2 ⟨ins, hfetch, hmessage⟩, rfl⟩
    · have hkept : after.output = m.output := output_of_effect heffect hop
      refine .inr ⟨?_, hkept⟩
      intro text hsaid
      obtain ⟨ins', hready⟩ := hsaid.fetched hfetch
      cases hready
      exact hop rfl

/-! ### The last message -/

/-- What the last message among the first `n` steps said, if there was one. -/
inductive LastMessage (program : Program) (m : Machine) (n : Nat) : Option String → Prop
  /-- A message was executed in one of the steps, and none in the later ones. -/
  | said {i : Nat} {text : String} (hi : i < n)
      (hsaid : Says program (Processor.standard.machineAt program m i) text)
      (hlast : ∀ j, i < j → j < n → ∀ other,
        ¬Says program (Processor.standard.machineAt program m j) other) :
      LastMessage program m n (some text)
  /-- No message was executed. -/
  | silent (hsilent : ∀ i < n, ∀ text,
        ¬Says program (Processor.standard.machineAt program m i) text) :
      LastMessage program m n none

theorem LastMessage.unique {n : Nat} {output other : Option String}
    (h : LastMessage program m n output) (hother : LastMessage program m n other) :
    output = other := by
  cases h with
  | @said i text hi hsaid hlast =>
    cases hother with
    | @said j text' hj hsaid' hlast' =>
      rcases Nat.lt_trichotomy i j with hlt | rfl | hgt
      · exact absurd hsaid' (hlast j hlt hj text')
      · rw [hsaid.unique hsaid']
      · exact absurd hsaid (hlast' i hgt hi text)
    | silent hsilent => exact absurd hsaid (hsilent i hi text)
  | silent hsilent =>
    cases hother with
    | @said j text' hj hsaid' hlast' => exact absurd hsaid' (hsilent j hj text')
    | silent => rfl

/-- The step after the first `n` replaces the last message if it says something. -/
theorem LastMessage.succ_said {n : Nat} {text : String}
    (h : Says program (Processor.standard.machineAt program m n) text) :
    LastMessage program m (n + 1) (some text) := by
  refine .said (Nat.lt_succ_self n) h ?_
  intro j hj hlt
  omega

/-- The last message stays if the step after the first `n` says nothing. -/
theorem LastMessage.succ_silent {n : Nat} {output : Option String}
    (h : LastMessage program m n output)
    (hn : ∀ text, ¬Says program (Processor.standard.machineAt program m n) text) :
    LastMessage program m (n + 1) output := by
  cases h with
  | @said i text hi hsaid hlast =>
    refine .said (Nat.lt_succ_of_lt hi) hsaid ?_
    intro j hj hlt
    rcases Nat.lt_succ_iff_lt_or_eq.1 hlt with hjn | rfl
    · exact hlast j hj hjn
    · exact hn
  | silent hsilent =>
    refine .silent ?_
    intro i hi
    rcases Nat.lt_succ_iff_lt_or_eq.1 hi with hin | rfl
    · exact hsilent i hin
    · exact hn

/-- **The output of a machine is what the last message said.** -/
theorem lastMessage_output (program : Program) (settings : Settings) (n : Nat) :
    LastMessage program (.fresh settings) n
      (Processor.standard.machineAt program (.fresh settings) n).output := by
  induction n with
  | zero =>
    refine .silent ?_
    intro i hi
    exact absurd hi (Nat.not_lt_zero i)
  | succ n ih =>
    rcases (stepped_at program (.fresh settings) n).output with
      ⟨text, hsaid, houtput⟩ | ⟨hsilent, houtput⟩
    · rw [houtput]
      exact .succ_said hsaid
    · rw [houtput]
      exact ih.succ_silent hsilent

theorem lastMessage_iff_output {settings : Settings} {n : Nat} {output : Option String} :
    LastMessage program (.fresh settings) n output
      ↔ output = (Processor.standard.machineAt program (.fresh settings) n).output := by
  constructor
  · intro h
    exact h.unique (lastMessage_output program settings n)
  · rintro rfl
    exact lastMessage_output program settings n

/-! ### Runs -/

/-- What may be known of a sequence of steps in which the step after the first `n` is the first that
does not leave the machine running. -/
inductive Disclosed (program : Program) (m : Machine) (n : Nat) :
    Except Trap (Option String) → Prop
  /-- The step traps, and the trap is known. -/
  | trapped {trap : Trap} (h : Processor.standard.resultAt program m n = .error trap) :
      Disclosed program m n (.error trap)
  /-- The step leaves the program, and nothing is known. -/
  | fellThrough (h : Processor.standard.resultAt program m n = .ok .fellThrough) :
      Disclosed program m n (.ok none)
  /-- The step ends the program, and the last message is known. -/
  | ended {output : Option String} (h : Processor.standard.resultAt program m n = .ok .ended)
      (houtput : LastMessage program m (n + 1) output) :
      Disclosed program m n (.ok output)

/-- What a sequence of steps discloses is what a run releases at its end. -/
theorem disclosed_iff {settings : Settings} {n : Nat} {result : Except Trap (Option String)}
    (hhalts : Processor.standard.HaltsAt program (.fresh settings) n) :
    Disclosed program (.fresh settings) n result
      ↔ result = Processor.released (Processor.standard.resultAt program (.fresh settings) n)
          (Processor.standard.machineAt program (.fresh settings) (n + 1)).output := by
  constructor
  · intro h
    cases h with
    | trapped h => rw [h, Processor.released]
    | fellThrough h =>
      rw [h]
      rfl
    | ended h houtput => rw [h, Processor.released, lastMessage_iff_output.1 houtput]
  · rintro rfl
    cases hresult : Processor.standard.resultAt program (.fresh settings) n with
    | error trap => exact .trapped hresult
    | ok status =>
      cases status with
      | running => exact absurd hresult hhalts.2
      | ended => exact .ended hresult (lastMessage_output program settings (n + 1))
      | fellThrough => exact .fellThrough hresult

/-- **A run without limit answers exactly what its steps disclose.**  If the steps from a fresh
machine come to a first one that does not leave it running, the run answers once its patience is
longer than them, and what it answers is the trap, nothing, or the last message.  If there is no
such step it never answers.  There are no other answers, and a text is only shown by a program that
ended itself. -/
theorem run_discloses_steps (program : Program) (m : Machine)
    (hunlimited : m.settings.maxSteps = none) :
    (∀ n, Processor.standard.HaltsAt program (.fresh m.settings) n →
      ∃ result, (∀ other, Disclosed program (.fresh m.settings) n other ↔ other = result)
        ∧ ∀ patience, Processor.standard.run patience program m
          = if n < patience then some (result, .fresh m.settings) else none)
    ∧ ((∀ n, Processor.standard.resultAt program (.fresh m.settings) n = .ok .running) →
      ∀ patience, Processor.standard.run patience program m = none)
    ∧ (∀ patience result after,
      Processor.standard.run patience program m = some (result, after) →
        after = .fresh m.settings
        ∧ ∃ n < patience, Processor.standard.HaltsAt program (.fresh m.settings) n
          ∧ Disclosed program (.fresh m.settings) n result
          ∧ ∀ text, result = .ok (some text) →
            Processor.standard.resultAt program (.fresh m.settings) n = .ok .ended) := by
  have hp : Processor.standard.IgnoresSettings program := ignoresSettings .standard program
  have hallows : ∀ steps, m.settings.Allows steps := Settings.allows_of_unlimited hunlimited
  have hanswer : ∀ n, Processor.standard.HaltsAt program (.fresh m.settings) n →
      ∀ patience, Processor.standard.run patience program m
        = if n < patience then
            some (Processor.released (Processor.standard.resultAt program (.fresh m.settings) n)
              (Processor.standard.machineAt program (.fresh m.settings) (n + 1)).output,
              .fresh m.settings)
          else none := by
    intro n hhalts patience
    exact Processor.run_of_haltsAt hp hhalts (hallows (n + 1)) patience
  refine ⟨?_, ?_, ?_⟩
  · intro n hhalts
    exact ⟨_, fun other => disclosed_iff hhalts, hanswer n hhalts⟩
  · intro hrunning patience
    exact Processor.run_eq_none hp (fun i _ => hrunning i) (hallows patience)
  · intro patience result after hrun
    rcases Processor.goesOn_or_haltsAt Processor.standard program (.fresh m.settings) patience with
      hgoes | ⟨n, hn, hhalts⟩
    · rw [Processor.run_eq_none hp hgoes (hallows patience)] at hrun
      cases hrun
    · rw [hanswer n hhalts patience, if_pos hn] at hrun
      cases hrun
      have hdisclosed := (disclosed_iff hhalts).2 rfl
      refine ⟨rfl, n, hn, hhalts, hdisclosed, ?_⟩
      intro text htext
      rw [htext] at hdisclosed
      cases hdisclosed with
      | ended hended => exact hended

/-- A program that says two things and ends itself. -/
def sayingProgram : Program :=
  [⟨"mov", ["a", "5"]⟩, ⟨"msg", ["'a = '", "a"]⟩, ⟨"inc", ["a"]⟩, ⟨"msg", ["'now '", "a"]⟩,
    ⟨"end", []⟩]

/-- The saying program makes the second thing known, with the value at that moment. -/
theorem run_discloses_steps_saying :
    (Machine.fresh {}).settings.maxSteps = none
      ∧ Processor.standard.HaltsAt sayingProgram (.fresh {}) 4
      ∧ Disclosed sayingProgram (.fresh {}) 4 (.ok (some "now 6"))
      ∧ ∀ patience, Processor.standard.run patience sayingProgram (.fresh {})
        = if 4 < patience then some (.ok (some "now 6"), .fresh {}) else none := by
  have hhalts : Processor.standard.HaltsAt sayingProgram (.fresh {}) 4 := by
    constructor
    · unfold Processor.GoesOn
      decide +kernel
    · decide +kernel
  obtain ⟨result, hdisclosed, hrun⟩ :=
    (run_discloses_steps sayingProgram (.fresh {}) rfl).1 4 hhalts
  have hfive : Processor.standard.run 5 sayingProgram (.fresh {})
      = some (.ok (some "now 6"), .fresh {}) := by decide +kernel
  have hresult : result = .ok (some "now 6") := by
    rw [hrun 5, if_pos (by decide), Option.some.injEq, Prod.mk.injEq] at hfive
    exact hfive.1
  subst hresult
  exact ⟨rfl, hhalts, (hdisclosed _).2 rfl, hrun⟩

end PseudoAsm

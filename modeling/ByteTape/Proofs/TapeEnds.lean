import ByteTape.Proofs.Simulation

set_option autoImplicit false

namespace ByteTape

/-- The error of a pointer that would get out of its tape: the fault, or what stands for it when the
fault has too long a number in it. -/
def StepError.Outside (e : StepError) : Prop :=
  (∃ pointer cells ip, e = .fault (.outOfTape pointer cells ip)) ∨ e = .escape .unwritable

theorem StepError.outside_outOfTape (goal : Int) (cells ip : Nat) :
    (outOfTape goal cells ip).Outside := by
  by_cases short : Text.Writable goal
  · exact Or.inl ⟨goal, cells, ip, outOfTape_of_writable short cells ip⟩
  · exact Or.inr (outOfTape_of_not_writable short cells ip)

theorem StepError.not_outside_ofRefusal (refusal : Refusal) : ¬(ofRefusal refusal).Outside := by
  cases refusal <;> simp [ofRefusal, Outside]

theorem StepsTo.exists_target_error {m : Machine} {source : Source} {sink : Sink} {c : Config}
    {e : StepError} (steps : StepsTo m source sink c (some e)) (outside : e.Outside) :
    ∃ delta, m.Moves delta ∧ m.target delta = .error e := by
  cases steps with
  | stuck moving target => exact ⟨_, moving, target⟩
  | refused writing cell refused answer =>
    exact absurd (answer ▸ outside) (StepError.not_outside_ofRefusal _)
  | pastEnd | readsNowhere | exhausted | failed | reported | raised | unbalanced | partnerless
  | nowhere => simp [StepError.Outside] at outside

namespace Machine

variable {m : Machine} {delta : Int} {pointer : Nat}

theorem target_eq_ok_iff_of_bounded (bounded : m.policy = .bounded) :
    m.target delta = .ok pointer ↔
      (pointer : Int) = m.pointer + delta ∧ pointer < m.tape.size := by
  simp only [target, bounded]
  split
  · rw [Except.ok.injEq]
    omega
  · simp only [reduceCtorEq, false_iff]
    omega

theorem error_of_moves (onTape : m.pointer < m.tape.size) (moving : m.Moves delta)
    {e : StepError} (fails : m.target delta = .error e) :
    m.policy = .bounded ∧
      (m.instruction? = some .right ∧ m.pointer + 1 = m.tape.size ∧
          e = .outOfTape m.tape.size m.tape.size m.ip ∨
        m.instruction? = some .left ∧ m.pointer = 0 ∧
          e = .fault (.outOfTape (-1) m.tape.size m.ip)) := by
  rcases moving with ⟨instruction, rfl⟩ | ⟨instruction, rfl⟩
  · rw [target_one onTape] at fails
    by_cases inside : m.pointer + 1 < m.tape.size
    · simp [inside] at fails
    · cases policy : m.policy with
      | wrap => simp [inside, policy] at fails
      | bounded =>
        simp only [inside, ↓reduceIte, policy, Except.error.injEq] at fails
        exact ⟨rfl, Or.inl ⟨instruction, by omega, fails.symm⟩⟩
  · rw [target_neg_one onTape] at fails
    cases here : m.pointer with
    | succ pointer => simp [here] at fails
    | zero =>
      cases policy : m.policy with
      | wrap => simp [here, policy] at fails
      | bounded =>
        simp only [here, policy, Except.error.injEq] at fails
        rw [StepError.outOfTape_of_writable (by decide)] at fails
        exact ⟨rfl, Or.inr ⟨instruction, rfl, fails.symm⟩⟩

end Machine

namespace Config

variable {c : Config} {delta : Int} {e : StepError}

/-- The next step fails because it would lead the pointer out of the tape. -/
def LeavesTape (c : Config) : Prop :=
  ∃ e, c.step.2 = some e ∧ e.Outside

theorem step_of_moves (moving : c.machine.Moves delta) : c.step = c.shift delta := by
  rcases moving with ⟨instruction, rfl⟩ | ⟨instruction, rfl⟩
  · exact step_of_instruction? instruction
  · exact step_of_instruction? instruction

theorem step_of_target_error (moving : c.machine.Moves delta)
    (fails : c.machine.target delta = .error e) : c.step = (c, some e) := by
  rw [step_of_moves moving]
  simp only [shift, fails]

theorem step_of_target_ok {pointer : Nat} (moving : c.machine.Moves delta)
    (goes : c.machine.target delta = .ok pointer) :
    c.step =
      (c.onMachine fun m => { m with pointer := pointer, ip := m.ip + 1 }, none) := by
  rw [step_of_moves moving]
  simp only [shift, goes, onMachine]

theorem leavesTape_of_target_error (onTape : c.machine.pointer < c.machine.tape.size)
    (moving : c.machine.Moves delta) (fails : c.machine.target delta = .error e) :
    c.LeavesTape := by
  have step := step_of_target_error moving fails
  refine ⟨e, by rw [step], ?_⟩
  rcases (Machine.error_of_moves onTape moving fails).2 with ⟨-, -, rfl⟩ | ⟨-, -, rfl⟩
  · exact StepError.outside_outOfTape _ _ _
  · exact Or.inl ⟨_, _, _, rfl⟩

theorem exists_target_error_of_step (fails : c.step.2 = some e) (outside : e.Outside) :
    ∃ delta, c.machine.Moves delta ∧ c.machine.target delta = .error e := by
  have steps := StepsTo.of_step c.machine c.source c.sink
  rw [fails] at steps
  exact steps.exists_target_error outside

theorem program_after (c : Config) (n : Nat) :
    (c.after n).machine.program = c.machine.program := by
  induction n with
  | zero => rfl
  | succ n ih => exact (StepsTo.of_step _ _ _).program_eq.trans ih

theorem policy_after (c : Config) (n : Nat) :
    (c.after n).machine.policy = c.machine.policy := by
  induction n with
  | zero => rfl
  | succ n ih => exact (StepsTo.of_step _ _ _).policy_eq.trans ih

theorem size_tape_after (c : Config) (n : Nat) :
    (c.after n).machine.tape.size = c.machine.tape.size := by
  induction n with
  | zero => rfl
  | succ n ih => exact (StepsTo.of_step _ _ _).size_tape.trans ih

theorem onTape_after (onTape : c.machine.pointer < c.machine.tape.size) (n : Nat) :
    (c.after n).machine.pointer < (c.after n).machine.tape.size := by
  induction n with
  | zero => exact onTape
  | succ n ih => exact (StepsTo.of_step _ _ _).onTape ih

end Config

end ByteTape

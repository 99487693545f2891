import ByteTape.Proofs.TapeEnds

set_option autoImplicit false

namespace ByteTape

theorem StepError.eq_of_outOfTape_eq_fault {goal : Int} {cells ip : Nat} {f : Fault}
    (same : outOfTape goal cells ip = .fault f) : f = .outOfTape goal cells ip := by
  unfold outOfTape at same
  split at same
  · exact (StepError.fault.inj same).symm
  · simp at same

namespace Machine

/-- The same machine under another policy. -/
def under (policy : PointerPolicy) (m : Machine) : Machine :=
  { m with policy := policy }

variable {m : Machine}

theorem target_under_wrap {delta : Int} {pointer : Nat} (bounded : m.policy = .bounded)
    (goes : m.target delta = .ok pointer) : (m.under .wrap).target delta = .ok pointer := by
  obtain ⟨goal, inside⟩ := (target_eq_ok_iff_of_bounded bounded).1 goes
  have size : m.tape.size ≠ 0 := by omega
  have around : (pointer : Int) % m.tape.size = pointer :=
    Int.emod_eq_of_lt (by omega) (by omega)
  simp only [target, under, size, ↓reduceIte, ← goal, around, Int.toNat_natCast]

theorem alike_under_wrap (bounded : m.policy = .bounded)
    (stays : ∀ delta e, m.Moves delta → m.target delta ≠ .error e) :
    Alike id (under .wrap) m (m.under .wrap) where
  fetch?_eq := rfl
  ip_eq := rfl
  cell?_eq := rfl
  next_eq := rfl
  alter_eq change := rfl
  write_eq value := rfl
  target_eq delta moving := by
    cases target : m.target delta with
    | error e => exact absurd target (stays delta e moving)
    | ok pointer => exact Or.inr ⟨_, _, rfl, target_under_wrap bounded target, rfl⟩
  landing_eq jumping := landing_cases rfl fun ip => rfl

end Machine

namespace Config

variable {c : Config}

theorem step_under_wrap (bounded : c.machine.policy = .bounded)
    (onTape : c.machine.pointer < c.machine.tape.size) (stays : ¬c.LeavesTape) :
    (c.onMachine (.under .wrap)).step = (c.step.1.onMachine (.under .wrap), c.step.2) := by
  apply step_onMachine_of_id
  apply Machine.alike_under_wrap bounded
  intro delta e moving fails
  exact stays (leavesTape_of_target_error onTape moving fails)

/-- Where the one policy lets a step fail, the other leads to the other end of the tape. -/
theorem step_under_wrap_of_outOfTape (onTape : c.machine.pointer < c.machine.tape.size)
    {goal : Int} {cells ip : Nat} (fails : c.step.2 = some (.fault (.outOfTape goal cells ip))) :
    cells = c.machine.tape.size ∧ ip = c.machine.ip ∧ ∃ pointer,
      (goal = -1 ∧ pointer = cells - 1 ∨ goal = cells ∧ pointer = 0) ∧
      (c.onMachine (.under .wrap)).step =
        (c.onMachine fun m => { m with policy := .wrap, pointer := pointer, ip := ip + 1 },
          none) := by
  obtain ⟨delta, moving, target⟩ := exists_target_error_of_step fails (Or.inl ⟨_, _, _, rfl⟩)
  have onTape' : (c.machine.under .wrap).pointer < (c.machine.under .wrap).tape.size := onTape
  rcases (Machine.error_of_moves onTape moving target).2 with
    ⟨instruction, last, error⟩ | ⟨instruction, first, error⟩
  · have same := StepError.eq_of_outOfTape_eq_fault error.symm
    simp only [Fault.outOfTape.injEq] at same
    obtain ⟨rfl, rfl, rfl⟩ := same
    refine ⟨rfl, rfl, 0, Or.inr ⟨rfl, rfl⟩, ?_⟩
    have beyond : ¬c.machine.pointer + 1 < c.machine.tape.size := by omega
    have goes : (c.machine.under .wrap).target 1 = .ok 0 := by
      rw [Machine.target_one onTape']
      simp only [Machine.under, beyond, ↓reduceIte]
    exact step_of_target_ok (c := c.onMachine (.under .wrap)) (Or.inl ⟨instruction, rfl⟩) goes
  · simp only [StepError.fault.injEq, Fault.outOfTape.injEq] at error
    obtain ⟨rfl, rfl, rfl⟩ := error
    refine ⟨rfl, rfl, c.machine.tape.size - 1, Or.inl ⟨rfl, rfl⟩, ?_⟩
    have goes : (c.machine.under .wrap).target (-1) = .ok (c.machine.tape.size - 1) := by
      rw [Machine.target_neg_one onTape']
      simp only [Machine.under, first]
    exact step_of_target_ok (c := c.onMachine (.under .wrap)) (Or.inr ⟨instruction, rfl⟩) goes

theorem not_leavesTape_of_wrap (wraps : c.machine.policy = .wrap)
    (onTape : c.machine.pointer < c.machine.tape.size) : ¬c.LeavesTape := by
  rintro ⟨e, fails, outside⟩
  obtain ⟨delta, moving, target⟩ := exists_target_error_of_step fails outside
  have bounded := (Machine.error_of_moves onTape moving target).1
  simp [wraps] at bounded

/-- As long as a machine that may not leave its tape does not try to, it goes as one that wraps
around. The step that it fails because of this leads the other from the one end of the tape to the
other; no step of the other ever fails for this reason. -/
theorem wrapping_until_outside (c : Config) (bounded : c.machine.policy = .bounded)
    (onTape : c.machine.pointer < c.machine.tape.size) :
    (∀ n, (∀ k, k < n → ¬(c.after k).LeavesTape) →
      (c.onMachine (.under .wrap)).after n = (c.after n).onMachine (.under .wrap) ∧
      (∀ k, k < n → ((c.onMachine (.under .wrap)).after k).step.2 = (c.after k).step.2) ∧
      ∀ goal cells ip, (c.after n).step.2 = some (.fault (.outOfTape goal cells ip)) →
        cells = c.machine.tape.size ∧ ip = (c.after n).machine.ip ∧ ∃ pointer,
          (goal = -1 ∧ pointer = cells - 1 ∨ goal = cells ∧ pointer = 0) ∧
          ((c.onMachine (.under .wrap)).after n).step =
            ((c.after n).onMachine fun m =>
              { m with policy := .wrap, pointer := pointer, ip := ip + 1 }, none)) ∧
    ∀ n, ¬((c.onMachine (.under .wrap)).after n).LeavesTape := by
  constructor
  · intro n stays
    have step {k : Nat} (below : k < n) : ((c.after k).onMachine (.under .wrap)).step =
        ((c.after k).step.1.onMachine (.under .wrap), (c.after k).step.2) := by
      apply step_under_wrap
      · rw [policy_after, bounded]
      · exact onTape_after onTape k
      · exact stays k below
    have same {m : Nat} (le : m ≤ n) :
        (c.onMachine (.under .wrap)).after m = (c.after m).onMachine (.under .wrap) := by
      apply after_onMachine
      intro k below
      exact step (by omega)
    refine ⟨same (Nat.le_refl n), ?_, ?_⟩
    · intro k below
      rw [same (by omega), step below]
    · intro goal cells ip fails
      rw [same (Nat.le_refl n), ← size_tape_after c n]
      exact step_under_wrap_of_outOfTape (onTape_after onTape n) fails
  · intro n
    apply not_leavesTape_of_wrap
    · rw [policy_after]
      rfl
    · exact onTape_after (c := c.onMachine (.under .wrap)) onTape n

def incrementAndLeave : Config :=
  ⟨{ program := Program.ofString "+<", tape := #[7] }, .ofBytes #[], .unlimited⟩

theorem wrapping_until_outside_left_end :
    incrementAndLeave.machine.policy = .bounded ∧
      incrementAndLeave.machine.pointer < incrementAndLeave.machine.tape.size ∧
      (∀ k, k < 1 → ¬(incrementAndLeave.after k).LeavesTape) ∧
      (incrementAndLeave.after 1).step.2 = some (.fault (.outOfTape (-1) 1 1)) ∧
      ((incrementAndLeave.onMachine (.under .wrap)).after 1).step.2 = none ∧
      ((incrementAndLeave.onMachine (.under .wrap)).after 2).machine.pointer = 0 := by
  have stays : ∀ k, k < 1 → ¬(incrementAndLeave.after k).LeavesTape := by
    rintro k below ⟨e, fails, -⟩
    have first : k = 0 := by omega
    have succeeds : (incrementAndLeave.after 0).step.2 = none := rfl
    simp [first, succeeds] at fails
  have fails : (incrementAndLeave.after 1).step.2 = some (.fault (.outOfTape (-1) 1 1)) := rfl
  obtain ⟨-, -, around⟩ := (wrapping_until_outside incrementAndLeave rfl (by decide)).1 1 stays
  obtain ⟨-, -, pointer, goal, step⟩ := around (-1) 1 1 fails
  have arrived : pointer = 0 := by omega
  refine ⟨rfl, by decide, stays, fails, by rw [step], ?_⟩
  rw [after_succ_of_step step]
  exact arrived

end Config

end ByteTape

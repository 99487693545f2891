import ByteTape.Proofs.Reachable
import ByteTape.Proofs.Rotation

set_option autoImplicit false

namespace ByteTape

namespace Machine

variable {m : Machine} {a b delta : Int} {pointer d k : Nat} {e : StepError}

theorem move_of_target_ok (goes : m.target delta = .ok pointer) :
    m.move delta = ({ m with pointer := pointer }, none) := by
  simp only [move, goes]

theorem move_of_target_error (fails : m.target delta = .error e) :
    m.move delta = (m, some (e.reportedAt m.ip)) := by
  simp only [move, fails]

theorem exists_target_of_move (succeeds : (m.move delta).2 = none) :
    ∃ pointer, m.target delta = .ok pointer := by
  cases target : m.target delta with
  | ok pointer => exact ⟨pointer, rfl⟩
  | error e => simp [move_of_target_error target] at succeeds

/-- The position in the program matters only for what is said about a move that fails. -/
theorem target_at_ip (goes : m.target delta = .ok pointer) (ip : Nat) :
    ({ m with ip := ip } : Machine).target delta = .ok pointer := by
  unfold target at goes ⊢
  cases policy : m.policy with
  | wrap => simpa only [policy] using goes
  | bounded =>
    by_cases inside : 0 ≤ (m.pointer : Int) + delta ∧ (m.pointer : Int) + delta < m.tape.size
    · simpa only [policy, inside, and_self, ↓reduceIte] using goes
    · simp only [policy, inside, ↓reduceIte, reduceCtorEq] at goes

/-- A move from where another one has led is one move by both distances, and fails as that does. -/
theorem target_add (goes : m.target a = .ok pointer) (b : Int) (ip : Nat) :
    ({ m with pointer := pointer, ip := ip } : Machine).target b =
      ({ m with ip := ip } : Machine).target (a + b) := by
  cases policy : m.policy with
  | wrap =>
    by_cases size : m.tape.size = 0
    · simp [target, policy, size] at goes
    · have landed : (pointer : Int) = (m.pointer + a) % m.tape.size := by
        simp only [target, policy, size, ↓reduceIte, Except.ok.injEq] at goes
        rw [← goes, natCast_toNat_emod (Nat.pos_of_ne_zero size)]
      simp only [target, size, ↓reduceIte, landed, Int.emod_add_emod, Int.add_assoc]
  | bounded =>
    obtain ⟨landed, -⟩ := (target_eq_ok_iff_of_bounded policy).1 goes
    simp only [target, landed, Int.add_assoc]

theorem target_zero (onTape : m.pointer < m.tape.size) : m.target 0 = .ok m.pointer := by
  cases policy : m.policy with
  | wrap =>
    rw [target_of_wrap policy onTape, Int.add_zero, Int.emod_eq_of_lt (by omega) (by omega),
      Int.toNat_natCast]
  | bounded => exact (target_eq_ok_iff_of_bounded policy).2 ⟨by omega, onTape⟩

theorem target_of_outside (bounded : m.policy = .bounded)
    (outside : ¬(0 ≤ m.pointer + delta ∧ m.pointer + delta < m.tape.size)) :
    m.target delta = .error (.outOfTape (m.pointer + delta) m.tape.size m.ip) := by
  simp only [target, bounded, outside, ↓reduceIte]

structure GoesRound (m : Machine) : Prop where
  lands (a : Int) : ∃ pointer, m.move a = ({ m with pointer := pointer }, none) ∧
    ∀ cell : Nat, cell < m.tape.size ∧
      (cell : Int) % m.tape.size = (m.pointer + a) % m.tape.size ↔ cell = pointer
  adds_up (a b : Int) : (m.move a).1.move b = m.move (a + b)
  rests : m.move 0 = (m, none)
  returns (a : Int) : (m.move a).1.move (-a) = (m, none)

/-- What moves do to a pointer that may not leave its tape. A place outside cannot be reported if
its number is too long to be written, nor if the position in the program is. -/
structure StaysWithin (m : Machine) : Prop where
  succeeds_iff (a : Int) :
    (m.move a).2 = none ↔ 0 ≤ m.pointer + a ∧ m.pointer + a < m.tape.size
  lands (a : Int) : (m.move a).2 = none →
    ∃ pointer : Nat, pointer = m.pointer + a ∧ m.move a = ({ m with pointer := pointer }, none)
  reports (a : Int) : (m.move a).2 ≠ none → Text.Writable (m.pointer + a) → Text.Writable m.ip →
    m.move a = (m, some (.fault (.outOfTape (m.pointer + a) m.tape.size m.ip)))
  breaks (a : Int) : (m.move a).2 ≠ none → ¬Text.Writable (m.pointer + a) ∨ ¬Text.Writable m.ip →
    m.move a = (m, some (.escape .unwritable))
  adds_up (a b : Int) : (m.move a).2 = none → ((m.move a).1.move b).2 = none →
    m.move (a + b) = (m.move a).1.move b

theorem move_move (first : (m.move a).2 = none) (second : ((m.move a).1.move b).2 = none) :
    (m.move a).1.move b = m.move (a + b) := by
  obtain ⟨pointer, goes⟩ := exists_target_of_move first
  rw [move_of_target_ok goes] at second ⊢
  obtain ⟨further, goes'⟩ := exists_target_of_move second
  have both : m.target (a + b) = .ok further := by
    rw [← goes']
    exact (target_add goes b m.ip).symm
  rw [move_of_target_ok goes', move_of_target_ok both]

theorem goesRound (wraps : m.policy = .wrap) (onTape : m.pointer < m.tape.size) :
    m.GoesRound := by
  have positive : 0 < m.tape.size := Nat.zero_lt_of_lt onTape
  have moved (a : Int) :
      m.move a = ({ m with pointer := ((m.pointer + a) % m.tape.size).toNat }, none) :=
    move_of_target_ok (target_of_wrap wraps onTape a)
  have added (a b : Int) : (m.move a).1.move b = m.move (a + b) := by
    rw [moved a, moved (a + b)]
    apply move_of_target_ok
    rw [← target_of_wrap wraps onTape (a + b)]
    exact target_add (target_of_wrap wraps onTape a) b m.ip
  have rested : m.move 0 = (m, none) := move_of_target_ok (target_zero onTape)
  refine ⟨?_, added, rested, ?_⟩
  · intro a
    refine ⟨_, moved a, ?_⟩
    intro cell
    constructor
    · rintro ⟨inside, congruent⟩
      rw [← congruent, Int.emod_eq_of_lt (by omega) (by omega), Int.toNat_natCast]
    · rintro rfl
      exact ⟨toNat_emod_lt positive _, by rw [natCast_toNat_emod positive, Int.emod_emod]⟩
  · intro a
    rw [added, Int.add_right_neg, rested]

theorem staysWithin (bounded : m.policy = .bounded) : m.StaysWithin := by
  have succeeds_iff (a : Int) :
      (m.move a).2 = none ↔ 0 ≤ m.pointer + a ∧ m.pointer + a < m.tape.size := by
    by_cases inside : 0 ≤ m.pointer + a ∧ m.pointer + a < m.tape.size
    · have goes : m.target a = .ok (m.pointer + a).toNat :=
        (target_eq_ok_iff_of_bounded bounded).2 (by omega)
      simp only [move_of_target_ok goes, inside, and_self]
    · simp only [move_of_target_error (target_of_outside bounded inside), reduceCtorEq, inside]
  have fails (a : Int) (outside : (m.move a).2 ≠ none) :
      m.move a =
        (m, some ((StepError.outOfTape (m.pointer + a) m.tape.size m.ip).reportedAt m.ip)) :=
    move_of_target_error (target_of_outside bounded (mt (succeeds_iff a).2 outside))
  refine ⟨succeeds_iff, ?_, ?_, ?_, fun a b first second => (move_move first second).symm⟩
  · intro a succeeds
    obtain ⟨pointer, goes⟩ := exists_target_of_move succeeds
    exact ⟨pointer, ((target_eq_ok_iff_of_bounded bounded).1 goes).1, move_of_target_ok goes⟩
  · intro a outside short near
    rw [fails a outside, StepError.reportedAt_outOfTape, if_pos ⟨short, near⟩]
  · intro a outside long
    rw [fails a outside, StepError.reportedAt_outOfTape,
      if_neg (Decidable.not_and_iff_or_not.2 long)]

/-- The next `d` characters of the program all move the pointer by `delta`. -/
def MovesOn (m : Machine) (delta : Int) (d : Nat) : Prop :=
  delta = 1 ∧ (∀ k, k < d → m.program.fetch? (m.ip + k) = some '>') ∨
    delta = -1 ∧ ∀ k, k < d → m.program.fetch? (m.ip + k) = some '<'

namespace MovesOn

theorem of_le (moving : m.MovesOn delta d) (le : k ≤ d) : m.MovesOn delta k := by
  rcases moving with ⟨forth, stands⟩ | ⟨back, stands⟩
  · exact Or.inl ⟨forth, fun i below => stands i (by omega)⟩
  · exact Or.inr ⟨back, fun i below => stands i (by omega)⟩

theorem moves (moving : m.MovesOn delta d) (below : k < d) :
    ({ m with pointer := pointer, ip := m.ip + k } : Machine).Moves delta := by
  rcases moving with ⟨forth, stands⟩ | ⟨back, stands⟩
  · refine Or.inl ⟨?_, forth⟩
    simp only [instruction?, stands k below, Option.bind_some, Instruction.ofChar?]
  · refine Or.inr ⟨?_, back⟩
    simp only [instruction?, stands k below, Option.bind_some, Instruction.ofChar?]

theorem next (moving : m.MovesOn delta (d + 1)) :
    ({ m with pointer := pointer, ip := m.ip + 1 } : Machine).MovesOn delta d := by
  rcases moving with ⟨forth, stands⟩ | ⟨back, stands⟩
  · refine Or.inl ⟨forth, fun k below => ?_⟩
    simpa only [Nat.add_assoc, Nat.add_comm 1] using stands (k + 1) (by omega)
  · refine Or.inr ⟨back, fun k below => ?_⟩
    simpa only [Nat.add_assoc, Nat.add_comm 1] using stands (k + 1) (by omega)

end MovesOn

/-- A pointer that can be moved by some cells one by one can be moved by the first of them. -/
theorem exists_target_of_further (moving : m.MovesOn delta (d + 1))
    (onTape : m.pointer < m.tape.size) (goes : m.target ((d + 1 : Nat) * delta) = .ok pointer) :
    ∃ next, m.target delta = .ok next := by
  cases policy : m.policy with
  | wrap => exact ⟨_, target_of_wrap policy onTape delta⟩
  | bounded =>
    obtain ⟨landed, inside⟩ := (target_eq_ok_iff_of_bounded policy).1 goes
    rcases moving with ⟨rfl, -⟩ | ⟨rfl, -⟩
    · exact ⟨m.pointer + 1, (target_eq_ok_iff_of_bounded policy).2 (by omega)⟩
    · exact ⟨m.pointer - 1, (target_eq_ok_iff_of_bounded policy).2 (by omega)⟩

end Machine

namespace Config

variable {c next : Config} {delta : Int} {d k n pointer : Nat} {e : StepError}

theorem steps_add (first : c.steps n = (next, none)) (k : Nat) :
    c.steps (n + k) = next.steps k := by
  induction n generalizing c with
  | zero =>
    obtain rfl : c = next := congrArg Prod.fst first
    rw [Nat.zero_add]
  | succ n ih =>
    rw [Nat.succ_add, steps]
    rw [steps] at first
    rcases step : c.step with ⟨d, error⟩
    rw [step] at first
    cases error with
    | none => exact ih first
    | some e => simp at first

/-- The same with the pointer on another cell, `k` characters further on in the program. -/
def walked (c : Config) (pointer k : Nat) : Config :=
  c.onMachine fun m => { m with pointer := pointer, ip := m.ip + k }

/-- Moves one by one lead where one move by all of the distance leads. -/
theorem steps_of_target_ok (moving : c.machine.MovesOn delta d)
    (onTape : c.machine.pointer < c.machine.tape.size)
    (goes : c.machine.target (d * delta) = .ok pointer) :
    c.steps d = (c.walked pointer d, none) := by
  induction d generalizing c with
  | zero =>
    rw [Int.natCast_zero, Int.zero_mul, Machine.target_zero onTape, Except.ok.injEq] at goes
    rw [← goes]
    rfl
  | succ d ih =>
    obtain ⟨next, first⟩ := Machine.exists_target_of_further moving onTape goes
    have step : c.step = (c.walked next 1, none) :=
      step_of_target_ok (moving.moves (k := 0) (Nat.succ_pos d)) first
    have inside := Machine.pointer_lt_of_target (Nat.zero_lt_of_lt onTape) first
    have rest : (c.walked next 1).machine.target (d * delta) = .ok pointer := by
      refine (Machine.target_add first (d * delta) (c.machine.ip + 1)).trans ?_
      apply Machine.target_at_ip
      rw [← goes, Int.natCast_succ, Int.add_mul, Int.one_mul, Int.add_comm]
    rw [steps, step]
    refine (ih (c := c.walked next 1) moving.next inside rest).trans ?_
    simp only [walked, onMachine, Nat.add_assoc, Nat.add_comm 1]

theorem steps_of_target_error (moving : c.machine.MovesOn delta d) (below : k < d)
    (onTape : c.machine.pointer < c.machine.tape.size)
    (goes : c.machine.target (k * delta) = .ok pointer)
    (fails : (c.walked pointer k).machine.target delta = .error e) :
    c.steps d = (c.walked pointer k, some e) := by
  have reached := steps_of_target_ok (moving.of_le (Nat.le_of_lt below)) onTape goes
  have step : (c.walked pointer k).step = (c.walked pointer k, some e) :=
    step_of_target_error (moving.moves below) fails
  rw [show d = k + (d - k - 1 + 1) by omega, steps_add reached, steps, step]

/-- How moves by `delta`, one by one, compare with one move by `d` times that. -/
inductive Walks (c : Config) (delta : Int) (d : Nat) : Prop
  /-- Both lead to the same cell. -/
  | arrives {pointer : Nat}
      (moves : c.machine.move (d * delta) = ({ c.machine with pointer := pointer }, none))
      (walks : c.steps d = (c.walked pointer d, none))
  /-- Both would lead out of the tape. The moves one by one get to its end before one of them fails,
  which reports the place next to the end. -/
  | sticks {k pointer : Nat} {e : StepError}
      (bounded : c.machine.policy = .bounded)
      (fails : c.machine.move (d * delta) = (c.machine, some e))
      (below : k < d)
      (atEnd : delta = 1 ∧ k = c.machine.tape.size - 1 - c.machine.pointer ∧
          pointer + 1 = c.machine.tape.size ∨
        delta = -1 ∧ k = c.machine.pointer ∧ pointer = 0)
      (reaches : c.steps k = (c.walked pointer k, none))
      (stops : c.steps d = (c.walked pointer k,
        some (.outOfTape (pointer + delta) c.machine.tape.size (c.machine.ip + k))))
      (reports : (c.machine.tape.size : Int) < Word.limit →
        StepError.outOfTape (pointer + delta) c.machine.tape.size (c.machine.ip + k) =
          .fault (.outOfTape (pointer + delta) c.machine.tape.size (c.machine.ip + k)))

/-- Where a pointer gets stuck that would be led out of its tape one cell at a time. -/
theorem exists_end_of_outside (moving : c.machine.MovesOn delta d)
    (onTape : c.machine.pointer < c.machine.tape.size)
    (outside : ¬(0 ≤ c.machine.pointer + d * delta ∧
      c.machine.pointer + d * delta < c.machine.tape.size)) :
    ∃ k pointer : Nat, k < d ∧ (pointer : Int) = c.machine.pointer + k * delta ∧
      pointer < c.machine.tape.size ∧
      (delta = 1 ∧ k = c.machine.tape.size - 1 - c.machine.pointer ∧
          pointer + 1 = c.machine.tape.size ∨
        delta = -1 ∧ k = c.machine.pointer ∧ pointer = 0) := by
  rcases moving with ⟨rfl, -⟩ | ⟨rfl, -⟩
  · exact ⟨c.machine.tape.size - 1 - c.machine.pointer, c.machine.tape.size - 1, by omega, by omega,
      by omega, Or.inl ⟨rfl, rfl, by omega⟩⟩
  · exact ⟨c.machine.pointer, 0, by omega, by omega, by omega, Or.inr ⟨rfl, rfl, rfl⟩⟩

theorem walks (moving : c.machine.MovesOn delta d)
    (onTape : c.machine.pointer < c.machine.tape.size) : c.Walks delta d := by
  cases target : c.machine.target (d * delta) with
  | ok pointer =>
    exact .arrives (Machine.move_of_target_ok target) (steps_of_target_ok moving onTape target)
  | error e =>
    have bounded : c.machine.policy = .bounded := by
      cases policy : c.machine.policy with
      | wrap => simp [Machine.target_of_wrap policy onTape] at target
      | bounded => rfl
    have outside : ¬(0 ≤ c.machine.pointer + d * delta ∧
        c.machine.pointer + d * delta < c.machine.tape.size) := by
      intro inside
      have goes : c.machine.target (d * delta) = .ok (c.machine.pointer + d * delta).toNat :=
        (Machine.target_eq_ok_iff_of_bounded bounded).2 (by omega)
      simp [goes] at target
    -- the way there passes the end of the tape, where one of the moves fails
    obtain ⟨k, pointer, below, landed, inside, atEnd⟩ := exists_end_of_outside moving onTape outside
    have goes : c.machine.target (k * delta) = .ok pointer :=
      (Machine.target_eq_ok_iff_of_bounded bounded).2 ⟨landed, inside⟩
    have stuck : (c.walked pointer k).machine.target delta =
        .error (.outOfTape (pointer + delta) c.machine.tape.size (c.machine.ip + k)) := by
      apply Machine.target_of_outside (m := (c.walked pointer k).machine) bounded
      simp only [walked, onMachine]
      omega
    refine .sticks bounded (Machine.move_of_target_error target) below atEnd
      (steps_of_target_ok (moving.of_le (Nat.le_of_lt below)) onTape goes)
      (steps_of_target_error moving below onTape goes stuck) ?_
    intro fits
    apply StepError.outOfTape_of_writable
    rcases atEnd with ⟨rfl, -, last⟩ | ⟨rfl, -, rfl⟩
    · rw [show (pointer : Int) + 1 = c.machine.tape.size by omega]
      exact writable_of_lt_limit fits
    · decide

end Config

namespace Machine

/-- On a tape that goes round, every move succeeds and leads to the one cell that is as far from the
pointer as it says, modulo the number of cells; moves add up, and each can be undone. On a tape that
may not be left, just the moves that lead to a cell succeed, and they add up as well; any other
leaves the pointer alone and reports where it would have led and at which position, if these numbers
can be written. Moving by one cell `d` times, in either direction, comes to the same as moving by
`d` cells, except that the pointer gets to the end of the tape before it fails. -/
theorem moves_add_up (m : Machine) (onTape : m.pointer < m.tape.size) :
    (m.policy = .wrap → m.GoesRound) ∧
    (m.policy = .bounded → m.StaysWithin) ∧
    ∀ source sink delta d, m.MovesOn delta d → Config.Walks ⟨m, source, sink⟩ delta d := by
  refine ⟨fun wraps => goesRound wraps onTape, staysWithin, ?_⟩
  intro source sink delta d moving
  exact Config.walks (c := ⟨m, source, sink⟩) moving onTape

def fourToTheRight (policy : PointerPolicy) : Machine where
  program := Program.ofString ">>>>"
  tape := #[7, 8, 9]
  policy := policy
  pointer := 1

theorem moves_add_up_four_to_the_right :
    1 < 3 ∧ (fourToTheRight .wrap).GoesRound ∧ (fourToTheRight .bounded).StaysWithin ∧
      (fourToTheRight .wrap).MovesOn 1 4 ∧ (fourToTheRight .bounded).MovesOn 1 4 ∧
      Config.Walks ⟨fourToTheRight .wrap, .ofBytes #[], .unlimited⟩ 1 4 ∧
      Config.Walks ⟨fourToTheRight .bounded, .ofBytes #[], .unlimited⟩ 1 4 ∧
      (Config.steps 4 ⟨fourToTheRight .bounded, .ofBytes #[], .unlimited⟩).2 =
        some (.fault (.outOfTape 3 3 1)) := by
  have moving (policy : PointerPolicy) : (fourToTheRight policy).MovesOn 1 4 := by
    refine Or.inl ⟨rfl, ?_⟩
    intro k below
    match k, below with
    | 0, _ | 1, _ | 2, _ | 3, _ => rfl
  obtain ⟨round, -, walks⟩ := moves_add_up (fourToTheRight .wrap) (by decide)
  obtain ⟨-, within, sticks⟩ := moves_add_up (fourToTheRight .bounded) (by decide)
  exact ⟨by decide, round rfl, within rfl, moving .wrap, moving .bounded,
    walks _ _ 1 4 (moving .wrap), sticks _ _ 1 4 (moving .bounded), rfl⟩

/-- A place outside the tape whose number has more than 4300 digits is not reported. -/
theorem not_moves_out_always_reported :
    ¬∀ (m : Machine) (a : Int), m.pointer < m.tape.size → m.policy = .bounded →
      ¬(0 ≤ m.pointer + a ∧ m.pointer + a < m.tape.size) →
        m.move a = (m, some (.fault (.outOfTape (m.pointer + a) m.tape.size m.ip))) := by
  intro reports
  let m : Machine := { program := Program.ofString "", tape := #[0, 0], pointer := 1 }
  let a : Int := (Nat.pow 10 Text.maxDigits : Nat) - 1
  have beyond : (m.pointer : Int) + a = (Nat.pow 10 Text.maxDigits : Nat) := by
    simp only [m, a]
    omega
  have long : ¬Text.Writable (m.pointer + a) := by
    rw [beyond, Text.writable_iff, Int.natAbs_natCast]
    exact Nat.lt_irrefl _
  have outside : ¬(0 ≤ m.pointer + a ∧ m.pointer + a < m.tape.size) := by
    rintro ⟨nonneg, inside⟩
    have size : (m.tape.size : Int) = 2 := rfl
    have small : (m.pointer : Int) + a = 0 ∨ (m.pointer : Int) + a = 1 := by omega
    apply long
    rcases small with zero | one
    · rw [zero]
      decide
    · rw [one]
      decide
  have reported := reports m a (by decide) rfl outside
  have within : m.StaysWithin := staysWithin rfl
  rw [within.breaks a (mt (within.succeeds_iff a).1 outside) (Or.inl long)] at reported
  cases reported

end Machine

end ByteTape

import ByteTape.Proofs.Locality
import ByteTape.Proofs.TapeEnds
import Mathlib.Data.Nat.Count

set_option autoImplicit false

namespace ByteTape

section Around

variable {size i j : Nat} {p r : Int}

theorem toNat_emod_lt (positive : 0 < size) (p : Int) : (p % size).toNat < size := by
  have below := Int.emod_lt_of_pos p (show (0 : Int) < size by omega)
  omega

theorem natCast_toNat_emod (positive : 0 < size) (p : Int) : ((p % size).toNat : Int) = p % size :=
  Int.toNat_of_nonneg (Int.emod_nonneg p (by omega))

theorem toNat_emod_add_eq_iff (inside : i < size) (inside' : j < size) (r : Int) :
    ((i + r) % size).toNat = j ↔ ((j - r) % size).toNat = i := by
  have positive : 0 < size := by omega
  constructor
  · rintro rfl
    rw [natCast_toNat_emod positive, Int.emod_sub_emod, Int.add_sub_cancel,
      Int.emod_eq_of_lt (by omega) (by omega), Int.toNat_natCast]
  · rintro rfl
    rw [natCast_toNat_emod positive, Int.emod_add_emod, Int.sub_add_cancel,
      Int.emod_eq_of_lt (by omega) (by omega), Int.toNat_natCast]

end Around

namespace Tape

def rotate (r : Int) (tape : Array UInt8) : Array UInt8 :=
  tape.mapIdx fun j value => tape.getD ((j - r) % tape.size).toNat value

variable {tape : Array UInt8} {r : Int} {i j : Nat}

@[simp]
theorem size_rotate (r : Int) (tape : Array UInt8) : (rotate r tape).size = tape.size :=
  Array.size_mapIdx

theorem getElem?_rotate (inside : j < tape.size) :
    (rotate r tape)[j]? = tape[((j - r) % tape.size).toNat]? := by
  have bound := toNat_emod_lt (Nat.zero_lt_of_lt inside) (j - r)
  rw [rotate, Array.getElem?_mapIdx, Array.getElem?_eq_getElem inside, Option.map_some,
    Array.getElem?_eq_getElem bound, Array.getD_eq_getD_getElem?,
    Array.getElem?_eq_getElem bound, Option.getD_some]

theorem getElem?_rotate_add (inside : i < tape.size) :
    (rotate r tape)[((i + r) % tape.size).toNat]? = tape[i]? := by
  have bound := toNat_emod_lt (Nat.zero_lt_of_lt inside) (i + r)
  rw [getElem?_rotate bound, (toNat_emod_add_eq_iff inside bound r).1 rfl]

theorem rotate_modify (inside : i < tape.size) (change : UInt8 → UInt8) :
    rotate r (tape.modify i change) =
      (rotate r tape).modify ((i + r) % tape.size).toNat change := by
  apply Array.ext_getElem?
  intro j
  by_cases inside' : j < tape.size
  · have bound := toNat_emod_lt (Nat.zero_lt_of_lt inside) (j - r)
    rw [getElem?_rotate (by simpa using inside'), Array.getElem?_modify, Array.getElem?_modify,
      Array.size_modify, getElem?_rotate inside']
    simp only [toNat_emod_add_eq_iff inside inside', eq_comm]
  · rw [Array.getElem?_eq_none (by simpa using inside'),
      Array.getElem?_eq_none (by simpa using inside')]

end Tape

namespace Machine

def rotate (r : Int) (m : Machine) : Machine :=
  { m with tape := Tape.rotate r m.tape, pointer := ((m.pointer + r) % m.tape.size).toNat }

variable {m : Machine} {r : Int}

theorem target_of_wrap (wraps : m.policy = .wrap) (onTape : m.pointer < m.tape.size) (delta : Int) :
    m.target delta = .ok ((m.pointer + delta) % m.tape.size).toNat := by
  have size : m.tape.size ≠ 0 := by omega
  simp only [target, wraps, size, ↓reduceIte]

theorem onTape_rotate (onTape : m.pointer < m.tape.size) :
    (m.rotate r).pointer < (m.rotate r).tape.size := by
  simpa only [rotate, Tape.size_rotate] using toNat_emod_lt (Nat.zero_lt_of_lt onTape) _

theorem alike_rotate (wraps : m.policy = .wrap) (onTape : m.pointer < m.tape.size) :
    Alike id (rotate r) m (m.rotate r) where
  fetch?_eq := rfl
  ip_eq := rfl
  cell?_eq := Tape.getElem?_rotate_add onTape
  next_eq := rfl
  alter_eq change := by
    simp only [rotate, Tape.rotate_modify onTape change, Array.size_modify]
  write_eq value := rfl
  target_eq delta moving := by
    have positive : 0 < m.tape.size := Nat.zero_lt_of_lt onTape
    refine Or.inr ⟨_, _, target_of_wrap wraps onTape delta,
      target_of_wrap (m := m.rotate r) wraps (onTape_rotate onTape) delta, ?_⟩
    simp only [rotate, Tape.size_rotate, natCast_toNat_emod positive, Int.emod_add_emod]
    rw [Int.add_right_comm]
  landing_eq jumping := landing_cases rfl fun ip => rfl

end Machine

namespace Config

variable {c : Config} {n : Nat}

theorem step_rotate (wraps : c.machine.policy = .wrap)
    (onTape : c.machine.pointer < c.machine.tape.size) (r : Int) :
    (c.onMachine (.rotate r)).step = (c.step.1.onMachine (.rotate r), c.step.2) :=
  step_onMachine_of_id (Machine.alike_rotate wraps onTape)

theorem step_after_rotate (wraps : c.machine.policy = .wrap)
    (onTape : c.machine.pointer < c.machine.tape.size) (r : Int) (n : Nat) :
    ((c.after n).onMachine (.rotate r)).step =
      ((c.after n).step.1.onMachine (.rotate r), (c.after n).step.2) := by
  apply step_rotate
  · rw [policy_after, wraps]
  · exact onTape_after onTape n

/-- How often the first `n` steps have executed an instruction. A step that fails does not count. -/
def executed (c : Config) (i : Instruction) (n : Nat) : Nat :=
  Nat.count (fun k => (c.after k).machine.instruction? = some i ∧ (c.after k).step.2 = none) n

theorem executed_succ (c : Config) (i : Instruction) (n : Nat) :
    c.executed i (n + 1) = c.executed i n +
      if (c.after n).machine.instruction? = some i ∧ (c.after n).step.2 = none then 1 else 0 :=
  Nat.count_succ _ n

theorem step_of_moves_around {delta : Int} (wraps : c.machine.policy = .wrap)
    (onTape : c.machine.pointer < c.machine.tape.size) (moving : c.machine.Moves delta) :
    c.step.2 = none ∧
      (c.step.1.machine.pointer : Int) = (c.machine.pointer + delta) % c.machine.tape.size := by
  rw [step_of_target_ok moving (Machine.target_of_wrap wraps onTape delta)]
  exact ⟨rfl, natCast_toNat_emod (Nat.zero_lt_of_lt onTape) _⟩

theorem pointer_step_of_still (noRight : c.machine.instruction? ≠ some .right)
    (noLeft : c.machine.instruction? ≠ some .left) :
    c.step.1.machine.pointer = c.machine.pointer := by
  rcases stepped : c.step with ⟨d, e⟩
  cases e with
  | some e => rw [machine_of_error stepped]
  | none =>
    have succeeds : c.step.2 = none := by rw [stepped]
    have kept := (altered_of_success succeeds).pointer_eq noRight noLeft
    rwa [stepped] at kept

/-- The pointer is where the moves have led it, round the tape. -/
theorem pointer_after (wraps : c.machine.policy = .wrap)
    (onTape : c.machine.pointer < c.machine.tape.size) (n : Nat) :
    ((c.after n).machine.pointer : Int) =
      (c.machine.pointer + c.executed .right n - c.executed .left n) % c.machine.tape.size := by
  induction n with
  | zero =>
    simp only [after, executed, Nat.count_zero, Int.natCast_zero, Int.add_zero, Int.sub_zero]
    exact (Int.emod_eq_of_lt (by omega) (by omega)).symm
  | succ n ih =>
    have wraps' : (c.after n).machine.policy = .wrap := (policy_after c n).trans wraps
    have onTape' := onTape_after onTape n
    have size := size_tape_after c n
    rw [executed_succ, executed_succ]
    by_cases right : (c.after n).machine.instruction? = some .right
    · obtain ⟨succeeds, moved⟩ := step_of_moves_around wraps' onTape' (Or.inl ⟨right, rfl⟩)
      rw [after, moved, ih, size, Int.emod_add_emod]
      simp only [right, succeeds]
      congr 1
      simp
      omega
    · by_cases left : (c.after n).machine.instruction? = some .left
      · obtain ⟨succeeds, moved⟩ := step_of_moves_around wraps' onTape' (Or.inr ⟨left, rfl⟩)
        rw [after, moved, ih, size, Int.emod_add_emod]
        simp only [left, succeeds]
        congr 1
        simp
        omega
      · rw [after, pointer_step_of_still right left, ih]
        simp only [right, left, false_and, ↓reduceIte, Nat.add_zero]

/-- A machine that wraps around does not see where its tape begins. If the tape is rotated, and the
pointer with it, then every step does the same and fails alike, with the tape and the pointer
rotated as before. The pointer is where the moves to the right, less those to the left, lead it
round the tape. -/
theorem rotation_changes_no_step (c : Config) (wraps : c.machine.policy = .wrap)
    (onTape : c.machine.pointer < c.machine.tape.size) :
    (∀ (r : Int) (n : Nat),
      (c.onMachine (.rotate r)).after n = (c.after n).onMachine (.rotate r) ∧
      ((c.onMachine (.rotate r)).after n).step.2 = (c.after n).step.2) ∧
    ∀ n, ((c.after n).machine.pointer : Int) =
      (c.machine.pointer + c.executed .right n - c.executed .left n) % c.machine.tape.size := by
  constructor
  · intro r n
    have same : (c.onMachine (.rotate r)).after n = (c.after n).onMachine (.rotate r) :=
      after_onMachine fun k _ => step_after_rotate wraps onTape r k
    refine ⟨same, ?_⟩
    rw [same, step_after_rotate wraps onTape r n]
  · exact pointer_after wraps onTape

/-- Increments its cell, goes round the left end of its three cells, and reads there. -/
def incrementAndRead : Config :=
  ⟨{ program := Program.ofString "+<,", tape := #[255, 1, 2], policy := .wrap }, .ofBytes #[9],
    .unlimited⟩

theorem rotation_changes_no_step_reading :
    incrementAndRead.machine.policy = .wrap ∧
      incrementAndRead.machine.pointer < incrementAndRead.machine.tape.size ∧
      ((incrementAndRead.onMachine (.rotate 4)).after 3).machine.tape = #[9, 0, 1] ∧
      ((incrementAndRead.onMachine (.rotate 4)).after 3).machine.pointer = 0 ∧
      (incrementAndRead.after 3).machine.pointer = 2 := by
  obtain ⟨rotated, located⟩ := rotation_changes_no_step incrementAndRead rfl (by decide)
  have pointer : ((incrementAndRead.after 3).machine.pointer : Int) = 2 := (located 3).trans rfl
  refine ⟨rfl, by decide, ?_, ?_, by omega⟩
  · rw [(rotated 4 3).1]
    rfl
  · rw [(rotated 4 3).1]
    rfl

end Config

end ByteTape

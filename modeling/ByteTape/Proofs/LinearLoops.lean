import ByteTape.Proofs.StraightText
import ByteTape.Proofs.Structured
import Mathlib.Order.Nat

set_option autoImplicit false

namespace ByteTape

def Empties (value : UInt8) (amount : Int) (k : Nat) : Prop :=
  ((value.toNat : Int) + k * amount) % 256 = 0

instance (value : UInt8) (amount : Int) : DecidablePred (Empties value amount) :=
  fun _ => inferInstanceAs (Decidable (_ = _))

theorem empties_iff {value : UInt8} {amount : Int} {k : Nat} :
    Empties value amount k ↔ UInt8.ofInt (value.toNat + k * amount) = 0 := by
  rw [Empties, ← UInt8.toNat_inj, ← Int.ofNat_inj, toNat_ofInt]
  rfl

theorem empties_zero {value : UInt8} {amount : Int} : Empties value amount 0 ↔ value = 0 := by
  have bound := value.toNat_lt
  rw [Empties, ← UInt8.toNat_inj, UInt8.toNat_zero]
  omega

namespace Machine

/-- The machine is at the beginning of a loop after the text `before`, with a straight body that
brings the pointer back to its cell. The cell has some value. -/
structure AtLinearLoop (before body : List Char) (value : UInt8) (m : Machine) : Prop where
  balanced : m.program.isBalanced = true
  stands : ∃ after, m.program.code.toList = before ++ '[' :: (body ++ ']' :: after)
  straight : Straight body
  even : body.count '>' = body.count '<'
  ip_eq : m.ip = before.length
  cell : m.cell? = some value
  stays : m.StaysOnTape m.pointer body

/-- The machine at position `ip`, with `k` times the gain of a body added to its tape. -/
def rounds (body : List Char) (k ip : Nat) (m : Machine) : Machine :=
  { m with
    tape := Tape.plus m.tape fun j => k * gain m.tape.size m.pointer body j
    ip := ip }

/-- How much one pass of a body adds to the cell that the pointer is on at its beginning. -/
def perRound (body : List Char) (m : Machine) : Int :=
  gain m.tape.size m.pointer body m.pointer

variable {m : Machine} {before body : List Char} {value : UInt8} {k ip : Nat}

theorem rounds_zero : m.rounds body 0 m.ip = m := by
  simp only [rounds]
  rw [Tape.plus_eq_self]
  intro j
  simp

theorem cell?_rounds (cell : m.cell? = some value) : (m.rounds body k ip).cell? =
    some (UInt8.ofInt (value.toNat + k * m.perRound body)) := by
  rw [cell?] at cell
  simp only [cell?, rounds, Tape.getElem?_plus, cell, Option.map_some, perRound]

/-- One more pass is one more round, as the body brings the pointer back. -/
theorem pass_rounds (back : drift body = 0) (onTape : m.pointer < m.tape.size) :
    (m.rounds body k ip).pass m.pointer body = m.rounds body (k + 1) (ip + body.length) := by
  have position : ((m.pointer : Int) % m.tape.size).toNat = m.pointer := by
    rw [Int.emod_eq_of_lt (by omega) (by omega), Int.toNat_natCast]
  have once (j : Nat) : k * gain m.tape.size m.pointer body j +
      gain m.tape.size m.pointer body j = (k + 1 : Nat) * gain m.tape.size m.pointer body j := by
    rw [Int.natCast_succ, Int.add_mul, Int.one_mul]
  simp only [pass, rounds, Tape.size_plus, Tape.plus_plus, once, back, Int.add_zero, position]

namespace AtLinearLoop

theorem onTape (loop : m.AtLinearLoop before body value) : m.pointer < m.tape.size :=
  (Array.getElem?_eq_some_iff.1 loop.cell).1

theorem drift_eq_zero (loop : m.AtLinearLoop before body value) : drift body = 0 := by
  rw [drift, loop.even, Int.sub_self]

theorem spans (loop : m.AtLinearLoop before body value) :
    Spans m.program.code.toList before.length (before.length + body.length + 1) := by
  obtain ⟨after, code⟩ := loop.stands
  exact ⟨before, body, after, code, loop.straight.balanced, rfl, rfl⟩

theorem atStraightText (loop : m.AtLinearLoop before body value) (k : Nat) :
    (m.rounds body k (before.length + 1)).AtStraightText m.pointer body where
  positive := by
    have onTape := loop.onTape
    simp only [rounds, Tape.size_plus]
    omega
  pointer_eq := by
    have onTape := loop.onTape
    simp only [rounds, Tape.size_plus]
    rw [Int.emod_eq_of_lt (by omega) (by omega), Int.toNat_natCast]
  stands := by
    intro i below
    obtain ⟨after, code⟩ := loop.stands
    simp only [rounds, Program.fetch?_eq_getElem?, code]
    rw [Nat.add_assoc, Nat.add_comm 1, List.getElem?_append_right (by omega),
      Nat.add_sub_cancel_left, List.getElem?_cons_succ, List.getElem?_append_left below]
  straight := loop.straight
  stays := by simpa [StaysOnTape, rounds] using loop.stays

end AtLinearLoop

end Machine

namespace Config

variable {c : Config} {first last m n : Nat} {before body : List Char} {value : UInt8}

/-- The first `n` steps all succeed, and each is made at a position from `first` to `last`. -/
def Within (first last : Nat) (c : Config) (n : Nat) : Prop :=
  ∀ k, k < n → (c.after k).step.2 = none ∧
    first ≤ (c.after k).machine.ip ∧ (c.after k).machine.ip ≤ last

theorem Within.of_le (within : c.Within first last n) (le : m ≤ n) : c.Within first last m := by
  intro k below
  exact within k (by omega)

theorem Within.append (within : c.Within first last m) (more : (c.after m).Within first last n) :
    c.Within first last (m + n) := by
  intro k below
  by_cases early : k < m
  · exact within k early
  · have later := more (k - m) (by omega)
    rwa [← after_add, show m + (k - m) = k by omega] at later

theorem within_one {d : Config} (step : c.step = (d, none)) (above : first ≤ c.machine.ip)
    (below : c.machine.ip ≤ last) : c.Within first last 1 := by
  intro k once
  obtain rfl : k = 0 := by omega
  exact ⟨congrArg Prod.snd step, above, below⟩

section Loop

variable {k ip : Nat}

theorem onMachine_rounds_zero (c : Config) (body : List Char) :
    c.onMachine (.rounds body 0 c.machine.ip) = c := by
  rw [onMachine, Machine.rounds_zero]

/-- At either bracket the loop is left or entered, as it has emptied its cell or not. -/
theorem step_rounds (loop : c.machine.AtLinearLoop before body value)
    (bracket : ip = before.length ∨ ip = before.length + body.length + 1) :
    (c.onMachine (.rounds body k ip)).step = (c.onMachine (.rounds body k
      (if UInt8.ofInt (value.toNat + k * c.machine.perRound body) = 0 then
        before.length + body.length + 1 + 1 else before.length + 1)), none) := by
  obtain ⟨table, resolved⟩ := Program.isBalanced_iff.1 loop.balanced
  exact step_of_spans (c := c.onMachine (.rounds body k ip)) resolved loop.spans
    (Machine.cell?_rounds loop.cell) bracket

theorem enter (loop : c.machine.AtLinearLoop before body value)
    (bracket : ip = before.length ∨ ip = before.length + body.length + 1)
    (stays : ¬Empties value (c.machine.perRound body) k) :
    (c.onMachine (.rounds body k ip)).step =
      (c.onMachine (.rounds body k (before.length + 1)), none) := by
  rw [empties_iff] at stays
  rw [step_rounds loop bracket, if_neg stays]

theorem within_round (loop : c.machine.AtLinearLoop before body value)
    (bracket : ip = before.length ∨ ip = before.length + body.length + 1)
    (stays : ¬Empties value (c.machine.perRound body) k) :
    (c.onMachine (.rounds body k ip)).Within before.length (before.length + body.length + 1)
        (1 + body.length) ∧
      (c.onMachine (.rounds body k ip)).after (1 + body.length) = c.onMachine
        (.rounds body (k + 1) (before.length + body.length + 1)) := by
  have step := enter loop bracket stays
  have entered := congrArg Prod.fst step
  have reached := loop.atStraightText k
  constructor
  · apply Within.append
    · apply within_one step
      · simp only [onMachine, Machine.rounds]
        omega
      · simp only [onMachine, Machine.rounds]
        omega
    · simp only [after, entered]
      intro i below
      refine ⟨step_after_of_straight reached below, ?_⟩
      rw [after_of_straight reached (by omega)]
      simp only [onMachine, Machine.pass, Machine.rounds, List.length_take]
      omega
  · simp only [after_add, after, entered]
    rw [after_of_straight reached (Nat.le_refl _), List.take_length]
    simp only [onMachine, Machine.pass_rounds loop.drift_eq_zero loop.onTape]
    rw [Nat.add_right_comm]

theorem after_rounds (loop : c.machine.AtLinearLoop before body value)
    (stays : ∀ i, i < k → ¬Empties value (c.machine.perRound body) i) :
    c.Within before.length (before.length + body.length + 1) (k * (1 + body.length)) ∧
      ∃ ip, (ip = before.length ∨ ip = before.length + body.length + 1) ∧
        c.after (k * (1 + body.length)) = c.onMachine (.rounds body k ip) := by
  induction k with
  | zero =>
    rw [Nat.zero_mul]
    -- the first round begins at the opening bracket, and each other one at the closing bracket
    refine ⟨fun i below => absurd below (Nat.not_lt_zero i), c.machine.ip, Or.inl loop.ip_eq, ?_⟩
    rw [onMachine_rounds_zero]
    rfl
  | succ k ih =>
    obtain ⟨within, ip, bracket, reached⟩ := ih fun i below => stays i (by omega)
    obtain ⟨around, back⟩ := within_round loop bracket (stays k (by omega))
    rw [← reached] at around back
    rw [Nat.succ_mul, after_add]
    exact ⟨within.append around, _, Or.inr rfl, back⟩

theorem within_of_never (loop : c.machine.AtLinearLoop before body value)
    (never : ∀ i, ¬Empties value (c.machine.perRound body) i) (n : Nat) :
    c.Within before.length (before.length + body.length + 1) n :=
  (after_rounds loop fun i _ => never i).1.of_le (Nat.le_mul_of_pos_right n (by omega))

theorem after_of_isLeast (loop : c.machine.AtLinearLoop before body value)
    (least : IsLeast {i | Empties value (c.machine.perRound body) i} k) :
    c.Within before.length (before.length + body.length + 1) (1 + k * (body.length + 1)) ∧
      c.after (1 + k * (body.length + 1)) =
        c.onMachine (.rounds body k (before.length + body.length + 1 + 1)) := by
  obtain ⟨within, ip, bracket, reached⟩ := after_rounds (k := k) loop
    fun i below empties => absurd (least.2 empties) (by omega)
  have step := step_rounds (k := k) loop bracket
  rw [if_pos (empties_iff.1 least.1), ← reached] at step
  rw [Nat.add_comm 1, Nat.add_comm body.length]
  refine ⟨within.append (within_one step ?_ ?_), after_succ_of_step step⟩
  · rw [reached]
    simp only [onMachine, Machine.rounds]
    omega
  · rw [reached]
    simp only [onMachine, Machine.rounds]
    omega

end Loop

/-- A loop whose body is straight and brings the pointer back is left if and only if some number of
rounds empties the cell that the pointer is on. The least such number is how many rounds it makes,
each with a step for each character of the body and one for a bracket. Each cell has then got that
many times what a round adds to it, and nothing else has changed, but for the position. If no number
of rounds empties the cell, the loop goes on for ever and no step of it fails. -/
theorem linear_loops (loop : c.machine.AtLinearLoop before body value) :
    let first := before.length
    let last := before.length + body.length + 1
    let cells := c.machine.tape.size
    let pointer := c.machine.pointer
    let amount := gain cells pointer body
    (value ≠ 0 → ∀ n x cell, (visits cells pointer body)[n]? = some (x, cell) →
      (c.after (1 + n)).machine.program.fetch? (c.after (1 + n)).machine.ip = some x ∧
        (c.after (1 + n)).machine.pointer = cell) ∧
    ((∃ n, (c.after n).machine.ip = last + 1) ↔ ∃ k, Empties value (amount pointer) k) ∧
    (∀ k, IsLeast {k | Empties value (amount pointer) k} k →
      let n := 1 + k * (body.length + 1)
      c.Within first last n ∧
      c.after n = c.onMachine (.rounds body k (last + 1)) ∧
      (∀ j old, c.machine.tape[j]? = some old → ∃ new, (c.after n).machine.tape[j]? = some new ∧
        (new.toNat : Int) = (old.toNat + k * amount j) % 256) ∧
      (c.after n).machine.cell? = some 0) ∧
    ((¬∃ k, Empties value (amount pointer) k) → ∀ n, c.Within first last n) := by
  intro first last cells pointer amount
  refine ⟨?_, ⟨?_, ?_⟩, ?_, ?_⟩
  · intro nonzero n x cell visited
    have step := enter loop (Or.inl loop.ip_eq) fun empties => nonzero (empties_zero.1 empties)
    rw [onMachine_rounds_zero] at step
    rw [after_add, after_succ_of_step (n := 0) step]
    apply visits_eq_pointer (loop.atStraightText 0)
    simpa only [onMachine, Machine.rounds, Tape.size_plus] using visited
  · rintro ⟨n, left⟩
    by_contra never
    have within := within_of_never loop (not_exists.1 never) (n + 1) n (Nat.lt_succ_self n)
    omega
  · intro empties
    have left := (after_of_isLeast loop (Nat.isLeast_find empties)).2
    refine ⟨1 + Nat.find empties * (body.length + 1), ?_⟩
    rw [left]
    rfl
  · intro k least n
    obtain ⟨within, reached⟩ := after_of_isLeast loop least
    refine ⟨within, reached, ?_, ?_⟩
    · intro j old found
      refine ⟨UInt8.ofInt (old.toNat + k * amount j), ?_, toNat_ofInt _⟩
      simp only [n, reached, onMachine, Machine.rounds, Tape.getElem?_plus, found, Option.map_some,
        amount, cells, pointer]
    · have cell : (c.machine.rounds body k (last + 1)).cell? =
        some (UInt8.ofInt (value.toNat + k * amount pointer)) := Machine.cell?_rounds loop.cell
      rw [reached, ← empties_iff.1 least.1]
      exact cell
  · intro never
    exact within_of_never loop (not_exists.1 never)

def doubling : Config where
  machine := { program := Program.ofString "+[->++<]", tape := #[3, 251], ip := 1 }
  source := .ofBytes #[]
  sink := .unlimited

theorem linear_loops_doubling :
    doubling.machine.AtLinearLoop ['+'] ['-', '>', '+', '+', '<'] 3 ∧
      IsLeast {k | Empties 3 (-1) k} 3 ∧ doubling.Within 1 7 19 ∧
      (doubling.after 19).machine.ip = 8 ∧ (doubling.after 19).machine.tape = #[0, 1] := by
  have loop : doubling.machine.AtLinearLoop ['+'] ['-', '>', '+', '+', '<'] 3 :=
    ⟨rfl, ⟨[], rfl⟩, by simp [Straight], rfl, rfl, rfl, by decide⟩
  have least : IsLeast {k | Empties 3 (-1) k} 3 := by
    refine ⟨show Empties 3 (-1) 3 by decide, fun k (empties : Empties 3 (-1) k) => ?_⟩
    by_contra fewer
    have never : ∀ i, i < 3 → ¬Empties 3 (-1) i := by decide
    exact never k (by omega) empties
  obtain ⟨within, reached, -, -⟩ := (linear_loops loop).2.2.1 3 least
  have ended : doubling.after 19 =
      doubling.onMachine (.rounds ['-', '>', '+', '+', '<'] 3 8) := reached
  rw [ended]
  exact ⟨loop, least, within, rfl, by decide +kernel⟩

end Config

end ByteTape

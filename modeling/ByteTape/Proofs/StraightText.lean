import ByteTape.Proofs.Comments
import ByteTape.Proofs.TapeEnds

set_option autoImplicit false

namespace ByteTape

theorem toNat_ofInt (n : Int) : ((UInt8.ofInt n).toNat : Int) = n % 256 := by
  simp only [UInt8.ofInt, UInt8.toNat_ofNat']
  omega

theorem ofInt_eq_iff {m n : Int} : UInt8.ofInt m = UInt8.ofInt n ↔ m % 256 = n % 256 := by
  rw [← toNat_ofInt, ← toNat_ofInt, Int.ofNat_inj, UInt8.toNat_inj]

theorem add_one_eq_ofInt (value : UInt8) : value + 1 = UInt8.ofInt (value.toNat + 1) := by
  rw [← UInt8.toNat_inj, ← Int.ofNat_inj, toNat_ofInt, UInt8.toNat_add, UInt8.toNat_one]
  omega

theorem sub_one_eq_ofInt (value : UInt8) : value - 1 = UInt8.ofInt (value.toNat + -1) := by
  have bound := value.toNat_lt
  rw [← UInt8.toNat_inj, ← Int.ofNat_inj, toNat_ofInt, UInt8.toNat_sub, UInt8.toNat_one]
  omega

namespace Tape

/-- The tape with `amount j` more in each cell `j`, modulo 256. -/
def plus (tape : Array UInt8) (amount : Nat → Int) : Array UInt8 :=
  tape.mapIdx fun j value => UInt8.ofInt (value.toNat + amount j)

variable {tape : Array UInt8} {amount more : Nat → Int}

@[simp]
theorem size_plus : (plus tape amount).size = tape.size :=
  Array.size_mapIdx

theorem getElem?_plus (j : Nat) : (plus tape amount)[j]? =
    tape[j]?.map fun value => UInt8.ofInt (value.toNat + amount j) :=
  Array.getElem?_mapIdx

theorem plus_plus : plus (plus tape amount) more = plus tape fun j => amount j + more j := by
  apply Array.ext_getElem?
  intro j
  rw [getElem?_plus, getElem?_plus, getElem?_plus, Option.map_map]
  congr 1
  funext value
  simp only [Function.comp_apply, toNat_ofInt, ofInt_eq_iff]
  omega

theorem getElem?_plus_of_zero {j : Nat} (nothing : amount j = 0) :
    (plus tape amount)[j]? = tape[j]? := by
  have same (value : UInt8) : UInt8.ofInt (value.toNat + amount j) = value := by
    rw [nothing, ← UInt8.toNat_inj, ← Int.ofNat_inj, toNat_ofInt]
    have bound := value.toNat_lt
    omega
  simp only [getElem?_plus, same, Option.map_id_fun', id_eq]

theorem plus_eq_self (nothing : ∀ j, amount j = 0) : plus tape amount = tape := by
  apply Array.ext_getElem?
  intro j
  exact getElem?_plus_of_zero (nothing j)

/-- To change one cell by an amount is to add it there and nothing elsewhere. -/
theorem modify_eq_plus {cell : Nat} {change : UInt8 → UInt8} (here : ∀ value : UInt8,
      change value = UInt8.ofInt (value.toNat + amount cell))
    (elsewhere : ∀ j, cell ≠ j → amount j = 0) : tape.modify cell change = plus tape amount := by
  apply Array.ext_getElem?
  intro j
  rw [Array.getElem?_modify]
  by_cases same : cell = j
  · subst same
    rw [if_pos rfl, getElem?_plus, funext here]
  · rw [if_neg same, getElem?_plus_of_zero (elsewhere j same)]

end Tape

/-- How far the pointer moves for a character. -/
def stride : Char → Int
  | '>' => 1
  | '<' => -1
  | _ => 0

/-- How much a character adds to the current cell. -/
def increase : Char → Int
  | '+' => 1
  | '-' => -1
  | _ => 0

/-- How far a text moves the pointer to the right. -/
def drift (text : List Char) : Int :=
  text.count '>' - text.count '<'

/-- The characters of a text, each with the cell that the pointer is on when it is executed. The
pointer starts on cell `p`, and goes round if it leaves the tape. -/
def visits (cells : Nat) : Int → List Char → List (Char × Nat)
  | _, [] => []
  | p, c :: rest => (c, (p % cells).toNat) :: visits cells (p + stride c) rest

/-- How often a text increments a cell, less how often it decrements it. -/
def gain (cells : Nat) (p : Int) (text : List Char) (cell : Nat) : Int :=
  (visits cells p text).count ('+', cell) - (visits cells p text).count ('-', cell)

/-- The text has no loops and neither reads nor writes. -/
def Straight (text : List Char) : Prop :=
  ∀ c ∈ text, c ≠ '.' ∧ c ≠ ',' ∧ c ≠ '[' ∧ c ≠ ']'

section Text

variable {a b text : List Char} {c : Char} {cells : Nat} {p : Int}

@[simp]
theorem drift_nil : drift [] = 0 := rfl

@[simp]
theorem drift_append (a b : List Char) : drift (a ++ b) = drift a + drift b := by
  simp only [drift, List.count_append]
  omega

theorem stride_of_ne (noRight : c ≠ '>') (noLeft : c ≠ '<') : stride c = 0 := by
  unfold stride
  split <;> simp_all

theorem drift_singleton (c : Char) : drift [c] = stride c := by
  unfold stride
  split
  · rfl
  · rfl
  · next noRight noLeft =>
    simp [drift, show c ≠ '>' from noRight, show c ≠ '<' from noLeft]

theorem drift_cons (c : Char) (rest : List Char) : drift (c :: rest) = stride c + drift rest := by
  rw [← drift_singleton, ← drift_append, List.singleton_append]

theorem visits_append (cells : Nat) (p : Int) (a b : List Char) :
    visits cells p (a ++ b) = visits cells p a ++ visits cells (p + drift a) b := by
  induction a generalizing p with
  | nil => simp [visits]
  | cons c a ih => rw [List.cons_append, visits, ih, visits, drift_cons, Int.add_assoc,
      List.cons_append]

theorem getElem?_visits (cells : Nat) (p : Int) (text : List Char) (n : Nat) :
    (visits cells p text)[n]? =
      text[n]?.map fun c => (c, ((p + drift (text.take n)) % cells).toNat) := by
  induction text generalizing p n with
  | nil => simp [visits]
  | cons c rest ih =>
    cases n with
    | zero => simp [visits]
    | succ n => simp only [visits, List.getElem?_cons_succ, ih, List.take_succ_cons, drift_cons,
        Int.add_assoc]

@[simp]
theorem gain_nil (cells : Nat) (p : Int) (cell : Nat) : gain cells p [] cell = 0 := rfl

theorem gain_append (cells : Nat) (p : Int) (a b : List Char) (cell : Nat) :
    gain cells p (a ++ b) cell = gain cells p a cell + gain cells (p + drift a) b cell := by
  simp only [gain, visits_append, List.count_append]
  omega

theorem increase_of_ne (noPlus : c ≠ '+') (noMinus : c ≠ '-') : increase c = 0 := by
  unfold increase
  split <;> simp_all

theorem gain_singleton (cells : Nat) (p : Int) (c : Char) (cell : Nat) : gain cells p [c] cell =
    if (p % cells).toNat = cell then increase c else 0 := by
  by_cases here : (p % cells).toNat = cell
  · rw [if_pos here]
    unfold increase
    split
    · simp [gain, visits, here]
    · simp [gain, visits, here]
    · next noPlus noMinus =>
      simp [gain, visits, show c ≠ '+' from noPlus, show c ≠ '-' from noMinus]
  · simp [gain, visits, here]

theorem gain_of_ne (noPlus : c ≠ '+') (noMinus : c ≠ '-') (cell : Nat) :
    gain cells p [c] cell = 0 := by
  rw [gain_singleton, increase_of_ne noPlus noMinus, ite_self]

theorem Straight.balanced (straight : Straight text) : Balanced text := by
  induction text with
  | nil => exact .nil
  | cons c text ih =>
    obtain ⟨-, -, noOpening, noClosing⟩ := straight c List.mem_cons_self
    exact .plain noOpening noClosing (ih fun d inside => straight d (List.mem_cons_of_mem c inside))

end Text

namespace Machine

/-- The machine after a straight text, if the pointer is where `p` is on a tape that goes round. -/
def pass (p : Int) (text : List Char) (m : Machine) : Machine :=
  { m with
    tape := Tape.plus m.tape (gain m.tape.size p text)
    pointer := ((p + drift text) % m.tape.size).toNat
    ip := m.ip + text.length }

/-- The pointer does not leave the tape when it moves as `text` says, or it may go round. -/
def StaysOnTape (m : Machine) (p : Int) (text : List Char) : Prop :=
  m.policy = .bounded → ∀ n, n ≤ text.length →
    0 ≤ p + drift (text.take n) ∧ p + drift (text.take n) < m.tape.size

instance (m : Machine) (p : Int) (text : List Char) : Decidable (m.StaysOnTape p text) :=
  inferInstanceAs (Decidable (_ → _))

/-- A straight text stands at the position of the machine, and can be executed with the pointer
where `p` is on a tape that goes round. -/
structure AtStraightText (p : Int) (text : List Char) (m : Machine) : Prop where
  positive : 0 < m.tape.size
  pointer_eq : (p % m.tape.size).toNat = m.pointer
  stands : ∀ k, k < text.length → m.program.fetch? (m.ip + k) = text[k]?
  straight : Straight text
  stays : m.StaysOnTape p text

variable {m : Machine} {p : Int} {x : Char}

theorem pass_nil (here : (p % m.tape.size).toNat = m.pointer) : m.pass p [] = m := by
  simp only [pass, Tape.plus_eq_self (gain_nil _ p), drift_nil, Int.add_zero, here,
    List.length_nil, Nat.add_zero]

theorem pass_pass (m : Machine) (p : Int) (a b : List Char) :
    (m.pass p a).pass (p + drift a) b = m.pass p (a ++ b) := by
  simp only [pass, Tape.size_plus, Tape.plus_plus, ← gain_append, drift_append, ← Int.add_assoc,
    List.length_append, ← Nat.add_assoc]

theorem pass_of_ne_arithmetic (noPlus : x ≠ '+') (noMinus : x ≠ '-') :
    m.pass p [x] =
      { m with pointer := ((p + stride x) % m.tape.size).toNat, ip := m.ip + 1 } := by
  simp only [pass, Tape.plus_eq_self (gain_of_ne noPlus noMinus), drift_singleton,
    List.length_singleton]

theorem pass_of_ne_move (here : (p % m.tape.size).toNat = m.pointer) (noRight : x ≠ '>')
    (noLeft : x ≠ '<') : m.pass p [x] =
      { m with tape := Tape.plus m.tape (gain m.tape.size p [x]), ip := m.ip + 1 } := by
  simp only [pass, drift_singleton, stride_of_ne noRight noLeft, Int.add_zero, here,
    List.length_singleton]

theorem pass_of_change {change : UInt8 → UInt8} (here : (p % m.tape.size).toNat = m.pointer)
    (noRight : x ≠ '>') (noLeft : x ≠ '<')
    (adds : ∀ value : UInt8, change value = UInt8.ofInt (value.toNat + increase x)) :
    m.pass p [x] = { m with tape := m.tape.modify m.pointer change, ip := m.ip + 1 } := by
  have added : m.tape.modify m.pointer change = Tape.plus m.tape (gain m.tape.size p [x]) := by
    apply Tape.modify_eq_plus
    · intro value
      rw [adds, gain_singleton, if_pos here]
    · intro j other
      rw [gain_singleton, here, if_neg other]
  rw [pass_of_ne_move here noRight noLeft, added]

theorem target_of_stays {delta : Int} (positive : 0 < m.tape.size)
    (here : (p % m.tape.size).toNat = m.pointer)
    (stays : m.policy = .bounded → (0 ≤ p ∧ p < m.tape.size) ∧
      0 ≤ p + delta ∧ p + delta < m.tape.size) :
    m.target delta = .ok ((p + delta) % m.tape.size).toNat := by
  have nonneg : 0 ≤ p % m.tape.size := Int.emod_nonneg p (by omega)
  have position : (m.pointer : Int) = p % m.tape.size := by omega
  cases policy : m.policy with
  | wrap =>
    have size : m.tape.size ≠ 0 := by omega
    simp only [target, policy, size, ↓reduceIte, position, Int.emod_add_emod]
  | bounded =>
    obtain ⟨onTape, within⟩ := stays policy
    rw [Int.emod_eq_of_lt onTape.1 onTape.2] at position
    simp only [target, policy, position, within, and_self, ↓reduceIte,
      Int.emod_eq_of_lt within.1 within.2]

end Machine

namespace Config

variable {c : Config} {p : Int} {x : Char} {text : List Char}

theorem step_of_alters {change : UInt8 → UInt8} (altering : c.machine.Alters change)
    (onTape : c.machine.pointer < c.machine.tape.size) : c.step =
      (c.onMachine fun m =>
        { m with tape := m.tape.modify m.pointer change, ip := m.ip + 1 }, none) := by
  have altered : c.step = c.alter change := by
    rcases altering with ⟨instruction, rfl⟩ | ⟨instruction, rfl⟩
    · exact step_of_instruction? instruction
    · exact step_of_instruction? instruction
  rw [altered]
  simp only [alter, onTape, ↓reduceIte, onMachine]

theorem step_of_straight (positive : 0 < c.machine.tape.size)
    (here : (p % c.machine.tape.size).toNat = c.machine.pointer)
    (fetched : c.machine.program.fetch? c.machine.ip = some x)
    (straight : x ≠ '.' ∧ x ≠ ',' ∧ x ≠ '[' ∧ x ≠ ']')
    (stays : c.machine.policy = .bounded → (0 ≤ p ∧ p < c.machine.tape.size) ∧
      0 ≤ p + stride x ∧ p + stride x < c.machine.tape.size) :
    c.step = (c.onMachine (.pass p [x]), none) := by
  have goes := Machine.target_of_stays positive here stays
  have onTape : c.machine.pointer < c.machine.tape.size := by
    have below := Int.emod_lt_of_pos p (show (0 : Int) < c.machine.tape.size by omega)
    omega
  cases written : Instruction.ofChar? x with
  | none =>
    have comment : ∀ i : Instruction, x ≠ i.toChar := by
      rintro i rfl
      simp at written
    have still := Machine.pass_of_ne_move here (comment .right) (comment .left)
    rw [Tape.plus_eq_self (gain_of_ne (comment .increment) (comment .decrement))] at still
    rw [step_of_comment fetched (by simp [Instruction.isCode, written])]
    simp only [onMachine, still]
  | some i =>
    have found : c.machine.instruction? = some i := by
      simp [Machine.instruction?, fetched, written]
    obtain rfl := Instruction.toChar_of_ofChar? written
    cases i with
    | right =>
      rw [step_of_target_ok (Or.inl ⟨found, rfl⟩) goes]
      simp only [onMachine, Machine.pass_of_ne_arithmetic (x := '>') (by decide) (by decide),
        Instruction.toChar]
    | left =>
      rw [step_of_target_ok (Or.inr ⟨found, rfl⟩) goes]
      simp only [onMachine, Machine.pass_of_ne_arithmetic (x := '<') (by decide) (by decide),
        Instruction.toChar]
    | increment =>
      rw [step_of_alters (Or.inl ⟨found, rfl⟩) onTape]
      have added := Machine.pass_of_change (x := '+') here (by decide) (by decide) add_one_eq_ofInt
      simp only [onMachine, Instruction.toChar, added]
    | decrement =>
      rw [step_of_alters (Or.inr ⟨found, rfl⟩) onTape]
      have added := Machine.pass_of_change (x := '-') here (by decide) (by decide) sub_one_eq_ofInt
      simp only [onMachine, Instruction.toChar, added]
    | write => exact absurd rfl straight.1
    | read => exact absurd rfl straight.2.1
    | openLoop => exact absurd rfl straight.2.2.1
    | closeLoop => exact absurd rfl straight.2.2.2

section Run

variable {n : Nat}

theorem step_pass_take (reached : c.machine.AtStraightText p text) (below : n < text.length) :
    (c.onMachine (.pass p (text.take n))).step =
      (c.onMachine (.pass p (text.take (n + 1))), none) := by
  have split : text.take n ++ [text[n]] = text.take (n + 1) :=
    List.take_append_getElem below
  have passed : (c.machine.pass p (text.take n)).ip = c.machine.ip + n := by
    simp only [Machine.pass, List.length_take, Nat.min_eq_left (Nat.le_of_lt below)]
  have step := step_of_straight (c := c.onMachine (.pass p (text.take n)))
    (p := p + drift (text.take n)) (x := text[n])
    (by simpa [onMachine, Machine.pass] using reached.positive)
    (by simp [onMachine, Machine.pass]) ?_
    (reached.straight _ (List.getElem_mem below)) ?_
  · rw [step]
    simp only [onMachine, Machine.pass_pass, split]
  · simp only [onMachine, passed]
    exact (reached.stands n below).trans (List.getElem?_eq_getElem below)
  · intro bounded
    have before := reached.stays bounded n (by omega)
    have after := reached.stays bounded (n + 1) (by omega)
    rw [← split, drift_append, drift_singleton, ← Int.add_assoc] at after
    simpa [onMachine, Machine.pass] using ⟨before, after⟩

theorem after_of_straight (reached : c.machine.AtStraightText p text) (le : n ≤ text.length) :
    c.after n = c.onMachine (.pass p (text.take n)) := by
  induction n with
  | zero =>
    rw [List.take_zero, onMachine, Machine.pass_nil reached.pointer_eq]
    rfl
  | succ n ih =>
    apply after_succ_of_step
    rw [ih (by omega)]
    exact step_pass_take reached (by omega)

theorem step_after_of_straight (reached : c.machine.AtStraightText p text)
    (below : n < text.length) : (c.after n).step.2 = none := by
  rw [after_of_straight reached (by omega), step_pass_take reached below]

theorem visits_eq_pointer (reached : c.machine.AtStraightText p text) {y : Char} {cell : Nat}
    (visited : (visits c.machine.tape.size p text)[n]? = some (y, cell)) :
    (c.after n).machine.program.fetch? (c.after n).machine.ip = some y ∧
      (c.after n).machine.pointer = cell := by
  rw [getElem?_visits, Option.map_eq_some_iff] at visited
  obtain ⟨z, found, same⟩ := visited
  obtain ⟨rfl, rfl⟩ := Prod.mk.inj same
  have below : n < text.length := (List.getElem?_eq_some_iff.1 found).1
  rw [after_of_straight reached (by omega)]
  simp only [onMachine, Machine.pass, List.length_take, Nat.min_eq_left (Nat.le_of_lt below),
    and_true]
  exact (reached.stands n below).trans found

end Run

end Config

end ByteTape

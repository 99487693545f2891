import ByteTape.Word

set_option autoImplicit false

namespace ByteTape

/-- A value that someone offers as a tape size. Of one that is no integer nothing but the name of
its type matters. -/
inductive SizeValue
  | integer (n : Int)
  | other (typeName : String)
  deriving DecidableEq, Repr

inductive SizeError
  | notAnInteger (typeName : String)
  | tooSmall (n : Int)
  deriving DecidableEq, Repr

namespace SizeError

def message : SizeError → String
  | notAnInteger typeName => s!"Tape size must be an int, not {typeName}"
  | tooSmall n => s!"Tape size must be at least 1, got {n}"

end SizeError

/-- The size of a tape with at least one cell. -/
structure TapeSize where
  cells : Nat
  pos : 0 < cells := by decide
  deriving DecidableEq, Repr

namespace TapeSize

def standard : TapeSize where
  cells := 1024

def ofInt (n : Int) : Except SizeError TapeSize :=
  if h : 0 < n then .ok ⟨n.toNat, by omega⟩ else .error (.tooSmall n)

def ofValue : SizeValue → Except SizeError TapeSize
  | .integer n => ofInt n
  | .other typeName => .error (.notAnInteger typeName)

theorem ofInt_eq_ok_iff {n : Int} {size : TapeSize} :
    ofInt n = .ok size ↔ n = size.cells := by
  obtain ⟨cells, pos⟩ := size
  unfold ofInt
  constructor
  · split
    · simp only [Except.ok.injEq, TapeSize.mk.injEq]
      omega
    · simp
  · rintro rfl
    simp [pos]

theorem ofInt_eq_error_iff {n : Int} {e : SizeError} :
    ofInt n = .error e ↔ n < 1 ∧ e = .tooSmall n := by
  unfold ofInt
  split
  · simp only [reduceCtorEq, false_iff]
    omega
  · simp only [Except.error.injEq]
    constructor
    · rintro rfl
      exact ⟨by omega, rfl⟩
    · rintro ⟨_, rfl⟩
      rfl

theorem exists_ofValue_of_pos {n : Int} (positive : 1 ≤ n) :
    ∃ size : TapeSize, size.cells = n ∧ ofValue (.integer n) = .ok size := by
  have cells_eq : (n.toNat : Int) = n := Int.toNat_of_nonneg (by omega)
  exact ⟨⟨n.toNat, by omega⟩, cells_eq, ofInt_eq_ok_iff.2 cells_eq.symm⟩

theorem ofValue_of_not_pos {n : Int} (small : n < 1) :
    ofValue (.integer n) = .error (.tooSmall n) :=
  ofInt_eq_error_iff.2 ⟨small, rfl⟩

end TapeSize

/-- Why there is no tape of some number of cells. -/
inductive TapeError
  /-- The number fits into no word. -/
  | outOfRange
  | negative
  | outOfMemory
  deriving DecidableEq, Repr

namespace TapeError

def message : TapeError → String
  | outOfRange => "the tape size does not fit into a word"
  | negative => "negative count"
  | outOfMemory => "the tape does not fit into memory"

end TapeError

namespace Tape

/-- The number of cells of a tape of the given size, if there can be such a tape while memory has
room for `room` cells. -/
def cellsOfInt (room : Nat) (n : Int) : Except TapeError Nat :=
  if ¬Word.Fits n then .error .outOfRange
  else if n < 0 then .error .negative
  else if room < n.toNat then .error .outOfMemory
  else .ok n.toNat

theorem cellsOfInt_eq_ok_iff {room : Nat} {n : Int} {cells : Nat} :
    cellsOfInt room n = .ok cells ↔ n = cells ∧ n < Word.limit ∧ cells ≤ room := by
  grind [cellsOfInt, Word.Fits, Word.limit]

theorem cellsOfInt_eq_negative_iff {room : Nat} {n : Int} :
    cellsOfInt room n = .error .negative ↔ -Word.limit ≤ n ∧ n < 0 := by
  grind [cellsOfInt, Word.Fits, Word.limit]

theorem cellsOfInt_eq_outOfMemory_iff {room : Nat} {n : Int} :
    cellsOfInt room n = .error .outOfMemory ↔ room < n ∧ n < Word.limit := by
  grind [cellsOfInt, Word.Fits, Word.limit]

theorem cellsOfInt_eq_outOfRange_iff {room : Nat} {n : Int} :
    cellsOfInt room n = .error .outOfRange ↔ n < -Word.limit ∨ Word.limit ≤ n := by
  grind [cellsOfInt, Word.Fits, Word.limit]

end Tape

end ByteTape

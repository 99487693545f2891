import ByteTape.Device.ForeignFault

set_option autoImplicit false

namespace ByteTape

inductive Reading
  /-- A value of any size and sign; the machine keeps it modulo 256. -/
  | value (n : Int)
  | endOfInput
  | failed (reason : String)
  | reported (fault : ForeignFault)
  /-- The source broke down, with a failure that is not about reading. -/
  | raised (text : String)
  deriving DecidableEq, Repr

structure Source where
  readings : Nat → Reading
  position : Nat := 0

namespace Source

def read (s : Source) : Reading × Source :=
  (s.readings s.position, { s with position := s.position + 1 })

/-- What the source will answer from now on. -/
def unread (s : Source) (i : Nat) : Reading :=
  s.readings (s.position + i)

/-- The given answers, and then the end of the input for ever. -/
def ofReadings (answers : Array Reading) : Source where
  readings i := answers[i]?.getD .endOfInput

def ofBytes (bytes : Array UInt8) : Source where
  readings i := (bytes[i]?.map fun b => Reading.value b.toNat).getD .endOfInput

/-- The answers to `n` readings in a row, and the source after them. -/
def take (s : Source) : Nat → List Reading × Source
  | 0 => ([], s)
  | n + 1 =>
    let (reading, next) := s.read
    let (others, last) := next.take n
    (reading :: others, last)

@[simp]
theorem read_fst (s : Source) : s.read.1 = s.unread 0 := rfl

@[simp]
theorem unread_read (s : Source) (i : Nat) : s.read.2.unread i = s.unread (i + 1) := by
  simp only [read, unread]
  congr 1
  omega

theorem take_fst (s : Source) (n : Nat) : (s.take n).1 = (List.range n).map s.unread := by
  induction n generalizing s with
  | zero => rfl
  | succ n ih =>
    rw [List.range_succ_eq_map, List.map_cons, List.map_map]
    simp only [take, read_fst, ih]
    congr 1
    exact List.map_congr_left fun i _ => unread_read s i

end Source

end ByteTape

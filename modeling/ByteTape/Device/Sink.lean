import ByteTape.Device.ForeignFault

set_option autoImplicit false

namespace ByteTape

/-- How a sink refuses a byte. -/
inductive Refusal
  | failed (reason : String)
  | reported (fault : ForeignFault)
  /-- The sink broke down, with a failure that is not about writing. -/
  | raised (text : String)
  deriving DecidableEq, Repr

/-- What takes bytes, or refuses them. `received` holds the bytes that it took. -/
structure Sink where
  /-- The answer to a byte, given all bytes offered earlier. -/
  refusal : Array UInt8 → UInt8 → Option Refusal
  offered : Array UInt8 := #[]
  received : Array UInt8 := #[]

namespace Sink

/-- Offers a byte; the second component is the refusal, if there is one. -/
def write : Sink → UInt8 → Sink × Option Refusal
  | ⟨refusal, offered, received⟩, b =>
    match refusal offered b with
    | none => (⟨refusal, offered.push b, received.push b⟩, none)
    | some reason => (⟨refusal, offered.push b, received⟩, some reason)

def unlimited : Sink where
  refusal _ _ := none

def limited (n : Nat) : Sink where
  refusal offered _ := if offered.size < n then none else some (.failed "sink full")

theorem received_write_of_accepted {s : Sink} {b : UInt8} (accepted : (s.write b).2 = none) :
    (s.write b).1.received = s.received.push b := by
  obtain ⟨refusal, offered, received⟩ := s
  cases h : refusal offered b <;> simp_all [write]

theorem received_write_of_refused {s : Sink} {b : UInt8} {r : Refusal}
    (refused : (s.write b).2 = some r) : (s.write b).1.received = s.received := by
  obtain ⟨refusal, offered, received⟩ := s
  cases h : refusal offered b <;> simp_all [write]

end Sink

end ByteTape

set_option autoImplicit false

namespace ByteTape

inductive StreamCall
  | write (byte : UInt8)
  | flush
  deriving DecidableEq, Repr

structure NotAByte where
  value : Int
  deriving DecidableEq, Repr

namespace NotAByte

def message (_ : NotAByte) : String :=
  "bytes must be in range(0, 256)"

end NotAByte

/-- The calls on an output stream, the oldest first. -/
structure Stream where
  calls : Array StreamCall := #[]
  deriving DecidableEq, Repr

namespace Stream

/-- The calls that send one value. -/
def callsFor (value : Int) : Except NotAByte (List StreamCall) :=
  if 0 ≤ value ∧ value < 256 then .ok [.write (UInt8.ofInt value), .flush]
  else .error ⟨value⟩

/-- Sends one value and reports the calls that this took. -/
def send (s : Stream) (value : Int) : Stream × Except NotAByte (List StreamCall) :=
  match callsFor value with
  | .ok calls => (⟨s.calls ++ calls⟩, .ok calls)
  | .error e => (s, .error e)

def sendAll (s : Stream) : List Int → Stream × List (Except NotAByte (List StreamCall))
  | [] => (s, [])
  | value :: rest =>
    let (next, reply) := s.send value
    let (last, replies) := next.sendAll rest
    (last, reply :: replies)

def bytes (s : Stream) : Array UInt8 :=
  s.calls.filterMap fun
    | .write byte => some byte
    | .flush => none

theorem send_of_byte {value : Int} (s : Stream) (h : 0 ≤ value ∧ value < 256) :
    s.send value = (⟨s.calls ++ [StreamCall.write (UInt8.ofInt value), .flush]⟩,
      .ok [.write (UInt8.ofInt value), .flush]) := by
  simp only [send, callsFor, if_pos h]

theorem send_of_no_byte {value : Int} (s : Stream) (h : ¬(0 ≤ value ∧ value < 256)) :
    s.send value = (s, .error ⟨value⟩) := by
  simp only [send, callsFor, if_neg h]

end Stream

end ByteTape

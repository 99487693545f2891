set_option autoImplicit false

namespace ByteTape.Word

/-- The first number that is too large for a word. -/
def limit : Int :=
  0x8000000000000000

def Fits (n : Int) : Prop :=
  -limit ≤ n ∧ n < limit

instance (n : Int) : Decidable (Fits n) :=
  inferInstanceAs (Decidable (-limit ≤ n ∧ n < limit))

end ByteTape.Word

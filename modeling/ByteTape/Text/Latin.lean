set_option autoImplicit false

namespace ByteTape.Text

def charOfByte (b : UInt8) : Char :=
  Char.ofUInt8 b

def decodeBytes (bytes : List UInt8) : List Char :=
  bytes.map charOfByte

/-- Every line ending becomes one line feed, whether it was written as a line feed, as a carriage
return, or as a carriage return followed by a line feed. -/
def unifyLineEndings : List Char → List Char
  | '\r' :: '\n' :: rest => '\n' :: unifyLineEndings rest
  | '\r' :: rest => '\n' :: unifyLineEndings rest
  | c :: rest => c :: unifyLineEndings rest
  | [] => []

@[simp]
theorem toNat_charOfByte (b : UInt8) : (charOfByte b).toNat = b.toNat := rfl

@[simp]
theorem charOfByte_inj {a b : UInt8} : charOfByte a = charOfByte b ↔ a = b := by
  rw [← Char.toNat_inj, toNat_charOfByte, toNat_charOfByte, UInt8.toNat_inj]

theorem charOfByte_mem_decodeBytes {b : UInt8} {bytes : List UInt8} :
    charOfByte b ∈ decodeBytes bytes ↔ b ∈ bytes := by
  simp [decodeBytes]

theorem map_toNat_decodeBytes (bytes : List UInt8) :
    (decodeBytes bytes).map Char.toNat = bytes.map UInt8.toNat :=
  List.map_map

end ByteTape.Text

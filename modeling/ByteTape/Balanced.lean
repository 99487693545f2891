import ByteTape.Brackets

set_option autoImplicit false

namespace ByteTape

inductive Balanced : List Char → Prop
  | nil : Balanced []
  | plain {c : Char} {rest : List Char} (noOpening : c ≠ '[') (noClosing : c ≠ ']')
      (after : Balanced rest) : Balanced (c :: rest)
  | loop {body rest : List Char} (inside : Balanced body) (after : Balanced rest) :
      Balanced ('[' :: body ++ ']' :: rest)

namespace Balanced

theorem append {a b : List Char} (ha : Balanced a) (hb : Balanced b) : Balanced (a ++ b) := by
  induction ha with
  | nil => exact hb
  | plain noOpening noClosing _ ih => exact .plain noOpening noClosing ih
  | loop inside _ _ ih => simpa using Balanced.loop inside ih

theorem count_eq {code : List Char} (balanced : Balanced code) :
    code.count '[' = code.count ']' := by
  induction balanced with
  | nil => rfl
  | plain noOpening noClosing _ ih => simpa [noOpening, noClosing] using ih
  | loop _ _ ihBody ihRest =>
    simp only [List.cons_append, List.count_cons, List.count_append]
    simp
    omega

end Balanced

end ByteTape

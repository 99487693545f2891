import ByteTape.Balanced

set_option autoImplicit false

namespace ByteTape

/-- How many brackets a text leaves open; negative if it closes more than it opens. -/
def depth (text : List Char) : Int :=
  text.count '[' - text.count ']'

@[simp]
theorem depth_nil : depth [] = 0 := rfl

@[simp]
theorem depth_append (a b : List Char) : depth (a ++ b) = depth a + depth b := by
  simp only [depth, List.count_append]
  omega

@[simp]
theorem depth_opening (rest : List Char) : depth ('[' :: rest) = depth rest + 1 := by
  simp [depth]
  omega

@[simp]
theorem depth_closing (rest : List Char) : depth (']' :: rest) = depth rest - 1 := by
  simp [depth]
  omega

theorem depth_plain {c : Char} (noOpening : c ≠ '[') (noClosing : c ≠ ']') (rest : List Char) :
    depth (c :: rest) = depth rest := by
  simp [depth, noOpening, noClosing]

namespace Balanced

theorem depth_eq_zero {code : List Char} (balanced : Balanced code) : depth code = 0 := by
  have same := balanced.count_eq
  simp only [depth]
  omega

/-- A balanced text closes no bracket before it has opened one. -/
theorem depth_prefix_nonneg {code : List Char} (balanced : Balanced code) {a b : List Char}
    (split : code = a ++ b) : 0 ≤ depth a := by
  induction balanced generalizing a b with
  | nil =>
    obtain ⟨rfl, rfl⟩ := List.append_eq_nil_iff.1 split.symm
    simp
  | @plain c rest noOpening noClosing after ih =>
    cases a with
    | nil => simp
    | cons d a =>
      simp only [List.cons_append, List.cons.injEq] at split
      obtain ⟨rfl, split⟩ := split
      rw [depth_plain noOpening noClosing]
      exact ih split
  | @loop body rest inside after ihBody ihRest =>
    cases a with
    | nil => simp
    | cons d a =>
      simp only [List.cons_append, List.cons.injEq] at split
      obtain ⟨rfl, split⟩ := split
      rw [depth_opening]
      rcases List.append_eq_append_iff.1 split with ⟨z, rfl, closing⟩ | ⟨z, rfl, rfl⟩
      · -- the prefix goes beyond the body, and `z` is what it has of the rest
        rw [depth_append, inside.depth_eq_zero]
        cases z with
        | nil => simp
        | cons e z =>
          simp only [List.cons_append, List.cons.injEq] at closing
          obtain ⟨rfl, tail⟩ := closing
          have nonneg := ihRest tail
          rw [depth_closing]
          omega
      · have nonneg := ihBody rfl
        omega

theorem not_append_closing {u z : List Char} (hu : Balanced u) :
    ¬ Balanced (u ++ ']' :: z) := by
  intro whole
  have nonneg := whole.depth_prefix_nonneg (show u ++ ']' :: z = (u ++ [']']) ++ z by simp)
  simp [hu.depth_eq_zero] at nonneg

theorem not_append_opening {u z : List Char} (hu : Balanced u) :
    ¬ Balanced (z ++ '[' :: u) := by
  intro whole
  have nonneg := whole.depth_prefix_nonneg rfl
  have total := whole.depth_eq_zero
  rw [depth_append, depth_opening, hu.depth_eq_zero] at total
  omega

/-- A balanced text ends at the first bracket that closes more than the text has opened. -/
theorem eq_of_append_closing {u v c d : List Char} (hu : Balanced u) (hv : Balanced v)
    (same : u ++ ']' :: c = v ++ ']' :: d) : u = v := by
  rcases List.append_eq_append_iff.1 same with ⟨z, rfl, tail⟩ | ⟨z, rfl, tail⟩
  · cases z with
    | nil => simp
    | cons e z =>
      simp only [List.cons_append, List.cons.injEq] at tail
      obtain ⟨rfl, -⟩ := tail
      exact absurd hv hu.not_append_closing
  · cases z with
    | nil => simp
    | cons e z =>
      simp only [List.cons_append, List.cons.injEq] at tail
      obtain ⟨rfl, -⟩ := tail
      exact absurd hu hv.not_append_closing

theorem eq_of_append_opening {u v a b : List Char} (hu : Balanced u) (hv : Balanced v)
    (same : a ++ '[' :: u = b ++ '[' :: v) : a = b := by
  rcases List.append_eq_append_iff.1 same with ⟨z, rfl, tail⟩ | ⟨z, rfl, tail⟩
  · cases z with
    | nil => simp
    | cons e z =>
      simp only [List.cons_append, List.cons.injEq] at tail
      obtain ⟨rfl, rfl⟩ := tail
      exact absurd hu hv.not_append_opening
  · cases z with
    | nil => simp
    | cons e z =>
      simp only [List.cons_append, List.cons.injEq] at tail
      obtain ⟨rfl, rfl⟩ := tail
      exact absurd hv hu.not_append_opening

end Balanced

/-- Says that the bracket that opens at position `i` is closed at position `j`. -/
def Spans (code : List Char) (i j : Nat) : Prop :=
  ∃ before inside after : List Char, code = before ++ '[' :: (inside ++ ']' :: after) ∧
    Balanced inside ∧ i = before.length ∧ j = before.length + inside.length + 1

namespace Spans

variable {code : List Char} {i j k l : Nat}

theorem lt (spans : Spans code i j) : i < j := by
  obtain ⟨before, inside, after, -, -, rfl, rfl⟩ := spans
  omega

theorem lt_length (spans : Spans code i j) : j < code.length := by
  obtain ⟨before, inside, after, rfl, -, rfl, rfl⟩ := spans
  simp only [List.length_append, List.length_cons]
  omega

theorem getElem?_opening (spans : Spans code i j) : code[i]? = some '[' := by
  obtain ⟨before, inside, after, rfl, -, rfl, rfl⟩ := spans
  simp

theorem getElem?_closing (spans : Spans code i j) : code[j]? = some ']' := by
  obtain ⟨before, inside, after, rfl, -, rfl, rfl⟩ := spans
  rw [List.getElem?_append_right (by omega)]
  simp [show before.length + inside.length + 1 - before.length = inside.length + 1 by omega]

theorem balanced_between (spans : Spans code i j) : Balanced ((code.take j).drop (i + 1)) := by
  obtain ⟨before, inside, after, rfl, balanced, rfl, rfl⟩ := spans
  have front : (before ++ ['[']).length = before.length + 1 := by simp
  have upTo : (before ++ ['['] ++ inside).length = before.length + inside.length + 1 := by
    simp only [List.length_append, front]
    omega
  rw [show before ++ '[' :: (inside ++ ']' :: after) =
      (before ++ ['['] ++ inside) ++ ']' :: after by simp,
    List.take_left' upTo, List.drop_left' front]
  exact balanced

theorem of_between (below : i < j) (opening : code[i]? = some '[') (closing : code[j]? = some ']')
    (balanced : Balanced ((code.take j).drop (i + 1))) : Spans code i j := by
  obtain ⟨iBound, iChar⟩ := List.getElem?_eq_some_iff.1 opening
  obtain ⟨jBound, jChar⟩ := List.getElem?_eq_some_iff.1 closing
  refine ⟨code.take i, (code.take j).drop (i + 1), code.drop (j + 1), ?_, balanced, ?_, ?_⟩
  · calc code
      _ = code.take j ++ code.drop j := (List.take_append_drop j code).symm
      _ = code.take j ++ ']' :: code.drop (j + 1) := by
        rw [List.drop_eq_getElem_cons jBound, jChar]
      _ = ((code.take j).take i ++ (code.take j).drop i) ++ ']' :: code.drop (j + 1) := by
        rw [List.take_append_drop]
      _ = code.take i ++ '[' :: ((code.take j).drop (i + 1) ++ ']' :: code.drop (j + 1)) := by
        rw [List.take_take, Nat.min_eq_left (by omega),
          List.drop_eq_getElem_cons (l := code.take j) (i := i) (by simp; omega)]
        simp [iChar]
  · simp only [List.length_take]
    omega
  · simp only [List.length_take, List.length_drop]
    omega

theorem embed (spans : Spans code i j) (front back : List Char) :
    Spans (front ++ (code ++ back)) (front.length + i) (front.length + j) := by
  obtain ⟨before, inside, after, rfl, balanced, rfl, rfl⟩ := spans
  refine ⟨front ++ before, inside, after ++ back, by simp, balanced, ?_, ?_⟩
  · simp
  · simp only [List.length_append]
    omega

theorem eq_of_opening (one : Spans code i j) (two : Spans code i k) : j = k := by
  obtain ⟨a, u, c, rfl, hu, rfl, rfl⟩ := one
  obtain ⟨b, v, d, same, hv, sameLength, rfl⟩ := two
  obtain ⟨rfl, tail⟩ := List.append_inj same sameLength
  simp only [List.cons.injEq, true_and] at tail
  rw [hu.eq_of_append_closing hv tail]

theorem eq_of_closing (one : Spans code i k) (two : Spans code j k) : i = j := by
  obtain ⟨a, u, c, rfl, hu, rfl, rfl⟩ := one
  obtain ⟨b, v, d, same, hv, rfl, sameLength⟩ := two
  have regrouped : (a ++ '[' :: u) ++ ']' :: c = (b ++ '[' :: v) ++ ']' :: d := by
    simpa using same
  have lengths : (a ++ '[' :: u).length = (b ++ '[' :: v).length := by
    simp only [List.length_append, List.length_cons]
    omega
  obtain ⟨front, -⟩ := List.append_inj regrouped lengths
  rw [hu.eq_of_append_opening hv front]

/-- A pair that opens inside another one closes inside it. -/
theorem closing_lt_of_opening_lt (outer : Spans code i j) (inner : Spans code k l) (above : i < k)
    (below : k < j) : l < j := by
  obtain ⟨a, u, c, rfl, hu, rfl, rfl⟩ := outer
  obtain ⟨b, v, d, same, hv, rfl, rfl⟩ := inner
  rcases List.append_eq_append_iff.1 same with ⟨x, rfl, tail⟩ | ⟨x, rfl, -⟩
  · cases x with
    | nil => simp at above
    | cons e x =>
      simp only [List.cons_append, List.cons.injEq] at tail
      obtain ⟨rfl, tail⟩ := tail
      rcases List.append_eq_append_iff.1 tail with ⟨y, rfl, -⟩ | ⟨y, rfl, rest⟩
      · simp only [List.length_append, List.length_cons] at below
        omega
      · -- `y` begins with the inner bracket and ends with the outer loop's body
        cases y with
        | nil => simp at rest
        | cons e y =>
          simp only [List.cons_append, List.cons.injEq] at rest
          obtain ⟨rfl, rest⟩ := rest
          have opened := hu.depth_prefix_nonneg rfl
          have total := hu.depth_eq_zero
          rw [depth_append, depth_opening] at total
          rcases List.append_eq_append_iff.1 rest with ⟨z, rfl, -⟩ | ⟨z, split, -⟩
          · cases z with
            | nil =>
              rw [List.append_nil, hv.depth_eq_zero] at total
              omega
            | cons e z =>
              simp only [List.length_append, List.length_cons]
              omega
          · -- the inner body would be as long as what is left of the outer one
            have inside := hv.depth_prefix_nonneg split
            omega
  · simp only [List.length_append] at above
    omega

end Spans

end ByteTape

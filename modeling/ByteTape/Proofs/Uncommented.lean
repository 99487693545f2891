import ByteTape.Program.Load
import ByteTape.Proofs.BracketTable

set_option autoImplicit false

namespace ByteTape

/-- The instructions of a text. -/
def uncommented (text : List Char) : List Char :=
  text.filter Instruction.isCode

/-- How many instructions stand before position `i`. -/
def codeBefore (text : List Char) (i : Nat) : Nat :=
  (text.take i).countP Instruction.isCode

section Uncommented

variable {text before rest : List Char} {i j : Nat} {c : Char}

@[simp]
theorem uncommented_append (a b : List Char) :
    uncommented (a ++ b) = uncommented a ++ uncommented b :=
  List.filter_append a b

theorem uncommented_cons_of_code (code : Instruction.isCode c = true) (rest : List Char) :
    uncommented (c :: rest) = c :: uncommented rest :=
  List.filter_cons_of_pos code

theorem uncommented_cons_of_comment (comment : Instruction.isCode c = false) (rest : List Char) :
    uncommented (c :: rest) = uncommented rest :=
  List.filter_cons_of_neg (by simp [comment])

theorem codeBefore_length_append (before rest : List Char) :
    codeBefore (before ++ rest) before.length = (uncommented before).length := by
  rw [codeBefore, List.take_left', List.countP_eq_length_filter, uncommented]
  rfl

theorem codeBefore_of_length_le (beyond : text.length ≤ i) :
    codeBefore text i = (uncommented text).length := by
  rw [codeBefore, List.take_of_length_le beyond, List.countP_eq_length_filter, uncommented]

theorem codeBefore_succ (found : text[i]? = some c) :
    codeBefore text (i + 1) = codeBefore text i + if Instruction.isCode c then 1 else 0 := by
  simp only [codeBefore, List.take_add_one, found, Option.toList_some, List.countP_append,
    List.countP_singleton]

theorem codeBefore_succ_of_code (found : text[i]? = some c)
    (code : Instruction.isCode c = true) : codeBefore text (i + 1) = codeBefore text i + 1 := by
  rw [codeBefore_succ found, if_pos code]

theorem codeBefore_succ_of_comment (found : text[i]? = some c)
    (comment : Instruction.isCode c = false) :
    codeBefore text (i + 1) = codeBefore text i := by
  rw [codeBefore_succ found, comment]
  rfl

theorem getElem?_of_drop_eq_cons (left : text.drop i = c :: rest) :
    text[i]? = some c ∧ text.drop (i + 1) = rest := by
  constructor
  · rw [← List.head?_drop, left, List.head?_cons]
  · rw [← List.tail_drop, left, List.tail_cons]

theorem exists_append_of_getElem? (found : text[i]? = some c) :
    ∃ before rest, text = before ++ c :: rest ∧ before.length = i := by
  obtain ⟨bound, rfl⟩ := List.getElem?_eq_some_iff.1 found
  refine ⟨text.take i, text.drop (i + 1), ?_, ?_⟩
  · rw [← List.drop_eq_getElem_cons bound, List.take_append_drop]
  · rw [List.length_take, Nat.min_eq_left (Nat.le_of_lt bound)]

theorem getElem?_uncommented (found : text[i]? = some c) (code : Instruction.isCode c = true) :
    (uncommented text)[codeBefore text i]? = some c := by
  obtain ⟨before, rest, rfl, rfl⟩ := exists_append_of_getElem? found
  rw [codeBefore_length_append, uncommented_append, uncommented_cons_of_code code,
    List.getElem?_append_right (Nat.le_refl _), Nat.sub_self, List.getElem?_cons_zero]

end Uncommented

theorem isCode_opening : Instruction.isCode '[' = true := rfl

theorem isCode_closing : Instruction.isCode ']' = true := rfl

theorem Balanced.uncommented {text : List Char} (balanced : Balanced text) :
    Balanced (uncommented text) := by
  induction balanced with
  | nil => exact .nil
  | @plain c rest noOpening noClosing after ih =>
    cases code : Instruction.isCode c with
    | true =>
      rw [uncommented_cons_of_code code]
      exact .plain noOpening noClosing ih
    | false =>
      rw [uncommented_cons_of_comment code]
      exact ih
  | loop inside after ihBody ihRest =>
    rw [uncommented_append, uncommented_cons_of_code isCode_opening,
      uncommented_cons_of_code isCode_closing]
    exact .loop ihBody ihRest

/-- Brackets that belong together still do when the comments are gone. -/
theorem Spans.uncommented {text : List Char} {i j : Nat} (spans : Spans text i j) :
    Spans (uncommented text) (codeBefore text i) (codeBefore text j) := by
  obtain ⟨before, inside, after, rfl, balanced, rfl, rfl⟩ := spans
  refine ⟨_, _, ByteTape.uncommented after, ?_, balanced.uncommented,
    codeBefore_length_append _ _, ?_⟩
  · rw [uncommented_append, uncommented_cons_of_code isCode_opening, uncommented_append,
      uncommented_cons_of_code isCode_closing]
  · have front : (before ++ '[' :: inside).length = before.length + inside.length + 1 := by
      simp only [List.length_append, List.length_cons]
      omega
    rw [show before ++ '[' :: (inside ++ ']' :: after) =
      (before ++ '[' :: inside) ++ ']' :: after by simp, ← front, codeBefore_length_append,
      uncommented_append, uncommented_cons_of_code isCode_opening, List.length_append,
      List.length_cons]
    omega

namespace JumpTable

/-- The pass over the rest of a text fails with comments if and only if it fails without, and then
at the same bracket. -/
theorem scan_uncommented {text rest : List Char} {opens : List Nat} {table table' : JumpTable}
    (left : text.drop table.size = rest) (reached : table'.size = codeBefore text table.size) :
    ((∃ result, scan rest opens table = .ok result) ∧
      ∃ result, scan (uncommented rest) (opens.map (codeBefore text)) table' = .ok result) ∨
    ∃ e, scan rest opens table = .error e ∧
      scan (uncommented rest) (opens.map (codeBefore text)) table' =
        .error ⟨codeBefore text e.position, e.bracket⟩ := by
  fun_induction scan rest opens table generalizing table' with
  | case1 table => exact Or.inl ⟨⟨_, rfl⟩, ⟨_, rfl⟩⟩
  | case2 table i opens => exact Or.inr ⟨_, rfl, rfl⟩
  | case3 table rest opens ih =>
    obtain ⟨found, further⟩ := getElem?_of_drop_eq_cons left
    rw [uncommented_cons_of_code isCode_opening, scan, reached, ← List.map_cons]
    apply ih
    · rw [Array.size_push, further]
    · rw [Array.size_push, Array.size_push, reached, codeBefore_succ_of_code found isCode_opening]
  | case4 table rest =>
    rw [uncommented_cons_of_code isCode_closing, List.map_nil, scan, reached]
    exact Or.inr ⟨_, rfl, rfl⟩
  | case5 table rest i opens ih =>
    obtain ⟨found, further⟩ := getElem?_of_drop_eq_cons left
    rw [uncommented_cons_of_code isCode_closing, List.map_cons, scan]
    apply ih
    · rw [Array.size_push, Array.size_setIfInBounds, further]
    · simp only [Array.size_push, Array.size_setIfInBounds, reached,
        codeBefore_succ_of_code found isCode_closing]
  | case6 c rest opens table noOpening noStray noClosing ih =>
    obtain ⟨found, further⟩ := getElem?_of_drop_eq_cons left
    cases code : Instruction.isCode c with
    | true =>
      rw [uncommented_cons_of_code code, scan_plain noOpening (ne_closing noStray noClosing)]
      apply ih
      · rw [Array.size_push, further]
      · rw [Array.size_push, Array.size_push, reached, codeBefore_succ_of_code found code]
    | false =>
      rw [uncommented_cons_of_comment code]
      apply ih
      · rw [Array.size_push, further]
      · rw [Array.size_push, reached, codeBefore_succ_of_comment found code]

theorem ofCode_uncommented (text : List Char) :
    ((∃ table, ofCode text = .ok table) ∧ ∃ table, ofCode (uncommented text) = .ok table) ∨
    ∃ e, ofCode text = .error e ∧
      ofCode (uncommented text) = .error ⟨codeBefore text e.position, e.bracket⟩ :=
  scan_uncommented rfl rfl

end JumpTable

namespace Program

/-- Loading leaves out the comments and nothing else. The blanks between the words are comments. -/
theorem instructions_eq (source : List Char) : instructions source = uncommented source := by
  have notBlank (c : Char) : (Instruction.isCode c && !Text.isBlank c) = Instruction.isCode c := by
    cases code : Instruction.isCode c with
    | false => rfl
    | true =>
      obtain ⟨i, rfl⟩ := Instruction.isCode_iff.1 code
      cases i <;> rfl
  calc instructions source
    _ = (Text.words source).flatten.filter Instruction.isCode := by
      rw [instructions, List.flatMap_def, List.filter_flatten]
    _ = source.filter fun c => Instruction.isCode c && !Text.isBlank c := by
      rw [Text.flatten_words, List.filter_filter]
    _ = uncommented source := by
      rw [uncommented, funext notBlank]

theorem load_eq (text : String) : load text = ofList (uncommented text.toList) := by
  rw [load, instructions_eq]

end Program

end ByteTape

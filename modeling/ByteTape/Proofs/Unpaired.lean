import Mathlib.Order.Bounds.Basic
import ByteTape.Proofs.BracketTable

set_option autoImplicit false

namespace ByteTape

theorem depth_nonneg_iff {text : List Char} : 0 ≤ depth text ↔ text.count ']' ≤ text.count '[' := by
  unfold depth
  omega

theorem depth_pos_iff {text : List Char} : 0 < depth text ↔ text.count ']' < text.count '[' := by
  unfold depth
  omega

/-- No start of the text closes more brackets than it opens. -/
def OpensFirst (text : List Char) : Prop :=
  ∀ start, start <+: text → start.count ']' ≤ start.count '['

/-- The bracket at position `i` closes nothing: up to it, more brackets are closed than opened. -/
structure Stray (text : List Char) (i : Nat) : Prop where
  closing : text[i]? = some ']'
  excess : (text.take (i + 1)).count '[' < (text.take (i + 1)).count ']'

/-- Nothing closes the bracket at position `i`: however far one reads on from it, more brackets are
opened than closed. -/
structure Unclosed (text : List Char) (i : Nat) : Prop where
  opening : text[i]? = some '['
  excess : ∀ start, start <+: text.drop i → start ≠ [] → start.count ']' < start.count '['

namespace OpensFirst

variable {a b text : List Char} {i : Nat}

theorem depth_nonneg (first : OpensFirst text) {start : List Char} (starts : start <+: text) :
    0 ≤ depth start :=
  depth_nonneg_iff.2 (first start starts)

theorem append (ha : OpensFirst a) (hb : OpensFirst b) : OpensFirst (a ++ b) := by
  intro start starts
  rw [← depth_nonneg_iff]
  rcases List.prefix_or_prefix_of_prefix starts (List.prefix_append a b) with inside | ⟨more, rfl⟩
  · exact ha.depth_nonneg inside
  · have whole := ha.depth_nonneg (List.prefix_refl a)
    have rest := hb.depth_nonneg ((List.prefix_append_right_inj a).1 starts)
    rw [depth_append]
    omega

theorem opening_cons (first : OpensFirst text) : OpensFirst ('[' :: text) := by
  intro start starts
  rw [← depth_nonneg_iff]
  cases start with
  | nil => simp
  | cons c start =>
    obtain ⟨rfl, behind⟩ := List.cons_prefix_cons.1 starts
    have rest := first.depth_nonneg behind
    rw [depth_opening]
    omega

theorem not_stray_append (first : OpensFirst a) (inside : i < a.length) : ¬Stray (a ++ b) i := by
  intro stray
  have start : (a ++ b).take (i + 1) <+: a := by
    rw [List.take_append_of_le_length inside]
    exact List.take_prefix (i + 1) a
  have enough := first _ start
  have excess := stray.excess
  omega

theorem not_stray (first : OpensFirst text) (i : Nat) : ¬Stray text i := by
  intro stray
  have inside := (List.getElem?_eq_some_iff.1 stray.closing).1
  have none := first.not_stray_append (b := []) inside
  rw [List.append_nil] at none
  exact none stray

end OpensFirst

namespace Balanced

variable {text : List Char}

theorem opensFirst (balanced : Balanced text) : OpensFirst text := by
  rintro start ⟨rest, rfl⟩
  exact depth_nonneg_iff.1 (balanced.depth_prefix_nonneg rfl)

theorem not_unclosed (balanced : Balanced text) (i : Nat) : ¬Unclosed text i := by
  intro unclosed
  have inside := (List.getElem?_eq_some_iff.1 unclosed.opening).1
  have nonempty : text.drop i ≠ [] := by simpa using inside
  have excess := depth_pos_iff.2 (unclosed.excess _ (List.prefix_refl _) nonempty)
  have before := balanced.depth_prefix_nonneg (List.take_append_drop i text).symm
  have total := balanced.depth_eq_zero
  rw [← List.take_append_drop i text, depth_append] at total
  omega

end Balanced

/-- Cuts a text at a bracket without a partner: the first one that closes nothing, or the last one
that is not closed if every closed one was opened before. -/
inductive Unpaired : List Char → BracketError → Prop
  | stray {before rest : List Char} (paired : Balanced before) :
      Unpaired (before ++ ']' :: rest) ⟨before.length, .closing⟩
  | unclosed {before rest : List Char} (first : OpensFirst before) (paired : Balanced rest) :
      Unpaired (before ++ '[' :: rest) ⟨before.length, .opening⟩

namespace Unpaired

variable {text : List Char} {i : Nat}

theorem isLeast_stray (unpaired : Unpaired text ⟨i, .closing⟩) : IsLeast {j | Stray text j} i := by
  cases unpaired with
  | @stray before rest paired =>
    constructor
    · refine ⟨by simp, ?_⟩
      have upTo : (before ++ [']']).length = before.length + 1 := by simp
      have even := paired.count_eq
      rw [show before ++ ']' :: rest = (before ++ [']']) ++ rest by simp, List.take_left' upTo]
      simp [even]
    · intro j stray
      apply Nat.le_of_not_lt
      intro below
      exact paired.opensFirst.not_stray_append below stray

theorem opensFirst (unpaired : Unpaired text ⟨i, .opening⟩) : OpensFirst text := by
  cases unpaired with
  | unclosed first paired => exact first.append paired.opensFirst.opening_cons

theorem isGreatest_unclosed (unpaired : Unpaired text ⟨i, .opening⟩) :
    IsGreatest {j | Unclosed text j} i := by
  cases unpaired with
  | @unclosed before rest first paired =>
    constructor
    · refine ⟨by simp, ?_⟩
      intro start starts nonempty
      rw [List.drop_left] at starts
      cases start with
      | nil => exact absurd rfl nonempty
      | cons c start =>
        obtain ⟨rfl, behind⟩ := List.cons_prefix_cons.1 starts
        have nonneg := paired.opensFirst.depth_nonneg behind
        rw [← depth_pos_iff, depth_opening]
        omega
    · intro j unclosed
      apply Nat.le_of_not_lt
      intro above
      obtain ⟨k, rfl⟩ : ∃ k, j = before.length + (k + 1) := ⟨j - before.length - 1, by omega⟩
      apply paired.not_unclosed k
      constructor
      · have opening := unclosed.opening
        rwa [List.getElem?_append_right (by omega), Nat.add_sub_cancel_left,
          List.getElem?_cons_succ] at opening
      · have excess := unclosed.excess
        rwa [List.drop_append, List.drop_of_length_le (by omega), List.nil_append,
          Nat.add_sub_cancel_left, List.drop_succ_cons] at excess

theorem count_ne (unpaired : Unpaired text ⟨i, .opening⟩) : text.count '[' ≠ text.count ']' := by
  cases unpaired with
  | @unclosed before rest first paired =>
    intro same
    have nonneg := first.depth_nonneg (List.prefix_refl before)
    have total : depth (before ++ '[' :: rest) = 0 := by
      unfold depth
      omega
    rw [depth_append, depth_opening, paired.depth_eq_zero] at total
    omega

end Unpaired

namespace JumpTable

/-- The brackets at the given positions, the last one first, are those of a text that wait for a
partner. -/
inductive Waiting : List Char → List Nat → Prop
  | none {text : List Char} (paired : Balanced text) : Waiting text []
  | more {before rest : List Char} {opens : List Nat} (others : Waiting before opens)
      (paired : Balanced rest) : Waiting (before ++ '[' :: rest) (before.length :: opens)

namespace Waiting

variable {text : List Char} {opens : List Nat} {i : Nat}

theorem opensFirst (waiting : Waiting text opens) : OpensFirst text := by
  induction waiting with
  | none paired => exact paired.opensFirst
  | more others paired ih => exact ih.append paired.opensFirst.opening_cons

theorem push_plain {c : Char} (noOpening : c ≠ '[') (noClosing : c ≠ ']')
    (waiting : Waiting text opens) : Waiting (text ++ [c]) opens := by
  have plain : Balanced [c] := .plain noOpening noClosing .nil
  cases waiting with
  | none paired => exact .none (paired.append plain)
  | more others paired => simpa using Waiting.more others (paired.append plain)

theorem push_opening (waiting : Waiting text opens) :
    Waiting (text ++ ['[']) (text.length :: opens) :=
  .more waiting .nil

theorem push_closing (waiting : Waiting text (i :: opens)) : Waiting (text ++ [']']) opens := by
  cases waiting with
  | @more before rest _ others paired =>
    have loop : Balanced ('[' :: rest ++ [']']) := .loop paired .nil
    cases others with
    | none whole => simpa using Waiting.none (whole.append loop)
    | more others whole => simpa using Waiting.more others (whole.append loop)

end Waiting

/-- The pass stops at a bracket without a partner. -/
theorem unpaired_of_scan {before rest : List Char} {opens : List Nat} {table : JumpTable}
    {e : BracketError} (size : table.size = before.length) (waiting : Waiting before opens)
    (stopped : scan rest opens table = .error e) : Unpaired (before ++ rest) e := by
  fun_induction scan rest opens table generalizing before with
  | case1 table => simp at stopped
  | case2 i opens table =>
    rw [Except.error.injEq] at stopped
    subst stopped
    cases waiting with
    | more others paired => simpa using Unpaired.unclosed others.opensFirst paired
  | case3 rest opens table ih =>
    have further : Unpaired ((before ++ ['[']) ++ rest) e :=
      ih (by simp [size]) (by simpa [size] using waiting.push_opening) stopped
    simpa using further
  | case4 rest table =>
    rw [Except.error.injEq] at stopped
    subst stopped
    cases waiting with
    | none paired =>
      rw [size]
      exact .stray paired
  | case5 rest i opens table ih =>
    have further : Unpaired ((before ++ [']']) ++ rest) e :=
      ih (by simp [size]) waiting.push_closing stopped
    simpa using further
  | case6 c rest opens table noOpening noStray noClosing ih =>
    have closing := ne_closing noStray noClosing
    have further : Unpaired ((before ++ [c]) ++ rest) e :=
      ih (by simp [size]) (waiting.push_plain noOpening closing) stopped
    simpa using further

theorem ofCode_cases (text : List Char) :
    ((∃ table, ofCode text = .ok table) ∧ Balanced text) ∨
      ∃ e, ofCode text = .error e ∧ Unpaired text e := by
  cases result : ofCode text with
  | ok table => exact Or.inl ⟨⟨table, rfl⟩, exists_ofCode_iff_balanced.1 ⟨table, result⟩⟩
  | error e => exact Or.inr ⟨e, rfl, unpaired_of_scan rfl (.none .nil) result⟩

theorem ofCode_eq_closing_iff {text : List Char} {i : Nat} :
    ofCode text = .error ⟨i, .closing⟩ ↔ IsLeast {j | Stray text j} i := by
  rcases ofCode_cases text with
    ⟨⟨table, accepted⟩, balanced⟩ | ⟨⟨k, opening | closing⟩, reported, unpaired⟩
  · have none : ¬IsLeast {j | Stray text j} i :=
      fun least => balanced.opensFirst.not_stray i least.1
    simp [accepted, none]
  · have none : ¬IsLeast {j | Stray text j} i :=
      fun least => unpaired.opensFirst.not_stray i least.1
    simp [reported, none]
  · simp only [reported, Except.error.injEq, BracketError.mk.injEq, and_true]
    constructor
    · rintro rfl
      exact unpaired.isLeast_stray
    · intro least
      exact unpaired.isLeast_stray.unique least

theorem ofCode_eq_opening_iff {text : List Char} {i : Nat} :
    ofCode text = .error ⟨i, .opening⟩ ↔ OpensFirst text ∧ IsGreatest {j | Unclosed text j} i := by
  rcases ofCode_cases text with
    ⟨⟨table, accepted⟩, balanced⟩ | ⟨⟨k, opening | closing⟩, reported, unpaired⟩
  · have none : ¬IsGreatest {j | Unclosed text j} i :=
      fun greatest => balanced.not_unclosed i greatest.1
    simp [accepted, none]
  · simp only [reported, Except.error.injEq, BracketError.mk.injEq, and_true]
    constructor
    · rintro rfl
      exact ⟨unpaired.opensFirst, unpaired.isGreatest_unclosed⟩
    · rintro ⟨-, greatest⟩
      exact unpaired.isGreatest_unclosed.unique greatest
  · have none : ¬OpensFirst text := fun first => first.not_stray k unpaired.isLeast_stray.1
    simp [reported, none]

theorem exists_ofCode_iff_count {text : List Char} :
    (∃ table, ofCode text = .ok table) ↔
      OpensFirst text ∧ text.count '[' = text.count ']' := by
  rcases ofCode_cases text with
    ⟨accepted, balanced⟩ | ⟨⟨k, opening | closing⟩, reported, unpaired⟩
  · simp [accepted, balanced.opensFirst, balanced.count_eq]
  · simp [reported, unpaired.count_ne]
  · have none : ¬OpensFirst text := fun first => first.not_stray k unpaired.isLeast_stray.1
    simp [reported, none]

end JumpTable

/-- What becomes of the brackets of a text is a matter of counting. The first `]` up to which more
brackets are closed than opened is reported, whatever else is left open. If there is none, then the
last `[` from which on more brackets are opened than closed is reported. The text has a bracket
table if there is neither, that is, if nothing is closed before it is opened and as many brackets
are opened as closed. -/
theorem Program.jumps_by_counting (text : String) :
    (∀ i, (ofString text).jumps = .error ⟨i, .closing⟩ ↔ IsLeast {j | Stray text.toList j} i) ∧
    (∀ i, (ofString text).jumps = .error ⟨i, .opening⟩ ↔
      OpensFirst text.toList ∧ IsGreatest {j | Unclosed text.toList j} i) ∧
    ((∃ table, (ofString text).jumps = .ok table) ↔
      OpensFirst text.toList ∧ text.toList.count '[' = text.toList.count ']') := by
  rw [jumps_ofString]
  refine ⟨?_, ?_, JumpTable.exists_ofCode_iff_count⟩
  · intro i
    exact JumpTable.ofCode_eq_closing_iff
  · intro i
    exact JumpTable.ofCode_eq_opening_iff

/-- A `]` that closes nothing is reported although a `[` before it is closed and one after it is
not. -/
example : (Program.ofString "[]][").jumps = .error ⟨2, .closing⟩ := rfl

end ByteTape

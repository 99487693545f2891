import ByteTape.Block
import ByteTape.Program
import ByteTape.Proofs.Spans

set_option autoImplicit false

namespace ByteTape

namespace JumpTable

theorem scan_plain {c : Char} (noOpening : c ≠ '[') (noClosing : c ≠ ']') (rest : List Char)
    (opens : List Nat) (table : JumpTable) :
    scan (c :: rest) opens table = scan rest opens (table.push none) := by
  cases opens <;> simp [scan, noClosing]

/-- A character that closes no bracket, whether one waits or not, is no `]`. -/
theorem ne_closing {c : Char} {opens : List Nat} (noStray : opens = [] → c = ']' → False)
    (noClosing : ∀ i others, opens = i :: others → c = ']' → False) : c ≠ ']' := by
  intro closing
  cases opens with
  | nil => exact noStray rfl closing
  | cons i others => exact noClosing i others rfl closing

end JumpTable

namespace Block

/-- The slots of the bracket table for a block whose text begins at position `base`. -/
def entries : Nat → Block → List (Option Nat)
  | _, done => []
  | base, plain _ _ _ rest => none :: rest.entries (base + 1)
  | base, loop body rest =>
    some (base + body.size + 1) ::
      (body.entries (base + 1) ++ some base :: rest.entries (base + body.size + 2))

@[simp]
theorem length_entries (base : Nat) (b : Block) : (b.entries base).length = b.size := by
  induction b generalizing base with
  | done => rfl
  | plain c noOpening noClosing rest ih => simpa [entries, size] using ih (base + 1)
  | loop body rest ihBody ihRest =>
    simp only [entries, List.length_cons, List.length_append, ihBody, ihRest, size, text_loop]

/-- Each bracket has the entry of its partner, and every other character has none. -/
theorem getElem?_entries (b : Block) (base : Nat) {i : Nat} {c : Char}
    (found : b.text[i]? = some c) :
    ((b.entries base)[i]? = some none ∧ c ≠ '[' ∧ c ≠ ']') ∨
      ∃ j, (b.entries base)[i]? = some (some (base + j)) ∧
        (Spans b.text i j ∨ Spans b.text j i) := by
  induction b generalizing base i with
  | done => simp at found
  | plain d noOpening noClosing rest ih =>
    cases i with
    | zero =>
      simp only [text_plain, List.getElem?_cons_zero, Option.some.injEq] at found
      subst found
      exact Or.inl ⟨rfl, noOpening, noClosing⟩
    | succ i =>
      simp only [text_plain, List.getElem?_cons_succ] at found
      simp only [entries, List.getElem?_cons_succ, text_plain]
      rcases ih (base + 1) found with blank | ⟨j, entry, spans⟩
      · exact Or.inl blank
      · refine Or.inr ⟨j + 1, by rw [entry, Nat.add_right_comm, Nat.add_assoc], ?_⟩
        have shift {k l : Nat} (inner : Spans rest.text k l) :
            Spans (d :: rest.text) (k + 1) (l + 1) := by
          simpa [Nat.add_comm] using inner.embed [d] []
        exact spans.imp shift shift
  | loop body rest ihBody ihRest =>
    have whole : Spans (loop body rest).text 0 (body.size + 1) :=
      ⟨[], body.text, rest.text, rfl, body.balanced_text, rfl, by simp [size]⟩
    have inBody {k l : Nat} (inner : Spans body.text k l) :
        Spans (loop body rest).text (k + 1) (l + 1) := by
      simpa [Nat.add_comm] using inner.embed ['['] (']' :: rest.text)
    have inRest {k l : Nat} (inner : Spans rest.text k l) :
        Spans (loop body rest).text (body.size + 2 + k) (body.size + 2 + l) := by
      simpa [size] using inner.embed ('[' :: (body.text ++ [']'])) []
    cases i with
    | zero => exact Or.inr ⟨body.size + 1, rfl, Or.inl whole⟩
    | succ i =>
      simp only [text_loop, List.getElem?_cons_succ] at found
      simp only [entries, List.getElem?_cons_succ]
      rcases Nat.lt_trichotomy i body.size with inside | rfl | beyond
      · rw [List.getElem?_append_left inside] at found
        rw [List.getElem?_append_left (by simpa using inside)]
        rcases ihBody (base + 1) found with blank | ⟨j, entry, spans⟩
        · exact Or.inl blank
        · exact Or.inr ⟨j + 1, by rw [entry, Nat.add_right_comm, Nat.add_assoc],
            spans.imp inBody inBody⟩
      · rw [List.getElem?_append_right (by simp)]
        exact Or.inr ⟨0, by simp, Or.inr whole⟩
      · obtain ⟨k, rfl⟩ : ∃ k, i = body.size + 1 + k := ⟨i - body.size - 1, by omega⟩
        have offset : body.size + 1 + k - body.size = k + 1 := by omega
        rw [List.getElem?_append_right (show body.text.length ≤ body.size + 1 + k by
          simp only [size]; omega)] at found
        rw [List.getElem?_append_right (by simp only [length_entries]; omega)]
        simp only [length_entries, offset, List.getElem?_cons_succ]
        change (']' :: rest.text)[body.size + 1 + k - body.size]? = some c at found
        rw [offset, List.getElem?_cons_succ] at found
        rw [show body.size + 1 + k + 1 = body.size + 2 + k by omega]
        rcases ihRest (base + body.size + 2) found with blank | ⟨j, entry, spans⟩
        · exact Or.inl blank
        · exact Or.inr ⟨body.size + 2 + j, by rw [entry]; simp only [Nat.add_assoc],
            spans.imp inRest inRest⟩

/-- The pass goes over the text of a block as if only the table had grown. -/
theorem scan_text_append (b : Block) (rest : List Char) (opens : List Nat) (table : JumpTable) :
    JumpTable.scan (b.text ++ rest) opens table =
      JumpTable.scan rest opens (table ++ (b.entries table.size).toArray) := by
  induction b generalizing rest opens table with
  | done => simp [entries]
  | plain c noOpening noClosing after ih =>
    have grown : table.push none ++ (after.entries (table.size + 1)).toArray =
        table ++ ((plain c noOpening noClosing after).entries table.size).toArray := by
      apply Array.ext'
      simp [entries]
    rw [text_plain, List.cons_append, JumpTable.scan_plain noOpening noClosing, ih,
      Array.size_push, grown]
  | loop body after ihBody ihAfter =>
    -- the table when the pass has reached the closing bracket, and just after it
    have reached : (table.push none ++ (body.entries (table.size + 1)).toArray).size =
        table.size + body.size + 1 := by
      simp only [Array.size_append, Array.size_push, List.size_toArray, length_entries]
      omega
    have closed : ((table.push none ++ (body.entries (table.size + 1)).toArray).setIfInBounds
        table.size (some (table.size + body.size + 1))).push (some table.size) =
        table ++ (some (table.size + body.size + 1) ::
          (body.entries (table.size + 1) ++ [some table.size])).toArray := by
      apply Array.ext'
      simp
    have size : (table ++ (some (table.size + body.size + 1) ::
        (body.entries (table.size + 1) ++ [some table.size])).toArray).size =
        table.size + body.size + 2 := by
      simp only [Array.size_append, List.size_toArray, List.length_cons, List.length_append,
        length_entries, List.length_nil]
      omega
    rw [text_loop, List.cons_append, List.append_assoc, JumpTable.scan, ihBody, List.cons_append,
      Array.size_push, JumpTable.scan, reached, closed, ihAfter, size]
    congr 1
    apply Array.ext'
    simp [entries]

end Block

namespace JumpTable

/-- A text that the pass accepts closes all brackets that wait and is balanced in between. -/
theorem exists_blocks_of_scan {code : List Char} {opens : List Nat} {table result : JumpTable}
    (accepted : scan code opens table = .ok result) :
    ∃ (b : Block) (outer : List Block), outer.length = opens.length ∧
      Block.joinedText (b, outer) = code := by
  fun_induction scan code opens table with
  | case1 table => exact ⟨.done, [], rfl, rfl⟩
  | case2 table i opens => simp at accepted
  | case3 table rest opens ih =>
    obtain ⟨b, outer, sameLength, rfl⟩ := ih accepted
    cases outer with
    | nil => simp at sameLength
    | cons after outer =>
      exact ⟨.loop b after, outer, by simpa using sameLength, by simp [Block.joinedText]⟩
  | case4 table rest => simp at accepted
  | case5 table rest i opens ih =>
    obtain ⟨b, outer, sameLength, rfl⟩ := ih accepted
    exact ⟨.done, b :: outer, by simpa using sameLength, by simp [Block.joinedText]⟩
  | case6 c rest opens table noOpening noStray noClosing ih =>
    obtain ⟨b, outer, sameLength, rfl⟩ := ih accepted
    exact ⟨.plain c noOpening (ne_closing noStray noClosing) b, outer, sameLength,
      by simp [Block.joinedText]⟩

theorem ofCode_text (b : Block) : ofCode b.text = .ok (b.entries 0).toArray := by
  have scanned := b.scan_text_append [] [] #[]
  rw [List.append_nil] at scanned
  rw [ofCode, scanned, scan]
  simp

theorem exists_block_of_ofCode {code : List Char} {table : JumpTable}
    (accepted : ofCode code = .ok table) : ∃ b : Block, b.text = code := by
  obtain ⟨b, outer, noOuter, joined⟩ := exists_blocks_of_scan accepted
  have none : outer = [] := List.eq_nil_of_length_eq_zero noOuter
  subst none
  exact ⟨b, by simpa [Block.joinedText] using joined⟩

theorem exists_ofCode_iff_balanced {code : List Char} :
    (∃ table, ofCode code = .ok table) ↔ Balanced code := by
  rw [balanced_iff_exists_block]
  constructor
  · rintro ⟨table, accepted⟩
    exact exists_block_of_ofCode accepted
  · rintro ⟨b, rfl⟩
    exact ⟨_, ofCode_text b⟩

/-- Each bracket has the entry of its partner, and every other position has none. -/
theorem partner?_of_getElem? {code : List Char} {table : JumpTable}
    (accepted : ofCode code = .ok table) {i : Nat} {c : Char} (found : code[i]? = some c) :
    (table.partner? i = none ∧ c ≠ '[' ∧ c ≠ ']') ∨
      ∃ j, table.partner? i = some j ∧ (Spans code i j ∨ Spans code j i) := by
  obtain ⟨b, rfl⟩ := exists_block_of_ofCode accepted
  rw [ofCode_text, Except.ok.injEq] at accepted
  subst accepted
  rcases b.getElem?_entries 0 found with ⟨entry, plain⟩ | ⟨j, entry, spans⟩
  · exact Or.inl ⟨by simp [partner?, entry], plain⟩
  · exact Or.inr ⟨j, by simp [partner?, entry], spans⟩

theorem exists_getElem?_of_partner? {code : List Char} {table : JumpTable}
    (accepted : ofCode code = .ok table) {i j : Nat} (partner : table.partner? i = some j) :
    ∃ c, code[i]? = some c := by
  obtain ⟨b, rfl⟩ := exists_block_of_ofCode accepted
  rw [ofCode_text, Except.ok.injEq] at accepted
  subst accepted
  have entry : (b.entries 0)[i]? = some (some j) := by
    simpa [partner?, Option.join_eq_some_iff] using partner
  have bound : i < b.text.length := by
    simpa [Block.size] using (List.getElem?_eq_some_iff.1 entry).1
  exact ⟨_, List.getElem?_eq_getElem bound⟩

/-- The table holds the pairs of brackets that belong together, in both directions. -/
theorem partner?_eq_some_iff {code : List Char} {table : JumpTable}
    (accepted : ofCode code = .ok table) {i j : Nat} :
    table.partner? i = some j ↔ Spans code i j ∨ Spans code j i := by
  constructor
  · intro partner
    obtain ⟨c, found⟩ := exists_getElem?_of_partner? accepted partner
    rcases partner?_of_getElem? accepted found with ⟨blank, -⟩ | ⟨k, entry, spans⟩
    · simp [blank] at partner
    · rw [partner, Option.some.injEq] at entry
      exact entry ▸ spans
  · rintro (spans | spans)
    · rcases partner?_of_getElem? accepted spans.getElem?_opening with
        ⟨-, noOpening, -⟩ | ⟨k, entry, other | other⟩
      · exact absurd rfl noOpening
      · rw [entry, spans.eq_of_opening other]
      · have closing := other.getElem?_closing
        simp [spans.getElem?_opening] at closing
    · rcases partner?_of_getElem? accepted spans.getElem?_closing with
        ⟨-, -, noClosing⟩ | ⟨k, entry, other | other⟩
      · exact absurd rfl noClosing
      · have opening := other.getElem?_opening
        simp [spans.getElem?_closing] at opening
      · rw [entry, spans.eq_of_closing other]

theorem spans_of_opening {code : List Char} {table : JumpTable}
    (accepted : ofCode code = .ok table) {i j : Nat} (opening : code[i]? = some '[')
    (partner : table.partner? i = some j) : Spans code i j := by
  rcases (partner?_eq_some_iff accepted).1 partner with spans | spans
  · exact spans
  · have closing := spans.getElem?_closing
    simp [opening] at closing

theorem spans_of_closing {code : List Char} {table : JumpTable}
    (accepted : ofCode code = .ok table) {i j : Nat} (closing : code[i]? = some ']')
    (partner : table.partner? i = some j) : Spans code j i := by
  rcases (partner?_eq_some_iff accepted).1 partner with spans | spans
  · have opening := spans.getElem?_opening
    simp [closing] at opening
  · exact spans

/-- Two pairs of brackets are nested or apart: what is inside a pair has its partner there, too. -/
theorem partner?_inside {code : List Char} {table : JumpTable}
    (accepted : ofCode code = .ok table) {i j k l : Nat} (outer : table.partner? i = some j)
    (inner : table.partner? k = some l) (above : i < k) (below : k < j) : i < l ∧ l < j := by
  have outer : Spans code i j := by
    rcases (partner?_eq_some_iff accepted).1 outer with spans | spans
    · exact spans
    · have := spans.lt
      omega
  rcases (partner?_eq_some_iff accepted).1 inner with spans | spans
  · have forward := spans.lt
    exact ⟨by omega, outer.closing_lt_of_opening_lt spans above below⟩
  · have forward := spans.lt
    refine ⟨?_, by omega⟩
    rcases Nat.lt_trichotomy l i with before | rfl | after
    · have crossing := spans.closing_lt_of_opening_lt outer before above
      omega
    · have same := outer.eq_of_opening spans
      omega
    · exact after

theorem mem_pairs {table : JumpTable} {i j : Nat} :
    (i, j) ∈ table.pairs ↔ table.partner? i = some j := by
  simp only [pairs, partner?, List.mem_filterMap, Option.map_eq_some_iff, Prod.exists,
    Prod.mk.injEq, Option.join_eq_some_iff]
  constructor
  · rintro ⟨entry, k, listed, l, rfl, rfl, rfl⟩
    simpa [List.mem_zipIdx_iff_getElem?] using listed
  · intro found
    exact ⟨some j, i, by simpa [List.mem_zipIdx_iff_getElem?] using found, j, rfl, rfl, rfl⟩

end JumpTable

/-- Says that a partial function pairs up the brackets of a text: it is defined at the brackets,
leads from each to another one and back, and from an opening bracket over a balanced text to a
closing one. -/
structure Matching (code : List Char) (partner : Nat → Option Nat) : Prop where
  brackets : ∀ i, (∃ j, partner i = some j) ↔ code[i]? = some '[' ∨ code[i]? = some ']'
  back : ∀ i j, partner i = some j → partner j = some i
  elsewhere : ∀ i, partner i ≠ some i
  forward : ∀ i j, code[i]? = some '[' → partner i = some j → i < j
  closing : ∀ i j, code[i]? = some '[' → partner i = some j → code[j]? = some ']'
  between : ∀ i j, code[i]? = some '[' → partner i = some j →
    Balanced ((code.take j).drop (i + 1))

namespace Matching

variable {code : List Char} {partner : Nat → Option Nat} {table : JumpTable}

theorem of_table (accepted : JumpTable.ofCode code = .ok table) :
    Matching code table.partner? where
  brackets i := by
    constructor
    · rintro ⟨j, found⟩
      rcases (JumpTable.partner?_eq_some_iff accepted).1 found with spans | spans
      · exact Or.inl spans.getElem?_opening
      · exact Or.inr spans.getElem?_closing
    · rintro (found | found)
      all_goals
        rcases JumpTable.partner?_of_getElem? accepted found with plain | ⟨j, entry, -⟩
        · simp at plain
        · exact ⟨j, entry⟩
  back i j found := by
    rw [JumpTable.partner?_eq_some_iff accepted] at found ⊢
    exact found.symm
  elsewhere i found := by
    rcases (JumpTable.partner?_eq_some_iff accepted).1 found with spans | spans
    all_goals exact absurd spans.lt (Nat.lt_irrefl i)
  forward i j opening found := (JumpTable.spans_of_opening accepted opening found).lt
  closing i j opening found :=
    (JumpTable.spans_of_opening accepted opening found).getElem?_closing
  between i j opening found :=
    (JumpTable.spans_of_opening accepted opening found).balanced_between

theorem spans_of_opening (matching : Matching code partner) {i j : Nat}
    (opening : code[i]? = some '[') (found : partner i = some j) : Spans code i j :=
  .of_between (matching.forward i j opening found) opening
    (matching.closing i j opening found) (matching.between i j opening found)

theorem eq_of_closing (matching : Matching code partner) {i k : Nat} (spans : Spans code k i) :
    partner i = some k := by
  obtain ⟨l, found⟩ := (matching.brackets k).2 (Or.inl spans.getElem?_opening)
  have other := matching.spans_of_opening spans.getElem?_opening found
  rw [other.eq_of_opening spans] at found
  exact matching.back k i found

/-- There is one way only to pair up the brackets. -/
theorem eq_table (matching : Matching code partner)
    (accepted : JumpTable.ofCode code = .ok table) : partner = table.partner? := by
  have tabled := of_table accepted
  funext i
  cases found : table.partner? i with
  | none =>
    -- there is no bracket at `i`
    cases other : partner i with
    | none => rfl
    | some j =>
      obtain ⟨k, found'⟩ := (tabled.brackets i).2 ((matching.brackets i).1 ⟨j, other⟩)
      simp [found] at found'
  | some k =>
    rcases (tabled.brackets i).1 ⟨k, found⟩ with opening | closing
    · obtain ⟨j, other⟩ := (matching.brackets i).2 (Or.inl opening)
      have spans := JumpTable.spans_of_opening accepted opening found
      rw [other, (matching.spans_of_opening opening other).eq_of_opening spans]
    · exact matching.eq_of_closing (JumpTable.spans_of_closing accepted closing found)

end Matching

namespace Program

theorem length_code (p : Program) : p.code.toList.length = p.size :=
  Array.length_toList

theorem fetch?_eq_getElem? (p : Program) (ip : Nat) : p.fetch? ip = p.code.toList[ip]? :=
  Array.getElem?_toList.symm

theorem isBalanced_iff {p : Program} : p.isBalanced = true ↔ ∃ table, p.jumps = .ok table := by
  unfold isBalanced
  cases p.jumps <;> simp

theorem jumps_ofString (text : String) :
    (ofString text).jumps = JumpTable.ofCode text.toList :=
  jumps_ofList text.toList

/-- A text has a bracket table if and only if it is balanced. The table is then the matching of its
brackets, of which there is only one, and matched pairs never cross. -/
theorem jumps_iff_matching (text : String) :
    ((∃ table, (ofString text).jumps = .ok table) ↔ Balanced text.toList) ∧
    ((ofString text).isBalanced = true ↔ Balanced text.toList) ∧
    ∀ table, (ofString text).jumps = .ok table →
      (∀ i j, (i, j) ∈ table.pairs ↔ table.partner? i = some j) ∧
      (∀ partner, Matching text.toList partner ↔ partner = table.partner?) ∧
      ∀ i j k l, table.partner? i = some j → table.partner? k = some l → i < k → k < j →
        i < l ∧ l < j := by
  rw [isBalanced_iff, jumps_ofString]
  refine ⟨JumpTable.exists_ofCode_iff_balanced, JumpTable.exists_ofCode_iff_balanced, ?_⟩
  intro table accepted
  refine ⟨fun i j => JumpTable.mem_pairs, ?_, ?_⟩
  · intro partner
    constructor
    · intro matching
      exact matching.eq_table accepted
    · rintro rfl
      exact .of_table accepted
  · intro i j k l outer inner above below
    exact JumpTable.partner?_inside accepted outer inner above below

theorem jumps_iff_matching_nested :
    ∃ table, (ofString "+[-[]]").jumps = .ok table ∧
      (∀ partner, Matching "+[-[]]".toList partner ↔ partner = table.partner?) ∧
      table.partner? 1 = some 5 ∧ table.partner? 3 = some 4 ∧ 1 < 4 ∧ 4 < 5 := by
  have accepted : (ofString "+[-[]]").jumps =
      .ok #[none, some 5, none, some 4, some 3, some 1] := rfl
  obtain ⟨-, unique, apart⟩ := (jumps_iff_matching "+[-[]]").2.2 _ accepted
  exact ⟨_, accepted, unique, rfl, rfl, apart 1 5 3 4 rfl rfl (by decide) (by decide)⟩

end Program

end ByteTape

import ByteTape.Execution
import Mathlib.Data.List.DropRight

set_option autoImplicit false

namespace ByteTape

namespace Text

section Trims

variable {α : Type} {p : α → Bool} {l before core after : List α} {x y : α}

/-- A list falls into elements with `p`, a core that neither begins nor ends with such an element,
and more elements with `p`. If there is no core, all elements come before it. -/
structure Trims (p : α → Bool) (l before core after : List α) : Prop where
  parts : l = before ++ core ++ after
  dropsBefore : ∀ x ∈ before, p x = true
  dropsAfter : ∀ x ∈ after, p x = true
  tight : core = [] ∧ after = [] ∨
    core ≠ [] ∧ (∀ x ∈ core.head?, p x = false) ∧ ∀ x ∈ core.getLast?, p x = false

theorem trimBy_eq (p : α → Bool) (l : List α) : trimBy p l = (l.dropWhile p).rdropWhile p := rfl

theorem trimBy_map {β : Type} (p : β → Bool) (f : α → β) (l : List α) :
    trimBy p (l.map f) = (trimBy (p ∘ f) l).map f := by
  simp only [trimBy, List.dropWhile_map, ← List.map_reverse]

theorem dropWhile_append_cons (stays : p x = false) (l rest : List α) :
    (l ++ x :: rest).dropWhile p = l.dropWhile p ++ x :: rest := by
  rw [List.dropWhile_append]
  split
  · next empty => rw [List.isEmpty_iff.1 empty, List.nil_append,
      List.dropWhile_cons_of_neg (by simp [stays])]
  · rfl

theorem rdropWhile_append_cons (stays : p x = false) (l rest : List α) :
    (l ++ x :: rest).rdropWhile p = l ++ x :: rest.rdropWhile p := by
  rw [List.rdropWhile, List.reverse_append, List.reverse_cons, List.append_assoc,
    List.singleton_append, dropWhile_append_cons stays]
  simp only [List.rdropWhile, List.reverse_append, List.reverse_cons, List.reverse_reverse,
    List.append_assoc, List.singleton_append]

theorem rdropWhile_append_of_pos (drops : ∀ x ∈ after, p x = true) (l : List α) :
    (l ++ after).rdropWhile p = l.rdropWhile p := by
  rw [List.rdropWhile, List.reverse_append, List.dropWhile_append_of_pos, List.rdropWhile]
  intro x inside
  exact drops x (List.mem_reverse.1 inside)

theorem trims_trimBy (p : α → Bool) (l : List α) :
    Trims p l (l.takeWhile p) (trimBy p l) ((l.dropWhile p).rtakeWhile p) where
  parts := by
    rw [trimBy_eq, List.append_assoc, List.rdropWhile_append_rtakeWhile,
      List.takeWhile_append_dropWhile]
  dropsBefore x inside := List.mem_takeWhile_imp inside
  dropsAfter x inside := List.mem_rtakeWhile_imp inside
  tight := by
    rw [trimBy_eq]
    cases rest : l.dropWhile p with
    | nil => exact Or.inl ⟨rfl, rfl⟩
    | cons first others =>
      have stays : p first = false := by
        have nonempty : l.dropWhile p ≠ [] := by simp [rest]
        have unlike := List.head_dropWhile_not p nonempty
        simpa only [rest, List.head_cons] using unlike
      have core := rdropWhile_append_cons stays [] others
      rw [List.nil_append, List.nil_append] at core
      refine Or.inr ⟨by simp [core], ?_, ?_⟩
      · rw [core]
        rintro x ⟨rfl⟩
        exact stays
      · intro x last
        obtain ⟨nonempty, rfl⟩ := List.mem_getLast?_eq_getLast last
        exact eq_false_of_ne_true (List.rdropWhile_last_not p (first :: others) nonempty)

namespace Trims

theorem before_eq (trims : Trims p l before core after) : before = l.takeWhile p := by
  rw [trims.parts, List.append_assoc, List.takeWhile_append_of_pos trims.dropsBefore]
  rcases trims.tight with ⟨rfl, rfl⟩ | ⟨nonempty, first, -⟩
  · exact (List.append_nil before).symm
  · obtain ⟨x, others, rfl⟩ := List.exists_cons_of_ne_nil nonempty
    have stays : ¬p x = true := by simp [first x rfl]
    rw [List.cons_append, List.takeWhile_cons_of_neg stays, List.append_nil]

/-- There is no other core. -/
theorem core_eq (trims : Trims p l before core after) : core = trimBy p l := by
  rw [trimBy_eq, trims.parts, List.append_assoc, List.dropWhile_append_of_pos trims.dropsBefore]
  rcases trims.tight with ⟨rfl, rfl⟩ | ⟨nonempty, first, last⟩
  · rfl
  · obtain ⟨x, others, rfl⟩ := List.exists_cons_of_ne_nil nonempty
    have stays : ¬p x = true := by simp [first x rfl]
    rw [List.cons_append, List.dropWhile_cons_of_neg stays, ← List.cons_append,
      rdropWhile_append_of_pos trims.dropsAfter, eq_comm, List.rdropWhile_eq_self_iff]
    intro nonempty
    simp [last _ (List.getLast?_eq_some_getLast nonempty)]

theorem unique {before' core' after' : List α} (trims : Trims p l before core after)
    (trims' : Trims p l before' core' after') :
    before' = before ∧ core' = core ∧ after' = after := by
  have sameBefore : before' = before := trims'.before_eq.trans trims.before_eq.symm
  have sameCore : core' = core := trims'.core_eq.trans trims.core_eq.symm
  have sameParts := trims'.parts.symm.trans trims.parts
  rw [sameBefore, sameCore] at sameParts
  exact ⟨sameBefore, sameCore, List.append_cancel_left sameParts⟩

theorem cons (trims : Trims p l before core after) (drops : p x = true) :
    Trims p (x :: l) (x :: before) core after where
  parts := by rw [trims.parts, List.cons_append, List.cons_append]
  dropsBefore := List.forall_mem_cons.2 ⟨drops, trims.dropsBefore⟩
  dropsAfter := trims.dropsAfter
  tight := trims.tight

theorem concat (trims : Trims p l before core after) (drops : p x = true) :
    ∃ before' after', Trims p (l ++ [x]) before' core after' := by
  rcases trims.tight with ⟨rfl, rfl⟩ | tight
  -- with no core, the new element too comes before it
  · refine ⟨before ++ [x], [], ?_, ?_, trims.dropsAfter, Or.inl ⟨rfl, rfl⟩⟩
    · simp [trims.parts]
    · exact List.forall_mem_append.2 ⟨trims.dropsBefore, by simpa using drops⟩
  · refine ⟨before, after ++ [x], ?_, trims.dropsBefore, ?_, Or.inr tight⟩
    · simp [trims.parts]
    · exact List.forall_mem_append.2 ⟨trims.dropsAfter, by simpa using drops⟩

/-- The core has a core of its own, which is all of it. -/
theorem of_core (trims : Trims p l before core after) : Trims p core [] core [] where
  parts := by rw [List.nil_append, List.append_nil]
  dropsBefore := by simp
  dropsAfter := by simp
  tight := trims.tight.imp (fun empty => ⟨empty.1, rfl⟩) id

theorem filter_eq (trims : Trims p l before core after) :
    core.filter (fun x => !p x) = l.filter fun x => !p x := by
  have none {dropped : List α} (drops : ∀ x ∈ dropped, p x = true) :
      dropped.filter (fun x => !p x) = [] := by
    simpa using drops
  rw [trims.parts, List.filter_append, List.filter_append, none trims.dropsBefore,
    none trims.dropsAfter, List.nil_append, List.append_nil]

/-- All that stands between two elements without `p` stays between them. -/
theorem infix_of_between {front inner back : List α}
    (trims : Trims p (front ++ x :: (inner ++ y :: back)) before core after)
    (first : p x = false) (last : p y = false) : x :: (inner ++ [y]) <:+: core := by
  have parts : front.dropWhile p ++ x :: (inner ++ y :: back) =
      front.dropWhile p ++ x :: inner ++ y :: back := by simp
  rw [trims.core_eq, trimBy_eq, dropWhile_append_cons first, parts, rdropWhile_append_cons last]
  exact ⟨front.dropWhile p, back.rdropWhile p, by simp⟩

end Trims

end Trims

def blankBytes : List UInt8 :=
  [0x09, 0x0a, 0x0b, 0x0c, 0x0d, 0x20]

theorem isAsciiBlank_charOfByte (b : UInt8) :
    isAsciiBlank (charOfByte b) = decide (b ∈ blankBytes) := by
  have space : ' ' = charOfByte 0x20 := rfl
  rw [Bool.eq_iff_iff, isAsciiBlank, space]
  simp only [Bool.or_eq_true, Bool.and_eq_true, beq_iff_eq, decide_eq_true_eq]
  simp only [charOfByte_inj, toNat_charOfByte, blankBytes, List.mem_cons, List.not_mem_nil,
    or_false, ← UInt8.toNat_inj, UInt8.reduceToNat]
  omega

def byteOfChar? (c : Char) : Option UInt8 :=
  if c.toNat < 256 then some (UInt8.ofNat c.toNat) else none

/-- The bytes that write a text, one for each character, if there are such bytes. -/
def encodeBytes? (text : List Char) : Option (List UInt8) :=
  text.mapM byteOfChar?

theorem byteOfChar?_charOfByte (b : UInt8) : byteOfChar? (charOfByte b) = some b := by
  rw [byteOfChar?, toNat_charOfByte, if_pos b.toNat_lt, UInt8.ofNat_toNat]

theorem encodeBytes?_decodeBytes (bytes : List UInt8) :
    encodeBytes? (decodeBytes bytes) = some bytes := by
  induction bytes with
  | nil => rfl
  | cons b rest ih =>
    rw [encodeBytes?, decodeBytes] at ih
    rw [encodeBytes?, decodeBytes, List.map_cons, List.mapM_cons, ih, byteOfChar?_charOfByte]
    rfl

/-- The bytes of an output fall into blanks, what is shown of them, and blanks. -/
abbrev Shows (bytes before core after : List UInt8) : Prop :=
  Trims (· ∈ blankBytes) bytes before core after

end Text

open Text

section Output

variable {bytes others before core after before' core' after' : List UInt8}

theorem outputText_eq (shows : Shows bytes before core after) :
    outputText bytes.toArray = String.ofList (decodeBytes core) := by
  rw [outputText, decodeBytes, trimBy_map, shows.core_eq]
  simp only [Function.comp_def, isAsciiBlank_charOfByte, decodeBytes]

theorem outputText_eq_iff (shows : Shows bytes before core after)
    (shows' : Shows others before' core' after') :
    outputText others.toArray = outputText bytes.toArray ↔ core' = core := by
  rw [outputText_eq shows, outputText_eq shows']
  constructor
  · intro same
    have decoded := String.ofList_inj.1 same
    have encoded := congrArg encodeBytes? decoded
    rw [encodeBytes?_decodeBytes, encodeBytes?_decodeBytes] at encoded
    exact Option.some.inj encoded
  · rintro rfl
    rfl

/-- What is true of the text of an output that has the given core. -/
structure ShownAs (bytes core : List UInt8) (text : String) : Prop where
  /-- It has one character for each byte of the core, with the byte as its code point. -/
  codePoints : text.toList.map Char.toNat = core.map UInt8.toNat
  encoded : encodeBytes? text.toList = some core
  within : core <:+: bytes
  /-- The text of the encoded text is that text. -/
  again : outputText core.toArray = text
  /-- Bytes that are not blank are all there. -/
  kept : core.filter (· ∉ blankBytes) = bytes.filter (· ∉ blankBytes)
  /-- Between two of them, all is there. -/
  between (front inner back : List UInt8) (first last : UInt8) :
    bytes = front ++ first :: (inner ++ last :: back) → first ∉ blankBytes → last ∉ blankBytes →
      first :: (inner ++ [last]) <:+: core
  /-- More blanks at an end are not shown. -/
  padded (blank : UInt8) : blank ∈ blankBytes →
    outputText (blank :: bytes).toArray = text ∧ outputText (bytes ++ [blank]).toArray = text

theorem shownAs (shows : Shows bytes before core after) :
    ShownAs bytes core (outputText bytes.toArray) where
  codePoints := by rw [outputText_eq shows, String.toList_ofList, map_toNat_decodeBytes]
  encoded := by rw [outputText_eq shows, String.toList_ofList, encodeBytes?_decodeBytes]
  within := ⟨before, after, shows.parts.symm⟩
  again := (outputText_eq_iff shows shows.of_core).2 rfl
  kept := by simpa only [decide_not] using shows.filter_eq
  between front inner back first last parts stays stays' := by
    rw [parts] at shows
    exact shows.infix_of_between (decide_eq_false stays) (decide_eq_false stays')
  padded blank listed := by
    have drops : decide (blank ∈ blankBytes) = true := decide_eq_true listed
    obtain ⟨before', after', longer⟩ := shows.concat drops
    exact ⟨(outputText_eq_iff shows (shows.cons drops)).2 rfl,
      (outputText_eq_iff shows longer).2 rfl⟩

end Output

/-- The bytes of an output fall in exactly one way into blanks, a core that neither begins nor ends
with a blank, and blanks. The text of the output shows the core, byte by byte, and nothing else, so
that two outputs have the same text if and only if they have the same core. A null, a separator, a
next line or a no-break space is no blank here. -/
theorem outputText_shows_core (bytes : List UInt8) :
    (∃ before core after, Shows bytes before core after ∧
      ∀ before' core' after', Shows bytes before' core' after' →
        before' = before ∧ core' = core ∧ after' = after) ∧
    (∀ before core after, Shows bytes before core after →
      ShownAs bytes core (outputText bytes.toArray) ∧
      ∀ others before' core' after', Shows others before' core' after' →
        (outputText others.toArray = outputText bytes.toArray ↔ core' = core)) ∧
    ∀ b ∈ [0x00, 0x1c, 0x1d, 0x1e, 0x1f, 0x85, 0xa0], b ∉ blankBytes := by
  refine ⟨?_, ?_, by simp [blankBytes]⟩
  · have shows := trims_trimBy (· ∈ blankBytes) bytes
    exact ⟨_, _, _, shows, fun before' core' after' shows' => shows.unique shows'⟩
  · intro before core after shows
    exact ⟨shownAs shows, fun others before' core' after' => outputText_eq_iff shows⟩

/-- A letter, a space and a no-break space, among blanks. -/
theorem outputText_shows_core_padded :
    Shows [0x20, 0x0a, 0x41, 0x20, 0xa0, 0x20] [0x20, 0x0a] [0x41, 0x20, 0xa0] [0x20] ∧
      ShownAs [0x20, 0x0a, 0x41, 0x20, 0xa0, 0x20] [0x41, 0x20, 0xa0]
        (outputText #[0x20, 0x0a, 0x41, 0x20, 0xa0, 0x20]) ∧
      outputText #[0x41, 0x20, 0xa0, 0x0d] = outputText #[0x20, 0x0a, 0x41, 0x20, 0xa0, 0x20] := by
  have shows : Shows [0x20, 0x0a, 0x41, 0x20, 0xa0, 0x20] [0x20, 0x0a] [0x41, 0x20, 0xa0] [0x20] :=
    ⟨rfl, by simp [blankBytes], by simp [blankBytes], Or.inr (by simp [blankBytes])⟩
  have shows' : Shows [0x41, 0x20, 0xa0, 0x0d] [] [0x41, 0x20, 0xa0] [0x0d] :=
    ⟨rfl, by simp, by simp [blankBytes], Or.inr (by simp [blankBytes])⟩
  obtain ⟨shown, sameText⟩ := (outputText_shows_core _).2.1 _ _ _ shows
  exact ⟨shows, shown, (sameText _ _ _ _ shows').2 rfl⟩

end ByteTape

import ByteTape.Proofs.Uncommented
import ByteTape.SourceFile
import Mathlib.Data.List.Chain

set_option autoImplicit false

namespace ByteTape

namespace Text

/-- How a line may end. -/
inductive LineEnding
  | lineFeed
  | carriageReturn
  /-- A carriage return with a line feed directly behind it. -/
  | both
  deriving DecidableEq, Repr

/-- A character inside a line, or the end of a line. -/
inductive Piece
  | inner (c : Char)
  | ending (e : LineEnding)
  deriving DecidableEq, Repr

namespace Piece

def spelling : Piece → List Char
  | inner c => [c]
  | ending .lineFeed => ['\n']
  | ending .carriageReturn => ['\r']
  | ending .both => ['\r', '\n']

/-- The character of a piece when all line endings are line feeds. -/
def unified : Piece → Char
  | inner c => c
  | ending _ => '\n'

/-- If a piece follows another one, they do not make up one line ending together. -/
def Apart (first second : Piece) : Prop :=
  ¬(first = ending .carriageReturn ∧ second = ending .lineFeed)

end Piece

/-- These are the characters inside the lines of a text, and the line endings. -/
structure HasPieces (text : List Char) (pieces : List Piece) : Prop where
  spelled : pieces.flatMap Piece.spelling = text
  inner : ∀ c, Piece.inner c ∈ pieces → c ≠ '\n' ∧ c ≠ '\r'
  apart : pieces.IsChain Piece.Apart

/-- The pieces of a text. -/
def piecesOf : List Char → List Piece
  | '\r' :: '\n' :: rest => .ending .both :: piecesOf rest
  | '\r' :: rest => .ending .carriageReturn :: piecesOf rest
  | '\n' :: rest => .ending .lineFeed :: piecesOf rest
  | c :: rest => .inner c :: piecesOf rest
  | [] => []

section Pieces

variable {text rest : List Char} {pieces : List Piece} {c : Char}

theorem piecesOf_carriageReturn (alone : rest.head? ≠ some '\n') :
    piecesOf ('\r' :: rest) = .ending .carriageReturn :: piecesOf rest := by
  rw [piecesOf]
  rintro more rfl
  exact alone rfl

theorem piecesOf_inner (inner : c ≠ '\n' ∧ c ≠ '\r') (rest : List Char) :
    piecesOf (c :: rest) = .inner c :: piecesOf rest := by
  rw [piecesOf]
  · exact fun more isReturn _ => inner.2 isReturn
  · exact inner.2
  · exact inner.1

theorem flatMap_spelling_piecesOf (text : List Char) :
    (piecesOf text).flatMap Piece.spelling = text := by
  fun_induction piecesOf text with
  | case1 rest ih | case2 rest _ ih | case3 rest ih | case4 c rest _ _ _ ih =>
    rw [List.flatMap_cons, ih]
    rfl
  | case5 => rfl

theorem map_unified_piecesOf (text : List Char) :
    (piecesOf text).map Piece.unified = unifyLineEndings text := by
  fun_induction unifyLineEndings text with
  | case1 rest ih => rw [piecesOf, List.map_cons, ih, Piece.unified]
  | case2 rest alone ih =>
    rw [piecesOf, List.map_cons, ih, Piece.unified]
    exact alone
  | case3 c rest _ noReturn ih =>
    by_cases lineFeed : c = '\n'
    · rw [lineFeed, piecesOf, List.map_cons, ih, Piece.unified]
    · rw [piecesOf_inner ⟨lineFeed, noReturn⟩, List.map_cons, ih, Piece.unified]
  | case4 => rfl

theorem head?_of_piecesOf (starts : (piecesOf text).head? = some (.ending .lineFeed)) :
    text.head? = some '\n' := by
  fun_cases piecesOf text with
  | case1 rest | case2 rest alone | case5 => simp [piecesOf] at starts
  | case3 rest => rfl
  | case4 c rest _ noReturn noFeed =>
    rw [piecesOf_inner ⟨noFeed, noReturn⟩] at starts
    simp at starts

theorem hasPieces_piecesOf (text : List Char) : HasPieces text (piecesOf text) where
  spelled := flatMap_spelling_piecesOf text
  inner c inside := by
    fun_induction piecesOf text with
    | case1 rest ih | case2 rest _ ih | case3 rest ih =>
      rcases List.mem_cons.1 inside with isEnding | inside
      · cases isEnding
      · exact ih inside
    | case4 d rest _ noReturn noFeed ih =>
      rcases List.mem_cons.1 inside with same | inside
      · cases same
        exact ⟨noFeed, noReturn⟩
      · exact ih inside
    | case5 => cases inside
  apart := by
    fun_induction piecesOf text with
    | case1 rest ih | case3 rest ih | case4 d rest _ _ _ ih =>
      refine List.isChain_cons.2 ⟨fun next _ joined => ?_, ih⟩
      cases joined.1
    | case2 rest alone ih =>
      refine List.isChain_cons.2 ⟨fun next first joined => ?_, ih⟩
      rw [joined.2] at first
      obtain ⟨more, rfl⟩ := List.head?_eq_some_iff.1 (head?_of_piecesOf first)
      exact alone more rfl
    | case5 => exact .nil

/-- There is only one way to part a text into pieces. -/
theorem HasPieces.eq_piecesOf (has : HasPieces text pieces) : pieces = piecesOf text := by
  obtain ⟨rfl, inner, apart⟩ := has
  induction pieces with
  | nil => rfl
  | cons piece others ih =>
    obtain ⟨next, apart⟩ := List.isChain_cons.1 apart
    have same := ih (fun c inside => inner c (List.mem_cons_of_mem piece inside)) apart
    rw [List.flatMap_cons]
    cases piece with
    | inner c =>
      rw [Piece.spelling, List.singleton_append, piecesOf_inner (inner c List.mem_cons_self),
        ← same]
    | ending e =>
      cases e with
      | lineFeed => rw [Piece.spelling, List.singleton_append, piecesOf, ← same]
      | both => rw [Piece.spelling, List.cons_append, List.singleton_append, piecesOf, ← same]
      | carriageReturn =>
        rw [Piece.spelling, List.singleton_append, piecesOf_carriageReturn, ← same]
        -- a line feed here would be a piece by itself, and the two pieces are not apart
        intro feed
        obtain ⟨more, starts⟩ := List.head?_eq_some_iff.1 feed
        rw [starts, piecesOf] at same
        exact next (.ending .lineFeed) (by rw [same]; rfl) ⟨rfl, rfl⟩

theorem not_mem_unifyLineEndings (text : List Char) : '\r' ∉ unifyLineEndings text := by
  rw [← map_unified_piecesOf]
  intro inside
  obtain ⟨piece, found, isReturn⟩ := List.mem_map.1 inside
  cases piece with
  | inner c => exact ((hasPieces_piecesOf text).inner c found).2 isReturn
  | ending e => simp [Piece.unified] at isReturn

theorem unifyLineEndings_of_not_mem (none : '\r' ∉ text) : unifyLineEndings text = text := by
  fun_induction unifyLineEndings text with
  | case1 rest ih | case2 rest _ ih => simp at none
  | case3 c rest _ _ ih => rw [ih fun inside => none (List.mem_cons_of_mem c inside)]
  | case4 => rfl

end Pieces

end Text

theorem uncommented_unifyLineEndings (text : List Char) :
    uncommented (Text.unifyLineEndings text) = uncommented text := by
  have feed : Instruction.isCode '\n' = false := rfl
  have carriageReturn : Instruction.isCode '\r' = false := rfl
  fun_induction Text.unifyLineEndings text with
  | case1 rest ih =>
    rw [uncommented_cons_of_comment feed, uncommented_cons_of_comment carriageReturn,
      uncommented_cons_of_comment feed, ih]
  | case2 rest _ ih =>
    rw [uncommented_cons_of_comment feed, uncommented_cons_of_comment carriageReturn, ih]
  | case3 c rest _ _ ih => simp only [uncommented, List.filter_cons] at ih ⊢; rw [ih]
  | case4 => rfl

def instructionChars : List Char :=
  ['>', '<', '+', '-', '.', ',', '[', ']']

def instructionBytes : List UInt8 :=
  [0x3e, 0x3c, 0x2b, 0x2d, 0x2e, 0x2c, 0x5b, 0x5d]

theorem isCode_iff_mem {c : Char} : Instruction.isCode c = true ↔ c ∈ instructionChars := by
  constructor
  · intro written
    obtain ⟨i, rfl⟩ := Instruction.isCode_iff.1 written
    cases i <;> decide
  · intro listed
    simp only [instructionChars, List.mem_cons, List.not_mem_nil, or_false] at listed
    rcases listed with rfl | rfl | rfl | rfl | rfl | rfl | rfl | rfl <;> rfl

theorem uncommented_eq_filter (text : List Char) :
    uncommented text = text.filter (· ∈ instructionChars) := by
  apply List.filter_congr
  intro c _
  rw [Bool.eq_iff_iff, isCode_iff_mem, decide_eq_true_iff]

theorem isCode_charOfByte_iff {b : UInt8} :
    Instruction.isCode (Text.charOfByte b) = true ↔ b ∈ instructionBytes := by
  have chars : instructionChars = instructionBytes.map Text.charOfByte := rfl
  rw [isCode_iff_mem, chars]
  simp only [List.mem_map, Text.charOfByte_inj, exists_eq_right]

theorem uncommented_decodeBytes (bytes : List UInt8) : uncommented (Text.decodeBytes bytes) =
    Text.decodeBytes (bytes.filter (· ∈ instructionBytes)) := by
  have same (b : UInt8) :
      Instruction.isCode (Text.charOfByte b) = decide (b ∈ instructionBytes) := by
    rw [Bool.eq_iff_iff, isCode_charOfByte_iff, decide_eq_true_iff]
  rw [uncommented, Text.decodeBytes, List.filter_map]
  simp only [Function.comp_def, same, Text.decodeBytes]

theorem toList_code_load (text : String) :
    (Program.load text).code.toList = uncommented text.toList := by
  rw [Program.load_eq, Program.toList_code_ofList]

theorem toList_sourceText (bytes : Array UInt8) :
    (sourceText bytes).toList = Text.unifyLineEndings (Text.decodeBytes bytes.toList) :=
  String.toList_ofList

/-- Loading keeps the characters of a text that write instructions, in their order, and so can be
done part by part and changes nothing the second time. The text in a file is what its bytes write, a
character each, with one line feed for each line ending: for a carriage return and a line feed
behind it, for any other carriage return, and for any other line feed. So it has no carriage return,
is the text as it stands if that has none, and does not change when its line endings are unified
again. What is loaded from it are the bytes of the file that write instructions, in their order. -/
theorem loading_keeps_instructions :
    (∀ text : String,
      (Program.load text).code.toList = text.toList.filter (· ∈ instructionChars)) ∧
    (∀ a b : String,
      (Program.load (a ++ b)).code = (Program.load a).code ++ (Program.load b).code) ∧
    (∀ text : String,
      Program.load (String.ofList (Program.load text).code.toList) = Program.load text) ∧
    ∀ (files : Files) (name : String) (bytes : Array UInt8), files name = .ok bytes →
      ∃ text, files.sourceText name = .ok text ∧
        (∃ raw pieces, raw.map Char.toNat = bytes.toList.map UInt8.toNat ∧
          Text.HasPieces raw pieces ∧ (∀ others, Text.HasPieces raw others → others = pieces) ∧
          text.toList = pieces.map Text.Piece.unified) ∧
        '\r' ∉ text.toList ∧
        (0x0d ∉ bytes → text.toList.map Char.toNat = bytes.toList.map UInt8.toNat) ∧
        Text.unifyLineEndings text.toList = text.toList ∧
        (Program.load text).code.toList.map Char.toNat =
          (bytes.toList.filter (· ∈ instructionBytes)).map UInt8.toNat := by
  refine ⟨?_, ?_, ?_, ?_⟩
  · intro text
    rw [toList_code_load, uncommented_eq_filter]
  · intro a b
    apply Array.toList_inj.1
    rw [Array.toList_append, toList_code_load, toList_code_load, toList_code_load,
      String.toList_append, uncommented_append]
  · intro text
    apply Program.ext
    apply Array.toList_inj.1
    rw [toList_code_load, String.toList_ofList, toList_code_load, uncommented, uncommented,
      List.filter_filter]
    simp only [Bool.and_self]
  · intro files name bytes found
    refine ⟨sourceText bytes, ?_, ⟨Text.decodeBytes bytes.toList, Text.piecesOf _,
      Text.map_toNat_decodeBytes _, Text.hasPieces_piecesOf _,
      fun others has => has.eq_piecesOf, ?_⟩, ?_, ?_, ?_, ?_⟩
    · rw [Files.sourceText, found]
      rfl
    · rw [Text.map_unified_piecesOf, toList_sourceText]
    · rw [toList_sourceText]
      exact Text.not_mem_unifyLineEndings _
    · intro none
      have noReturn : '\r' ∉ Text.decodeBytes bytes.toList := by
        rw [show '\r' = Text.charOfByte 0x0d from rfl, Text.charOfByte_mem_decodeBytes]
        exact fun inside => none (Array.mem_toList_iff.1 inside)
      rw [toList_sourceText, Text.unifyLineEndings_of_not_mem noReturn, Text.map_toNat_decodeBytes]
    · rw [toList_sourceText]
      exact Text.unifyLineEndings_of_not_mem (Text.not_mem_unifyLineEndings _)
    · rw [toList_code_load, toList_sourceText, uncommented_unifyLineEndings,
        uncommented_decodeBytes, Text.map_toNat_decodeBytes]

/-- Two instructions, with a line ending of each kind and a letter beyond ASCII. -/
def mixedEndings : Array UInt8 :=
  #[0x2b, 0x0d, 0x0d, 0x0a, 0xe9, 0x0a, 0x3e, 0x0d]

theorem loading_keeps_instructions_mixed_endings :
    let files : Files := fun _ => .ok mixedEndings
    files "mixed" = .ok mixedEndings ∧
      ∃ text, files.sourceText "mixed" = .ok text ∧
        text.toList = ['+', '\n', '\n', '\u00e9', '\n', '>', '\n'] ∧
        (Program.load text).code.toList.map Char.toNat = [0x2b, 0x3e] := by
  intro files
  obtain ⟨text, found, -, -, -, -, loaded⟩ :=
    loading_keeps_instructions.2.2.2 files "mixed" mixedEndings rfl
  have read : files.sourceText "mixed" = .ok (sourceText mixedEndings) := rfl
  obtain rfl : sourceText mixedEndings = text := Except.ok.inj (read.symm.trans found)
  exact ⟨rfl, _, found, toList_sourceText mixedEndings, loaded⟩

end ByteTape

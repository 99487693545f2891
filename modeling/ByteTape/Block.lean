import ByteTape.Balanced

set_option autoImplicit false

namespace ByteTape

inductive Block
  | done
  | plain (c : Char) (noOpening : c ≠ '[') (noClosing : c ≠ ']') (rest : Block)
  | loop (body rest : Block)
  deriving DecidableEq

namespace Block

def text : Block → List Char
  | done => []
  | plain c _ _ rest => c :: rest.text
  | loop body rest => '[' :: body.text ++ ']' :: rest.text

def size (b : Block) : Nat :=
  b.text.length

/-- Reads a text from its right end: the block up to the first bracket that closes an outer loop,
and for each such bracket the block after it. -/
def read : List Char → Option (Block × List Block)
  | [] => some (done, [])
  | c :: text =>
    match read text with
    | none => none
    | some (b, outer) =>
      if closing : c = ']' then some (done, b :: outer)
      else if opening : c = '[' then
        match outer with
        | [] => none
        | after :: outer => some (loop b after, outer)
      else some (plain c opening closing b, outer)

/-- The structure of a text, if its brackets pair up. -/
def parse? (text : List Char) : Option Block :=
  match read text with
  | some (b, []) => some b
  | _ => none

@[simp]
theorem text_done : done.text = [] := rfl

@[simp]
theorem text_plain (c : Char) (noOpening : c ≠ '[') (noClosing : c ≠ ']') (rest : Block) :
    (plain c noOpening noClosing rest).text = c :: rest.text := rfl

@[simp]
theorem text_loop (body rest : Block) :
    (loop body rest).text = '[' :: (body.text ++ ']' :: rest.text) := rfl

theorem balanced_text (b : Block) : Balanced b.text := by
  induction b with
  | done => exact .nil
  | plain c noOpening noClosing rest ih => exact .plain noOpening noClosing ih
  | loop body rest ihBody ihRest => exact .loop ihBody ihRest

def before : Block → Block → Block
  | done, b => b
  | plain c noOpening noClosing rest, b => plain c noOpening noClosing (rest.before b)
  | loop body rest, b => loop body (rest.before b)

@[simp]
theorem before_done (b : Block) : b.before done = b := by
  induction b with
  | done => rfl
  | plain c noOpening noClosing rest ih => simp [before, ih]
  | loop body rest ihBody ihRest => simp [before, ihRest]

theorem read_text_append (b : Block) {text : List Char} {b' : Block} {outer : List Block}
    (after : read text = some (b', outer)) :
    read (b.text ++ text) = some (b.before b', outer) := by
  induction b generalizing text b' outer with
  | done => simpa [before] using after
  | plain c noOpening noClosing rest ih => simp [read, ih after, before, noOpening, noClosing]
  | loop body rest ihBody ihRest =>
    have closing : read (']' :: (rest.text ++ text)) = some (done, rest.before b' :: outer) := by
      simp [read, ihRest after]
    simp [read, ihBody closing, before]

@[simp]
theorem parse?_text (b : Block) : parse? b.text = some b := by
  have whole := read_text_append b (show read [] = some (done, []) from rfl)
  simp only [List.append_nil] at whole
  simp [parse?, whole]

/-- The blocks that have been read, put together again. -/
def joinedText : Block × List Block → List Char
  | (b, outer) => b.text ++ outer.flatMap fun b => ']' :: b.text

theorem joinedText_of_read {text : List Char} {r : Block × List Block}
    (found : read text = some r) : joinedText r = text := by
  induction text generalizing r with
  | nil =>
    simp only [read, Option.some.injEq] at found
    subst found
    rfl
  | cons c text ih =>
    unfold read at found
    split at found
    · simp at found
    · next b outer inner =>
      have ih := ih inner
      split at found
      · next closing =>
        simp only [Option.some.injEq] at found
        subst found closing
        simpa [joinedText] using ih
      · split at found
        · next opening =>
          split at found
          · simp at found
          · next after outer =>
            simp only [Option.some.injEq] at found
            subst found opening
            simpa [joinedText] using ih
        · simp only [Option.some.injEq] at found
          subst found
          simpa [joinedText] using ih

theorem text_of_parse? {text : List Char} {b : Block} (found : parse? text = some b) :
    b.text = text := by
  unfold parse? at found
  split at found
  · next b' whole =>
    simp only [Option.some.injEq] at found
    subst found
    simpa [joinedText] using joinedText_of_read whole
  · simp at found

theorem parse?_eq_some_iff {text : List Char} {b : Block} :
    parse? text = some b ↔ b.text = text :=
  ⟨text_of_parse?, fun same => same ▸ parse?_text b⟩

end Block

/-- The balanced texts are the texts of the structured programs. -/
theorem balanced_iff_exists_block {code : List Char} :
    Balanced code ↔ ∃ b : Block, b.text = code := by
  constructor
  · intro balanced
    induction balanced with
    | nil => exact ⟨.done, rfl⟩
    | plain noOpening noClosing _ ih =>
      obtain ⟨b, rfl⟩ := ih
      exact ⟨.plain _ noOpening noClosing b, rfl⟩
    | loop _ _ ihBody ihRest =>
      obtain ⟨body, rfl⟩ := ihBody
      obtain ⟨rest, rfl⟩ := ihRest
      exact ⟨.loop body rest, rfl⟩
  · rintro ⟨b, rfl⟩
    exact b.balanced_text

end ByteTape

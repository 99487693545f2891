import ByteTape.CommandLine.Spelling
import ByteTape.Proofs.Reporting
import Mathlib.Data.List.Forall2
import Mathlib.Data.List.Induction

set_option autoImplicit false

namespace ByteTape

namespace Text

variable {digits : List Char}

theorem ungroupDigits?_of_digits (nonempty : digits ≠ []) (all : ∀ c ∈ digits, c.isDigit = true) :
    ungroupDigits? digits = some digits := by
  induction digits with
  | nil => exact absurd rfl nonempty
  | cons c rest ih =>
    have digit : c.isDigit = true := all c List.mem_cons_self
    have others : ∀ d ∈ rest, d.isDigit = true := fun d mem => all d (List.mem_cons_of_mem c mem)
    cases rest with
    | nil => exact if_pos digit
    | cons d rest =>
      have next : d ≠ '_' := by
        intro same
        subst same
        exact absurd (others '_' List.mem_cons_self) (by decide)
      rw [ungroupDigits?, if_pos digit, ih (by simp) others, Option.map_some]
      · simp
      · simp [next]

theorem trimBy_of_none {p : Char → Bool} {text : List Char} (none : ∀ c ∈ text, p c = false) :
    trimBy p text = text := by
  have kept (l : List Char) (none : ∀ c ∈ l, p c = false) : l.dropWhile p = l := by
    cases l with
    | nil => rfl
    | cons c rest => exact List.dropWhile_cons_of_neg (by simp [none c List.mem_cons_self])
  rw [trimBy, kept text none, kept text.reverse (by simpa using none), List.reverse_reverse]

/-- A text of digits behind an optional sign has nothing to be replaced or trimmed. -/
theorem readInt?_of_plain {text : List Char} (plain : ∀ c ∈ text, c = '-' ∨ c.isDigit = true) :
    readInt? text = readSigned? text := by
  have codes (c : Char) (mem : c ∈ text) : 0x21 ≤ c.toNat ∧ c.toNat < 0x80 := by
    rcases plain c mem with rfl | digit
    · decide
    · simp only [Char.isDigit, Bool.and_eq_true, decide_eq_true_eq] at digit
      have low := UInt32.le_iff_toNat_le.mp digit.1
      have high := UInt32.le_iff_toNat_le.mp digit.2
      exact ⟨Nat.le_trans (by decide) low, Nat.lt_of_le_of_lt high (by decide)⟩
  have ascii : asciiForm? text = some text := by
    apply if_pos
    rw [List.all_eq_true]
    exact fun c mem => decide_eq_true (codes c mem).2
  have untrimmed : trimBy isAsciiBlank text = text := by
    apply trimBy_of_none
    intro c mem
    have above := (codes c mem).1
    have no_space : c ≠ ' ' := by
      intro space
      subst space
      exact absurd above (by decide)
    simp only [isAsciiBlank, Bool.or_eq_false_iff, Bool.and_eq_false_iff, decide_eq_false_iff_not,
      beq_eq_false_iff_ne]
    exact ⟨no_space, Or.inr (by omega)⟩
  rw [readInt?, ascii, Option.bind_some, untrimmed]

theorem isDigit_of_mem_repr {n : Nat} {c : Char} (mem : c ∈ n.repr.toList) : c.isDigit = true := by
  rw [Nat.toList_repr] at mem
  exact Nat.isDigit_of_mem_toDigits (by decide) (by decide) mem

theorem readNat?_repr {n : Nat} (short : n.repr.length ≤ maxDigits) :
    readNat? n.repr.toList = some n := by
  have ungrouped : ungroupDigits? n.repr.toList = some n.repr.toList := by
    apply ungroupDigits?_of_digits
    · rw [Nat.toList_repr]
      exact Nat.toDigits_ne_nil
    · exact fun c => isDigit_of_mem_repr
  have value : natOfDigits n.repr.toList = n := by
    rw [Nat.toList_repr]
    exact Nat.ofDigitChars_ten_toDigits
  have few : n.repr.toList.length ≤ maxDigits := by rwa [String.length_toList]
  rw [readNat?, ungrouped]
  show (if n.repr.toList.length ≤ maxDigits then _ else _) = _
  rw [if_pos few, value]

end Text

namespace CommandLine

namespace Request

theorem decimal_negSucc (n : Nat) : decimal (.negSucc n) = '-' :: (n + 1).repr.toList := by
  show ("-" ++ (n + 1).repr).toList = _
  rw [String.toList_append]
  rfl

theorem plain_of_mem_decimal {n : Int} {c : Char} (mem : c ∈ decimal n) :
    c = '-' ∨ c.isDigit = true := by
  cases n with
  | ofNat n => exact Or.inr (Text.isDigit_of_mem_repr mem)
  | negSucc n =>
    rw [decimal_negSucc, List.mem_cons] at mem
    exact mem.imp_right Text.isDigit_of_mem_repr

theorem readInt?_decimal {n : Int} (writable : Text.Writable n) :
    Text.readInt? (decimal n) = some n := by
  rw [Text.readInt?_of_plain fun c => plain_of_mem_decimal]
  cases n with
  | ofNat n =>
    have read := Text.readNat?_repr (n := n) writable
    have unsigned (rest : List Char) (sign : Char) (other : sign.isDigit = false) :
        n.repr.toList ≠ sign :: rest := by
      intro signed
      have digit : sign.isDigit = true :=
        Text.isDigit_of_mem_repr (n := n) (signed ▸ List.mem_cons_self)
      rw [other] at digit
      cases digit
    show Text.readSigned? n.repr.toList = _
    unfold Text.readSigned?
    split
    · next rest signed => exact absurd signed (unsigned rest '+' rfl)
    · next rest signed => exact absurd signed (unsigned rest '-' rfl)
    · rw [read]
      rfl
  | negSucc n =>
    have read := Text.readNat?_repr (n := n + 1) writable
    rw [decimal_negSucc, Text.readSigned?, read]
    rfl

end Request

namespace Name

variable {stem : List Char} {name : Name}

theorem eq_of_head?_word {other : Name} (same : other.word.head? = name.word.head?) :
    other = name := by
  rcases name with (_ | _ | _) | (_ | _) <;> rcases other with (_ | _ | _) | (_ | _) <;>
    first
    | rfl
    | exact absurd same (by decide)

/-- No two words begin with the same letter, so that one character is enough. -/
theorem startingWith_of_shortens (short : Request.Shortens stem name) :
    startingWith stem = [name] := by
  obtain ⟨nonempty, begins⟩ := short
  have head (other : Name) (begins : stem <+: other.word) : other.word.head? = stem.head? := by
    obtain ⟨rest, whole⟩ := begins
    rw [← whole, List.head?_append_of_ne_nil stem nonempty]
  -- Two words with a common beginning have the same first letter.
  have only : startingWith stem = all.filter (· == name) := by
    apply List.filter_congr
    intro other _
    rw [Bool.eq_iff_iff, List.isPrefixOf_iff_prefix, beq_iff_eq]
    constructor
    · intro common
      exact eq_of_head?_word ((head other common).trans (head name begins).symm)
    · intro same
      rwa [same]
  rw [only]
  rcases name with (_ | _ | _) | (_ | _) <;> rfl

theorem ne_equals_of_shortens (short : Request.Shortens stem name) {c : Char} (mem : c ∈ stem) :
    c ≠ '=' := by
  have inWord : c ∈ name.word := short.2.subset mem
  intro same
  subst same
  rcases name with (_ | _ | _) | (_ | _) <;> exact absurd inWord (by decide)

theorem ne_dash_of_letter? {c : Char} (named : name.letter? = some c) : c ≠ '-' := by
  intro same
  subst same
  rcases name with (_ | _ | _) | (_ | _) <;> exact absurd named (by decide)

end Name

namespace Bundle

theorem short_of_value {s : Setting} {value : List Char} (nonempty : value ≠ [])
    (noEquals : value.head? ≠ some '=') :
    short (.setting s) value = .ok ⟨[], .value s value⟩ := by
  cases value with
  | nil => exact absurd rfl nonempty
  | cons c rest =>
    have other : c ≠ '=' := by simpa using noEquals
    rw [Bundle.short]
    · rfl
    all_goals simp [other]

end Bundle

namespace Token

variable {name : Name}

theorem ofArgument_word {text : List Char} (noDash : text.head? ≠ some '-') :
    ofArgument text = .ok (.word text) := by
  unfold ofArgument
  split
  · exact absurd rfl noDash
  · exact absurd rfl noDash
  · rfl

/-- What follows the name of an option is empty or begins with an equals sign. -/
theorem ofArgument_long {stem rest : List Char} (short : Request.Shortens stem name)
    (stops : ∀ c ∈ rest.head?, c = '=') :
    ofArgument ('-' :: '-' :: (stem ++ rest)) =
      .ok (.options (Bundle.single name rest.tail?)) := by
  have through : ∀ c ∈ stem, (c != '=') = true :=
    fun c mem => bne_iff_ne.2 (Name.ne_equals_of_shortens short mem)
  have taken : (stem ++ rest).takeWhile (· != '=') = stem := by
    rw [List.takeWhile_append_of_pos through]
    cases rest with
    | nil => simp
    | cons c rest => simp [stops c rfl]
  have dropped : (stem ++ rest).dropWhile (· != '=') = rest := by
    rw [List.dropWhile_append_of_pos through]
    cases rest with
    | nil => rfl
    | cons c rest => simp [stops c rfl]
  simp only [ofArgument, taken, dropped, Name.startingWith_of_shortens short]

theorem ofArgument_letter {c : Char} (text : List Char) (named : name.letter? = some c) :
    ofArgument ('-' :: c :: text) = .ok (.options (Bundle.short name text)) := by
  have noDash : c ≠ '-' := Name.ne_dash_of_letter? named
  rw [ofArgument]
  · simp only [Name.ofLetter?_eq_some_iff.2 named]
  · simp [noDash]

/-- The argument stands before the end of the options, and is read as the token. -/
structure Reads (arg : List Char) (token : Token) : Prop where
  not_end : arg ≠ ['-', '-']
  read : ofArgument arg = .ok token

theorem Reads.word {text : List Char} (noDash : text.head? ≠ some '-') :
    Reads text (.word text) := by
  refine ⟨?_, ofArgument_word noDash⟩
  intro mark
  subst mark
  exact noDash rfl

theorem Reads.long {stem : List Char} (short : Request.Shortens stem name) (rest : List Char)
    (stops : ∀ c ∈ rest.head?, c = '=') :
    Reads ('-' :: '-' :: (stem ++ rest)) (.options (Bundle.single name rest.tail?)) where
  not_end := by simp [short.1]
  read := ofArgument_long short stops

theorem Reads.long_alone {stem : List Char} (short : Request.Shortens stem name) :
    Reads ('-' :: '-' :: stem) (.options (Bundle.single name none)) := by
  have alone := Reads.long short [] (by simp)
  rwa [List.append_nil] at alone

theorem Reads.letter {c : Char} (text : List Char) (named : name.letter? = some c) :
    Reads ('-' :: c :: text) (.options (Bundle.short name text)) where
  not_end := by simp [Name.ne_dash_of_letter? named]
  read := ofArgument_letter text named

theorem ofArguments_of_reads {args : List (List Char)} {tokens : List Token}
    (reads : List.Forall₂ Reads args tokens) : ofArguments args = .ok tokens := by
  induction reads with
  | nil => rfl
  | cons first _ ih =>
    rw [ofArguments, if_neg first.not_end, first.read, ih]
    rfl

end Token

namespace Progress

variable {p : Progress} {o : Options} {rest : List Token}

theorem addAll_value {s : Setting} {value : List Char} (set : p.options.set s value = .ok o) :
    addAll (.options (.ok ⟨[], .value s value⟩) :: rest) p =
      addAll rest { p with options := o } := by
  show (do addAll rest (← (p.options.set s value).map fun o => { p with options := o })) = _
  rw [set]
  rfl

theorem addAll_apart {s : Setting} {value : List Char} (set : p.options.set s value = .ok o) :
    addAll (.options (.ok ⟨[], .wants s⟩) :: .word value :: rest) p =
      addAll rest { p with options := o } := by
  show (do addAll rest (← (p.options.set s value).map fun o => { p with options := o })) = _
  rw [set]
  rfl

theorem addAll_flag {f : Flag} (raised : p.options.raiseAll [f] = .ok o) :
    addAll (.options (.ok ⟨[f], .nothing⟩) :: rest) p = addAll rest { p with options := o } := by
  show (do addAll rest (← (p.options.raiseAll [f]).map fun o => { p with options := o })) = _
  rw [raised]
  rfl

theorem addAll_word {name : List Char} (unnamed : p.options.file = none)
    (unmarked : Token.endOfOptions ∉ rest) :
    addAll (.word name :: rest) p =
      addAll rest { p with options := { p.options with file := some name } } := by
  have first : p.addWord name = { p with options := { p.options with file := some name } } := by
    rw [addWord, unnamed]
  rw [addAll, first]
  -- Only a word with the end of the options behind it is taken in another way.
  rintro rest' rfl
  exact unmarked List.mem_cons_self

end Progress

namespace Request

variable {r : Request} {requests : List Request} {args : List (List Char)}

def file? : Request → Option (List Char)
  | file name => some name
  | _ => none

def code? : Request → Option (List Char)
  | code text => some text
  | _ => none

def size? : Request → Option Int
  | tapeSize n => some n
  | _ => none

/-- The value that a request gives is taken as it stands: the text is not the mark that is dropped,
and the number is not too long to be read. -/
def Plain : Request → Prop
  | code text => text ≠ ['-', '-']
  | tapeSize n => Text.Writable n
  | _ => True

instance : DecidablePred Plain
  | code text => inferInstanceAs (Decidable (text ≠ ['-', '-']))
  | tapeSize n => inferInstanceAs (Decidable (Text.Writable n))
  | wrap => .isTrue trivial
  | debug => .isTrue trivial
  | file _ => .isTrue trivial

/-- The tokens that a request is read as. -/
inductive ReadAs : Request → List Token → Prop
  | value {r : Request} {s : Setting} {value : List Char} (sets : r.setting? = some (s, value)) :
      ReadAs r [.options (.ok ⟨[], .value s value⟩)]
  | apart {r : Request} {s : Setting} {value : List Char} (sets : r.setting? = some (s, value)) :
      ReadAs r [.options (.ok ⟨[], .wants s⟩), .word value]
  | flag {r : Request} {f : Flag} (raises : r.flag? = some f) :
      ReadAs r [.options (.ok ⟨[f], .nothing⟩)]
  | word {name : List Char} : ReadAs (.file name) [.word name]

theorem ReadAs.not_mem_end {tokens : List Token} (readAs : r.ReadAs tokens) :
    Token.endOfOptions ∉ tokens := by
  cases readAs <;> simp

/-- Every spelling of a request is read as tokens of the request. -/
theorem Spells.exists_readAs (spells : Spells r args) :
    ∃ tokens, List.Forall₂ Token.Reads args tokens ∧ r.ReadAs tokens := by
  cases spells with
  | longAssigned sets short => exact ⟨_, .cons (.long short _ (by simp)) .nil, .value sets⟩
  | longApart sets short noDash =>
    exact ⟨_, .cons (.long_alone short) (.cons (.word noDash) .nil), .apart sets⟩
  | letterAssigned sets named => exact ⟨_, .cons (.letter _ named) .nil, .value sets⟩
  | letterJoined sets named nonempty noEquals =>
    refine ⟨_, .cons (.letter _ named) .nil, ?_⟩
    rw [Bundle.short_of_value nonempty noEquals]
    exact .value sets
  | letterApart sets named noDash =>
    exact ⟨_, .cons (.letter _ named) (.cons (.word noDash) .nil), .apart sets⟩
  | long raises short => exact ⟨_, .cons (.long_alone short) .nil, .flag raises⟩
  | letter raises named => exact ⟨_, .cons (.letter _ named) .nil, .flag raises⟩
  | word noDash => exact ⟨_, .cons (.word noDash) .nil, .word⟩

theorem set_options {o : Options} {s : Setting} {value : List Char} (plain : r.Plain)
    (sets : r.setting? = some (s, value)) : o.set s value = .ok (grant o r) := by
  cases r with
  | code text =>
    cases sets
    exact if_neg plain
  | tapeSize n =>
    cases sets
    have read : Text.readInt? (decimal n) = some n := readInt?_decimal plain
    have not_mark : decimal n ≠ ['-', '-'] := by
      intro mark
      have unread : Text.readInt? ['-', '-'] = none := rfl
      rw [mark, unread] at read
      cases read
    rw [Options.set, if_neg not_mark]
    simp only [read]
    rfl
  | wrap => cases sets
  | debug => cases sets
  | file name => cases sets

theorem raiseAll_options {o : Options} {f : Flag} (raises : r.flag? = some f) :
    o.raiseAll [f] = .ok (grant o r) := by
  cases r <;> cases raises <;> rfl

/-- The tokens of a request change what the request changes, and leave the rest as it is. -/
theorem ReadAs.addAll {tokens rest : List Token} {p : Progress} (readAs : r.ReadAs tokens)
    (plain : r.Plain) (room : r.file?.isSome → p.options.file = none)
    (unmarked : Token.endOfOptions ∉ rest) :
    Progress.addAll (tokens ++ rest) p =
      Progress.addAll rest { p with options := grant p.options r } := by
  cases readAs with
  | value sets => exact Progress.addAll_value (set_options plain sets)
  | apart sets => exact Progress.addAll_apart (set_options plain sets)
  | flag raises => exact Progress.addAll_flag (raiseAll_options raises)
  | word => exact Progress.addAll_word (room rfl) unmarked

/-- There is at most one file, those that requests still name included. -/
def FilesFit (o : Options) (requests : List Request) : Prop :=
  o.file.toList.length + (requests.filterMap file?).length ≤ 1

theorem FilesFit.unnamed {o : Options} (fit : FilesFit o (r :: requests))
    (names : r.file?.isSome = true) : o.file = none := by
  obtain ⟨name, named⟩ := Option.isSome_iff_exists.1 names
  rw [FilesFit, List.filterMap_cons_some named, List.length_cons] at fit
  have unnamed : o.file.toList.length = 0 := by omega
  rwa [List.length_eq_zero_iff, Option.toList_eq_nil_iff] at unnamed

theorem FilesFit.grant {o : Options} (fit : FilesFit o (r :: requests)) :
    FilesFit (r.grant o) requests := by
  cases r with
  | file name =>
    show 1 + _ ≤ 1
    have named : file? (.file name) = some name := rfl
    rw [FilesFit, List.filterMap_cons_some named, List.length_cons] at fit
    omega
  | _ => exact fit

/-- The tokens of a command line change what its requests change, one after the other. -/
theorem SpellsAll.exists_tokens (spells : SpellsAll requests args)
    (plain : ∀ r ∈ requests, r.Plain) :
    ∃ tokens, List.Forall₂ Token.Reads args tokens ∧ Token.endOfOptions ∉ tokens ∧
      ∀ p : Progress, FilesFit p.options requests →
        Progress.addAll tokens p = .ok { p with options := requests.foldl grant p.options } := by
  induction spells with
  | nil => exact ⟨[], .nil, List.not_mem_nil, fun p _ => rfl⟩
  | @cons r rest args others first _ ih =>
    obtain ⟨tokens, reads, readAs⟩ := first.exists_readAs
    obtain ⟨more, reads_more, unmarked, granted⟩ :=
      ih fun r mem => plain r (List.mem_cons_of_mem _ mem)
    refine ⟨tokens ++ more, List.rel_append reads reads_more, ?_, ?_⟩
    · rw [List.mem_append]
      exact not_or.2 ⟨readAs.not_mem_end, unmarked⟩
    · -- The tokens of the first request are used up, and the rest goes on from what it changed.
      intro p fit
      rw [readAs.addAll (plain r List.mem_cons_self) fit.unnamed unmarked]
      exact granted _ fit.grant

theorem SpellsAll.parse (spells : SpellsAll requests args) (plain : ∀ r ∈ requests, r.Plain)
    (oneFile : (requests.filterMap file?).length ≤ 1) :
    Options.parse args = .ok (grantAll requests) := by
  obtain ⟨tokens, reads, -, granted⟩ := spells.exists_tokens plain
  have fit : FilesFit {} requests := by
    rw [FilesFit]
    simpa using oneFile
  rw [Options.parse, Token.ofArguments_of_reads reads]
  show (do
    let p ← Progress.addAll tokens {}
    if p.extras.isEmpty then pure p.options else throw _) = _
  rw [granted {} fit]
  rfl

/-- What a list of requests asks for, each value by itself. The last program text and the last tape
size count; a flag counts however often it is raised. -/
def asked (requests : List Request) : Options where
  file := (requests.filterMap file?).head?
  code := ((requests.filterMap code?).getLast?).elim .notGiven .text
  tapeSize := .integer (((requests.filterMap size?).getLast?).getD 1024)
  wrap := decide (.wrap ∈ requests)
  debug := decide (.debug ∈ requests)

theorem grantAll_append (requests : List Request) (r : Request) :
    grantAll (requests ++ [r]) = grant (grantAll requests) r :=
  List.foldl_concat ..

theorem asked_append (oneFile : ((requests ++ [r]).filterMap file?).length ≤ 1) :
    asked (requests ++ [r]) = grant (asked requests) r := by
  cases r with
  | file name =>
    have alone : requests.filterMap file? = [] := by
      simpa [file?] using oneFile
    simp [asked, grant, file?, code?, size?, alone]
  | _ => simp [asked, grant, file?, code?, size?]

theorem grantAll_eq_asked (oneFile : (requests.filterMap file?).length ≤ 1) :
    grantAll requests = asked requests := by
  induction requests using List.reverseRecOn with
  | nil => rfl
  | append_singleton requests r ih =>
    have fewer : (requests.filterMap file?).length ≤ 1 := by
      rw [List.filterMap_append, List.length_append] at oneFile
      omega
    rw [grantAll_append, ih fewer, asked_append oneFile]

/-- Options read back to what was meant, in any order and spelling. The call does what the five
values say that the requests ask for, and so does every other call that asks for the same. -/
theorem spelled_options_read_back {requests : List Request} {argv : List String}
    (plain : ∀ r ∈ requests, r.Plain) (oneFile : (requests.filterMap file?).length ≤ 1)
    (spells : SpellsAll requests (argv.map String.toList)) :
    Options.parse (argv.map String.toList) = .ok (asked requests) ∧
      (∀ room fuel files source,
        call room fuel files argv source = ((asked requests).plan files).report room fuel source) ∧
      ∀ others argv', (∀ r ∈ others, r.Plain) → (others.filterMap file?).length ≤ 1 →
        SpellsAll others (argv'.map String.toList) → asked others = asked requests →
          ∀ room fuel files source,
            call room fuel files argv' source = call room fuel files argv source := by
  have parsed : Options.parse (argv.map String.toList) = .ok (asked requests) := by
    rw [spells.parse plain oneFile, grantAll_eq_asked oneFile]
  refine ⟨parsed, fun room fuel files source => call_of_parse room fuel files source parsed, ?_⟩
  intro others argv' plain' oneFile' spells' same room fuel files source
  have parsed' : Options.parse (argv'.map String.toList) = .ok (asked requests) := by
    rw [spells'.parse plain' oneFile', grantAll_eq_asked oneFile', same]
  rw [call_of_parse room fuel files source parsed', call_of_parse room fuel files source parsed]

theorem spelled_options_read_back_twice :
    Options.parse (["--co=", "my file", "-s=-7", "--w", "-c-s=3", "-d"].map String.toList) =
      .ok { file := some ['m', 'y', ' ', 'f', 'i', 'l', 'e'], code := .text ['-', 's', '=', '3'],
            tapeSize := .integer (-7), wrap := true, debug := true } ∧
    ∀ room fuel files source,
      call room fuel files ["--debug", "-s", "12", "--tape=-7", "--wrap", "my file", "--code=-s=3"]
          source =
        call room fuel files ["--co=", "my file", "-s=-7", "--w", "-c-s=3", "-d"] source := by
  have spells : SpellsAll
      [.code [], .file ['m', 'y', ' ', 'f', 'i', 'l', 'e'], .tapeSize (-7), .wrap,
        .code ['-', 's', '=', '3'], .debug]
      (["--co=", "my file", "-s=-7", "--w", "-c-s=3", "-d"].map String.toList) :=
    .cons (@Spells.longAssigned _ _ _ ['c', 'o'] rfl ⟨by decide, by decide⟩) <|
    .cons (.word (by decide)) <|
    .cons (.letterAssigned rfl rfl) <|
    .cons (.long rfl ⟨by decide, by decide⟩) <|
    .cons (.letterJoined rfl rfl (by decide) (by decide)) <|
    .cons (.letter rfl rfl) .nil
  have spells' : SpellsAll
      [.debug, .tapeSize 12, .tapeSize (-7), .wrap, .file ['m', 'y', ' ', 'f', 'i', 'l', 'e'],
        .code ['-', 's', '=', '3']]
      (["--debug", "-s", "12", "--tape=-7", "--wrap", "my file", "--code=-s=3"].map
        String.toList) :=
    .cons (.long rfl ⟨by decide, by decide⟩) <|
    .cons (.letterApart rfl rfl (by decide)) <|
    .cons (@Spells.longAssigned _ _ _ ['t', 'a', 'p', 'e'] rfl ⟨by decide, by decide⟩) <|
    .cons (.long rfl ⟨by decide, by decide⟩) <|
    .cons (.word (by decide)) <|
    .cons (@Spells.longAssigned _ _ _ ['c', 'o', 'd', 'e'] rfl ⟨by decide, by decide⟩) .nil
  obtain ⟨parsed, -, alike⟩ := spelled_options_read_back (by decide) (by decide) spells
  exact ⟨parsed, alike _ _ (by decide) (by decide) spells' (by decide)⟩

end Request

end CommandLine

end ByteTape

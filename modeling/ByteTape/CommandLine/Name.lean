set_option autoImplicit false

namespace ByteTape.CommandLine

inductive Flag
  | help
  | wrap
  | debug
  deriving DecidableEq, Repr

inductive Setting
  | code
  | tapeSize
  deriving DecidableEq, Repr

inductive Name
  | flag (f : Flag)
  | setting (s : Setting)
  deriving DecidableEq, Repr

namespace Name

def all : List Name :=
  [.flag .help, .setting .code, .setting .tapeSize, .flag .wrap, .flag .debug]

/-- The letter that names an option after one dash. -/
def letter? : Name → Option Char
  | .flag .help => some 'h'
  | .setting .code => some 'c'
  | .setting .tapeSize => some 's'
  | .flag .wrap => none
  | .flag .debug => some 'd'

/-- The word that names an option after two dashes. -/
def word : Name → List Char
  | .flag .help => ['h', 'e', 'l', 'p']
  | .setting .code => ['c', 'o', 'd', 'e']
  | .setting .tapeSize => ['t', 'a', 'p', 'e', '-', 's', 'i', 'z', 'e']
  | .flag .wrap => ['w', 'r', 'a', 'p']
  | .flag .debug => ['d', 'e', 'b', 'u', 'g']

def ofLetter? (c : Char) : Option Name :=
  all.find? (·.letter? == some c)

/-- The options whose word begins with `stem`. -/
def startingWith (stem : List Char) : List Name :=
  all.filter fun name => stem.isPrefixOf name.word

def long (name : Name) : String :=
  String.ofList ('-' :: '-' :: name.word)

/-- All spellings of an option, as messages show them. -/
def label (name : Name) : String :=
  match name.letter? with
  | some c => String.ofList ['-', c, '/'] ++ name.long
  | none => name.long

theorem ofLetter?_eq_some_iff {c : Char} {name : Name} :
    ofLetter? c = some name ↔ name.letter? = some c := by
  constructor
  · intro found
    simpa using List.find?_some found
  · intro named
    rcases name with (_ | _ | _) | (_ | _) <;> simp_all [letter?] <;> subst named <;> rfl

end Name

end ByteTape.CommandLine

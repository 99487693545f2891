import ByteTape.CommandLine.Options

set_option autoImplicit false

namespace ByteTape.CommandLine

/-- One thing to ask for. -/
inductive Request
  | code (text : List Char)
  | tapeSize (n : Int)
  | wrap
  | debug
  | file (name : List Char)
  deriving DecidableEq, Repr

namespace Request

/-- The decimal text of an integer. -/
def decimal (n : Int) : List Char :=
  (toString n).toList

/-- The setting that a request gives a value to, and the value's text. -/
def setting? : Request → Option (Setting × List Char)
  | code text => some (.code, text)
  | tapeSize n => some (.tapeSize, decimal n)
  | _ => none

def flag? : Request → Option Flag
  | wrap => some .wrap
  | debug => some .debug
  | _ => none

/-- A shortening of an option's word: some of its characters from the left, or all. -/
def Shortens (stem : List Char) (name : Name) : Prop :=
  stem ≠ [] ∧ stem <+: name.word

/-- The arguments that spell a request. -/
inductive Spells : Request → List (List Char) → Prop
  | longAssigned {r : Request} {s : Setting} {value stem : List Char}
      (sets : r.setting? = some (s, value)) (short : Shortens stem (.setting s)) :
      Spells r ['-' :: '-' :: stem ++ '=' :: value]
  | longApart {r : Request} {s : Setting} {value stem : List Char}
      (sets : r.setting? = some (s, value)) (short : Shortens stem (.setting s))
      (noDash : value.head? ≠ some '-') : Spells r ['-' :: '-' :: stem, value]
  | letterAssigned {r : Request} {s : Setting} {value : List Char} {c : Char}
      (sets : r.setting? = some (s, value)) (named : (Name.setting s).letter? = some c) :
      Spells r ['-' :: c :: '=' :: value]
  | letterJoined {r : Request} {s : Setting} {value : List Char} {c : Char}
      (sets : r.setting? = some (s, value)) (named : (Name.setting s).letter? = some c)
      (nonempty : value ≠ []) (noEquals : value.head? ≠ some '=') : Spells r ['-' :: c :: value]
  | letterApart {r : Request} {s : Setting} {value : List Char} {c : Char}
      (sets : r.setting? = some (s, value)) (named : (Name.setting s).letter? = some c)
      (noDash : value.head? ≠ some '-') : Spells r [['-', c], value]
  | long {r : Request} {f : Flag} {stem : List Char} (raises : r.flag? = some f)
      (short : Shortens stem (.flag f)) : Spells r ['-' :: '-' :: stem]
  | letter {r : Request} {f : Flag} {c : Char} (raises : r.flag? = some f)
      (named : (Name.flag f).letter? = some c) : Spells r [['-', c]]
  | word {name : List Char} (noDash : name.head? ≠ some '-') : Spells (.file name) [name]

/-- The arguments that spell a sequence of requests, one after the other. -/
inductive SpellsAll : List Request → List (List Char) → Prop
  | nil : SpellsAll [] []
  | cons {r : Request} {rest : List Request} {args others : List (List Char)}
      (first : Spells r args) (after : SpellsAll rest others) :
      SpellsAll (r :: rest) (args ++ others)

/-- What a request changes. -/
def grant (o : Options) : Request → Options
  | code text => { o with code := .text text }
  | tapeSize n => { o with tapeSize := .integer n }
  | wrap => { o with wrap := true }
  | debug => { o with debug := true }
  | file name => { o with file := some name }

/-- What a sequence of requests asks for; of two values for one setting the last counts. -/
def grantAll (requests : List Request) : Options :=
  requests.foldl grant {}

end Request

end ByteTape.CommandLine

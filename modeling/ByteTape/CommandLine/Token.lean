import ByteTape.CommandLine.UsageError
import ByteTape.Text.DecimalDigit

set_option autoImplicit false

namespace ByteTape.CommandLine

inductive Ending
  | nothing
  /-- A setting whose value is the next argument. -/
  | wants (setting : Setting)
  | value (setting : Setting) (text : List Char)
  /-- An argument that names no option. -/
  | stray (text : List Char)
  deriving DecidableEq, Repr

structure Bundle where
  flags : List Flag
  ending : Ending
  deriving DecidableEq, Repr

inductive Token
  | word (text : List Char)
  | endOfOptions
  /-- Options, or what is wrong with them. -/
  | options (bundle : Except UsageError Bundle)

namespace Bundle

/-- The options behind one dash, from the one whose letter was read last. What follows a flag must
be the letter of another option; what follows a setting is its value as it stands. -/
def joined : Name → List Char → Except UsageError Bundle
  | .setting s, [] => .ok ⟨[], .wants s⟩
  | .setting s, value => .ok ⟨[], .value s value⟩
  | .flag f, [] => .ok ⟨[f], .nothing⟩
  | .flag f, c :: rest =>
    match Name.ofLetter? c with
    | none => .error (.valueUnexpected f (c :: rest))
    | some name => (joined name rest).map fun b => { b with flags := f :: b.flags }

/-- The options behind one dash, given what follows the first letter. An equals sign directly
behind this letter is passed over, also when further letters follow it, but not at the end. -/
def short : Name → List Char → Except UsageError Bundle
  | .setting s, '=' :: value => .ok ⟨[], .value s value⟩
  | .flag f, ['='] => .error (.valueUnexpected f [])
  | .flag f, '=' :: text => joined (.flag f) text
  | name, text => joined name text

/-- The option behind two dashes, with what follows the equals sign if there is one. -/
def single : Name → Option (List Char) → Except UsageError Bundle
  | .setting s, none => .ok ⟨[], .wants s⟩
  | .setting s, some value => .ok ⟨[], .value s value⟩
  | .flag f, none => .ok ⟨[f], .nothing⟩
  | .flag f, some value => .error (.valueUnexpected f value)

end Bundle

namespace Token

def isDecimalDigit (c : Char) : Bool :=
  (Text.decimalDigit? c).isSome

/-- Digits, or digits with a point before the last one; a line feed may follow. -/
def isUnsignedNumber (text : List Char) : Bool :=
  let body := if text.getLast? = some '\n' then text.dropLast else text
  match body.dropWhile isDecimalDigit with
  | [] => !body.isEmpty
  | '.' :: fraction => !fraction.isEmpty && fraction.all isDecimalDigit
  | _ => false

/-- An argument with a dash that names no option is still a word if it is a negative number or
holds a space. -/
def unnamed (arg : List Char) : Token :=
  if isUnsignedNumber arg.tail || arg.contains ' ' then .word arg
  else .options (.ok ⟨[], .stray arg⟩)

def ofArgument (arg : List Char) : Except UsageError Token :=
  match arg with
  | '-' :: '-' :: text =>
    let value? := (text.dropWhile (· != '=')).tail?
    match Name.startingWith (text.takeWhile (· != '=')) with
    | [] => .ok (unnamed arg)
    | [name] => .ok (.options (Bundle.single name value?))
    | names => .error (.ambiguous arg names)
  | '-' :: c :: text =>
    match Name.ofLetter? c with
    | none => .ok (unnamed arg)
    | some name => .ok (.options (Bundle.short name text))
  | _ => .ok (.word arg)

/-- Reads all arguments. Behind the end of the options there are only words. -/
def ofArguments : List (List Char) → Except UsageError (List Token)
  | [] => .ok []
  | arg :: rest =>
    if arg = ['-', '-'] then .ok (.endOfOptions :: rest.map .word)
    else do
      let token ← ofArgument arg
      let others ← ofArguments rest
      return token :: others

end Token

end ByteTape.CommandLine

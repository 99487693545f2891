import ByteTape.CommandLine.Token
import ByteTape.Text.Integer

set_option autoImplicit false

namespace ByteTape.CommandLine

inductive Code
  | notGiven
  /-- The setting was given and left without a text. -/
  | withoutText
  | text (t : List Char)
  deriving DecidableEq, Repr

structure Options where
  file : Option (List Char) := none
  code : Code := .notGiven
  tapeSize : SizeValue := .integer TapeSize.standard.cells
  wrap : Bool := false
  debug : Bool := false
  deriving DecidableEq, Repr

inductive Exit
  | help
  | usage (error : UsageError)
  deriving DecidableEq, Repr

namespace Options

def raise (o : Options) : Flag → Except Exit Options
  | .help => .error .help
  | .wrap => .ok { o with wrap := true }
  | .debug => .ok { o with debug := true }

def raiseAll (o : Options) : List Flag → Except Exit Options
  | [] => .ok o
  | f :: rest => do (← o.raise f).raiseAll rest

/-- Leaves a setting without a value: the program has no text, and the tape size is an empty
list. -/
def clear (o : Options) : Setting → Options
  | .code => { o with code := .withoutText }
  | .tapeSize => { o with tapeSize := .other "list" }

/-- Gives a setting its value. The value `--` is dropped, as it is beside the file. -/
def set (o : Options) (setting : Setting) (value : List Char) : Except Exit Options :=
  if value = ['-', '-'] then .ok (o.clear setting)
  else
    match setting with
    | .code => .ok { o with code := .text value }
    | .tapeSize =>
      match Text.readInt? value with
      | some n => .ok { o with tapeSize := .integer n }
      | none => .error (.usage (.notAnInteger .tapeSize value))

end Options

/-- The options read so far, and the arguments that had no place. -/
structure Progress where
  options : Options := {}
  extras : List (List Char) := []

namespace Progress

def addExtra (p : Progress) (arg : List Char) : Progress :=
  { p with extras := p.extras ++ [arg] }

/-- The first word is the file; further words have no place. -/
def addWord (p : Progress) (text : List Char) : Progress :=
  match p.options.file with
  | none => { p with options := { p.options with file := some text } }
  | some _ => p.addExtra text

/-- The end of the options goes with the file, before or after it. -/
def addEnd (p : Progress) (besideFile : Bool) : Progress :=
  if besideFile then p else p.addExtra ['-', '-']

def raiseAll (p : Progress) (flags : List Flag) : Except Exit Progress :=
  (p.options.raiseAll flags).map fun o => { p with options := o }

def set (p : Progress) (setting : Setting) (value : List Char) : Except Exit Progress :=
  (p.options.set setting value).map fun o => { p with options := o }

def addAll : List Token → Progress → Except Exit Progress
  | [], p => .ok p
  | .word text :: .endOfOptions :: rest, p =>
    addAll rest ((p.addWord text).addEnd p.options.file.isNone)
  | .word text :: rest, p => addAll rest (p.addWord text)
  | .endOfOptions :: rest, p => addAll rest (p.addEnd p.options.file.isNone)
  | .options (.error e) :: _, _ => .error (.usage e)
  | .options (.ok ⟨flags, .nothing⟩) :: rest, p => do addAll rest (← p.raiseAll flags)
  | .options (.ok ⟨flags, .wants setting⟩) :: .word value :: rest, p => do
    addAll rest (← (← p.raiseAll flags).set setting value)
  | .options (.ok ⟨_, .wants setting⟩) :: _, _ => .error (.usage (.valueMissing setting))
  | .options (.ok ⟨flags, .value setting value⟩) :: rest, p => do
    addAll rest (← (← p.raiseAll flags).set setting value)
  | .options (.ok ⟨flags, .stray text⟩) :: rest, p => do
    addAll rest ((← p.raiseAll flags).addExtra text)

end Progress

namespace Options

/-- Reads the arguments of a command line. -/
def parse (args : List (List Char)) : Except Exit Options := do
  let tokens ← (Token.ofArguments args).mapError .usage
  let p ← Progress.addAll tokens {}
  if p.extras.isEmpty then return p.options
  else throw (.usage (.unrecognized p.extras))

end Options

end ByteTape.CommandLine

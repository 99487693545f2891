import ByteTape.CommandLine.Name
import ByteTape.TapeSize
import ByteTape.Text.Quoted

set_option autoImplicit false

namespace ByteTape.CommandLine

inductive UsageError
  /-- The argument could be short for several options. -/
  | ambiguous (argument : List Char) (candidates : List Name)
  | valueMissing (setting : Setting)
  /-- A flag was given a value. -/
  | valueUnexpected (flag : Flag) (value : List Char)
  | notAnInteger (setting : Setting) (value : List Char)
  | unrecognized (arguments : List (List Char))
  | tapeSize (error : SizeError)
  deriving DecidableEq, Repr

def usageLine : String :=
  "usage: run-brainfuck [-h] [-c CODE] [-s TAPE_SIZE] [--wrap] [-d] [file]\n"

def helpText : String :=
  usageLine ++ "
Run a Brainfuck program.

positional arguments:
  file                  Program file

options:
  -h, --help            show this help message and exit
  -c CODE, --code CODE  Program text, instead of a file
  -s TAPE_SIZE, --tape-size TAPE_SIZE
                        Number of tape cells
  --wrap                Wrap the data pointer around the tape ends
  -d, --debug           Print trace lines to stderr
"

namespace UsageError

def message : UsageError → String
  | ambiguous argument candidates =>
    let given := String.ofList argument
    let meant := String.intercalate ", " (candidates.map Name.long)
    s!"ambiguous option: {given} could match {meant}"
  | valueMissing setting =>
    let label := (Name.setting setting).label
    s!"argument {label}: expected one argument"
  | valueUnexpected flag value =>
    let label := (Name.flag flag).label
    let shown := String.ofList (Text.quoted value)
    s!"argument {label}: ignored explicit argument {shown}"
  | notAnInteger setting value =>
    let label := (Name.setting setting).label
    let shown := String.ofList (Text.quoted value)
    s!"argument {label}: invalid int value: {shown}"
  | unrecognized arguments =>
    let given := String.intercalate " " (arguments.map String.ofList)
    s!"unrecognized arguments: {given}"
  | tapeSize error => error.message

/-- The complaint as it is printed, under the usage line. -/
def report (e : UsageError) : String :=
  let text := e.message
  usageLine ++ s!"run-brainfuck: error: {text}\n"

end UsageError

end ByteTape.CommandLine

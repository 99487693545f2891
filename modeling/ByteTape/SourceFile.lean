import ByteTape.Device.SystemError
import ByteTape.Text.Latin
import ByteTape.Text.Quoted

set_option autoImplicit false

namespace ByteTape

inductive Obstacle
  | missing
  | notADirectory
  | isADirectory
  | nameTooLong
  deriving DecidableEq, Repr

namespace Obstacle

def systemError : Obstacle → SystemError
  | missing => .noSuchFile
  | notADirectory => .notADirectory
  | isADirectory => .isADirectory
  | nameTooLong => .nameTooLong

end Obstacle

inductive FileError
  /-- The name has a null character in it, which no path has. -/
  | nullCharacter
  | unreachable (obstacle : Obstacle) (name : String)
  deriving DecidableEq, Repr

namespace FileError

def message : FileError → String
  | nullCharacter => "embedded null byte"
  | unreachable obstacle name => obstacle.systemError.message ++ ": " ++ Text.quote name

end FileError

/-- What reading the file of a given name comes to. -/
abbrev Files := String → Except FileError (Array UInt8)

def sourceText (bytes : Array UInt8) : String :=
  String.ofList (Text.unifyLineEndings (Text.decodeBytes bytes.toList))

namespace Files

def sourceText (files : Files) (name : String) : Except FileError String :=
  (files name).map ByteTape.sourceText

end Files

end ByteTape

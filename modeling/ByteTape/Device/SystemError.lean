set_option autoImplicit false

namespace ByteTape

structure SystemError where
  code : Int
  text : String
  deriving DecidableEq, Repr

namespace SystemError

def message (e : SystemError) : String :=
  let code := e.code
  let text := e.text
  s!"[Errno {code}] {text}"

def noSuchFile : SystemError where
  code := 2
  text := "No such file or directory"

def notADirectory : SystemError where
  code := 20
  text := "Not a directory"

def isADirectory : SystemError where
  code := 21
  text := "Is a directory"

def nameTooLong : SystemError where
  code := 36
  text := "File name too long"

end SystemError

end ByteTape

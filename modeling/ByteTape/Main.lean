import ByteTape.Live

set_option autoImplicit false

open ByteTape ByteTape.CommandLine

def readByte (stdin : IO.FS.Stream) : IO Reading := do
  try
    let bytes ← stdin.read 1
    return (bytes.data[0]?.map fun b => Reading.value b.toNat).getD .endOfInput
  catch e => return .failed (toString e)

/-- The turns of a run, with standard input as the source. Each byte is written at once. -/
partial def drive (stdin stdout : IO.FS.Stream) (m : Machine) : IO (Except StepError String) := do
  let reading ← if m.reads then readByte stdin else pure .endOfInput
  let (standing, bytes) := m.turn reading
  unless bytes.isEmpty do
    stdout.write ⟨bytes⟩
    stdout.flush
  match standing with
  | .running next => drive stdin stdout next
  | .over result => return result

/-- Runs a job live and returns the exit status. Any tape may be asked for, and the system says what
memory has no room for. -/
def runJob (j : Job) : IO UInt32 := do
  (← IO.getStderr).putStr j.announcement
  let result ← match j.machine Word.limit.toNat with
    | .error e => pure (.error e)
    | .ok m => Except.mapError .step <$> drive (← IO.getStdin) (← IO.getStdout) m
  let (status, out, err) := closing result
  (← IO.getStdout).putStr out
  (← IO.getStderr).putStr err
  match status with
  | .exit code => return code.toUInt32
  | .aborted cause =>
    (← IO.getStderr).putStrLn cause.message
    return 1

def obstacleOf : IO.Error → Obstacle
  | .inappropriateType _ code _ =>
    if code.toNat = SystemError.isADirectory.code then .isADirectory else .notADirectory
  | .invalidArgument .. => .nameTooLong
  | _ => .missing

/-- The file that the command line names, as it is found. -/
def filesFor (args : List String) : IO Files := do
  match Options.parse (args.map String.toList) with
  | .ok { file := some name, code := .notGiven, .. } =>
    let name := String.ofList name
    try
      let bytes ← IO.FS.readBinFile name
      return fun _ => .ok bytes.data
    catch e => return fun asked => .error (.unreachable (obstacleOf e) asked)
  | _ => return fun asked => .error (.unreachable .missing asked)

def main (args : List String) : IO UInt32 := do
  match Plan.ofArguments (← filesFor args) args with
  | .exit status out err =>
    (← IO.getStdout).putStr out
    (← IO.getStderr).putStr err
    return status.toUInt32
  | .abort cause err =>
    (← IO.getStderr).putStr err
    (← IO.getStderr).putStrLn cause.message
    return 1
  | .job j => runJob j

import ByteTape.CommandLine.Options
import ByteTape.Session
import ByteTape.SourceFile

set_option autoImplicit false

namespace ByteTape.CommandLine

/-- A source text and the settings to run it with. -/
structure Job where
  text : String
  tapeSize : TapeSize
  policy : PointerPolicy
  debug : Bool

/-- What no exit status stands for: it passes through to whoever made the call. -/
inductive Abort
  | file (error : FileError)
  /-- The tape size is no integer. -/
  | tapeSize (error : SizeError)
  /-- The program was left without a text. -/
  | noText
  /-- There is no tape of the size that was asked for. -/
  | tape (error : TapeError)
  | escape (escape : Escape)
  deriving DecidableEq, Repr

namespace Abort

def message : Abort → String
  | file error => error.message
  | tapeSize error => error.message
  | noText => "'list' object has no attribute 'split'"
  | tape error => error.message
  | escape e => e.message

end Abort

/-- What is to be done: nothing but print and exit, give up, or run. -/
inductive Plan
  | exit (status : Nat) (stdout stderr : String)
  | abort (cause : Abort) (stderr : String)
  | job (job : Job)

inductive Status
  | exit (code : Nat)
  | aborted (cause : Abort)
  deriving DecidableEq, Repr

structure Report where
  status : Status
  stdout : Array UInt8
  stderr : String
  /-- The standard input afterwards. -/
  source : Source

namespace Options

/-- The program text that was asked for, if a program was; the setting for it may have been left
without a text. -/
def text? (o : Options) (files : Files) : Option (Except FileError (Option String)) :=
  match o.code, o.file with
  | .text code, _ => some (.ok (some (String.ofList code)))
  | .withoutText, _ => some (.ok none)
  | .notGiven, some name => some ((files.sourceText (String.ofList name)).map some)
  | .notGiven, none => none

def policy (o : Options) : PointerPolicy :=
  if o.wrap then .wrap else .bounded

/-- What is traced before a text is looked for and not found. -/
def loadingTrace (o : Options) : String :=
  if o.debug then linesText #[Session.loadingLine] else ""

def plan (o : Options) (files : Files) : Plan :=
  match o.text? files with
  | none => .exit 2 "" usageLine
  | some (.error e) => .abort (.file e) ""
  | some (.ok text) =>
    match TapeSize.ofValue o.tapeSize, text with
    | .error (.tooSmall n), _ => .exit 2 "" (UsageError.tapeSize (.tooSmall n)).report
    | .error e, _ => .abort (.tapeSize e) ""
    | .ok _, none => .abort .noText o.loadingTrace
    | .ok size, some text => .job ⟨text, size, o.policy, o.debug⟩

end Options

namespace Plan

def ofArguments (files : Files) (args : List String) : Plan :=
  match Options.parse (args.map String.toList) with
  | .error .help => .exit 0 helpText ""
  | .error (.usage e) => .exit 2 "" e.report
  | .ok options => options.plan files

end Plan

namespace Job

def session (j : Job) (source : Source) (sink : Sink) : Session where
  tapeSize := j.tapeSize
  policy := j.policy
  debug := j.debug
  source := source
  sink := sink

end Job

/-- What is printed when a program has run: a line feed after the output of a completed one, a
message about a fault. -/
def closing : Except RunError String → Status × String × String
  | .ok _ => (.exit 0, "\n", "")
  | .error (.step (.fault f)) =>
    let text := f.message
    (.exit 1, "", s!"\nerror: {text}\n")
  | .error (.step (.escape e)) => (.aborted (.escape e), "", "")
  | .error (.tape e) => (.aborted (.tape e), "", "")

namespace Report

/-- The report on a run that had traced and written this much when it came to its result. -/
def ofResult (traced : String) (written : Array UInt8) (source : Source)
    (result : Except RunError String) : Report :=
  let (status, out, err) := closing result
  { status := status
    stdout := written ++ out.toUTF8.data
    stderr := traced ++ err
    source := source }

def ofRun (result : Except RunError String) (s : Session) : Report :=
  ofResult (linesText s.traced) s.sink.received s.source result

end Report

namespace Plan

/-- Carries a plan out, with `source` as standard input. The result is `none` if `fuel` steps are
not enough. -/
def report (room fuel : Nat) (source : Source) : Plan → Option Report
  | .exit status stdout stderr => some ⟨.exit status, stdout.toUTF8.data, stderr, source⟩
  | .abort cause stderr => some ⟨.aborted cause, #[], stderr, source⟩
  | .job j =>
    ((j.session source .unlimited).interpret room fuel j.text).map fun (result, s) =>
      .ofRun result s

end Plan

/-- A whole call of the program. -/
def call (room fuel : Nat) (files : Files) (args : List String) (source : Source) :
    Option Report :=
  (Plan.ofArguments files args).report room fuel source

end ByteTape.CommandLine

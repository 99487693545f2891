import ByteTape.CommandLine.Report
import ByteTape.Proofs.Independence

set_option autoImplicit false

namespace ByteTape

theorem Session.traced_announce (s : Session) : s.announce.traced =
    if s.debug then (s.traced.push loadingLine).push executingLine else s.traced := by
  by_cases debug : s.debug = true
  · have loading : s.trace loadingLine = { s with traced := s.traced.push loadingLine } :=
      if_pos debug
    rw [announce, loading, if_pos debug]
    exact congrArg traced (if_pos debug)
  · have silent (message : String) : s.trace message = s := if_neg debug
    rw [announce, silent, silent, if_neg debug]

namespace CommandLine

variable {room fuel : Nat} {files : Files} {args : List String} {o : Options} {source : Source}

namespace Options

/-- The options ask for a program text, and it is found. The setting for it may have been left
without a text. -/
inductive Finds (o : Options) (files : Files) : Option String → Prop
  | onCommandLine {text : List Char} (given : o.code = .text text) :
    Finds o files (some (String.ofList text))
  | nowhere (given : o.code = .withoutText) : Finds o files none
  | inFile {name : List Char} {bytes : Array UInt8} (not_given : o.code = .notGiven)
    (named : o.file = some name) (read : files (String.ofList name) = .ok bytes) :
    Finds o files (some (sourceText bytes))

theorem text?_of_file {name : List Char} (not_given : o.code = .notGiven)
    (named : o.file = some name) :
    o.text? files = some (((files (String.ofList name)).map sourceText).map some) := by
  rw [text?, not_given, named]
  rfl

theorem Finds.text?_eq {text : Option String} (finds : o.Finds files text) :
    o.text? files = some (.ok text) := by
  cases finds with
  | onCommandLine given => rw [text?, given]
  | nowhere given => rw [text?, given]
  | inFile not_given named read =>
    rw [text?_of_file not_given named, read]
    rfl

end Options

theorem UsageError.report_tooSmall (n : Int) : (UsageError.tapeSize (.tooSmall n)).report =
    usageLine ++ s!"run-brainfuck: error: Tape size must be at least 1, got {n}\n" := by
  unfold UsageError.report
  congr 1

theorem closing_fault (f : Fault) : closing (.error (.step (.fault f))) =
    (.exit 1, "", "\nerror: " ++ f.message ++ "\n") := rfl

/-- How a call tells what the run of the program has come to: one that completes ends its output
with a line feed, and one that fails says why. What a run does not report passes through, behind
what has been written until then. -/
inductive Tells (trace : String) (source : Source) :
    Except TapeError (Option Execution) → Option Report → Prop
  | endless : Tells trace source (.ok none) none
  | noTape (e : TapeError) :
    Tells trace source (.error e) (some ⟨.aborted (.tape e), #[], trace, source⟩)
  | completed {x : Execution} {text : String} (outcome : x.outcome = .completed text) :
    Tells trace source (.ok (some x))
      (some ⟨.exit 0, x.final.sink.received.push 10, trace, x.final.source⟩)
  | failed {x : Execution} {f : Fault} (outcome : x.outcome = .failed f) :
    Tells trace source (.ok (some x))
      (some ⟨.exit 1, x.final.sink.received, trace ++ ("\nerror: " ++ f.message ++ "\n"),
        x.final.source⟩)
  | escaped {x : Execution} {e : Escape} (outcome : x.outcome = .escaped e) :
    Tells trace source (.ok (some x))
      (some ⟨.aborted (.escape e), x.final.sink.received, trace, x.final.source⟩)

namespace Tells

variable {trace : String} {came : Except TapeError (Option Execution)} {called : Option Report}

theorem exit_zero_iff (tells : Tells trace source came called) :
    (∃ r, called = some r ∧ r.status = .exit 0) ↔
      ∃ x text, came = .ok (some x) ∧ x.outcome = .completed text := by
  cases tells with
  | endless => simp
  | noTape e => simp
  | completed outcome => simp [outcome]
  | failed outcome => simp [outcome]
  | escaped outcome => simp [outcome]

theorem exit_one_iff (tells : Tells trace source came called) :
    (∃ r, called = some r ∧ r.status = .exit 1) ↔
      ∃ x f, came = .ok (some x) ∧ x.outcome = .failed f := by
  cases tells with
  | endless => simp
  | noTape e => simp
  | completed outcome => simp [outcome]
  | failed outcome => simp [outcome]
  | escaped outcome => simp [outcome]

/-- The answer to whoever asked for the text of a run is told as what the run has come to. -/
theorem of_interprets {s next : Session} {result : Except TapeError Execution}
    {answer : Except RunError String} (interprets : Interprets result answer)
    (ranTo : s.RanTo result next) (unused : s.sink.received = #[]) :
    Tells (linesText next.traced) s.source (result.map some) (some (.ofRun answer next)) := by
  rcases result with e | x
  · obtain ⟨source_eq, sink_eq⟩ := ranTo.devices_of_error e rfl
    have told : Report.ofRun answer next =
        ⟨.aborted (.tape e), #[], linesText next.traced, s.source⟩ := by
      simp [Report.ofRun, Report.ofResult, closing, (interprets.tape_iff e).2 rfl, source_eq,
        sink_eq, unused]
    rw [told]
    exact .noTape e
  · obtain ⟨source_eq, sink_eq⟩ := ranTo.devices_of_ok x rfl
    cases outcome : x.outcome with
    | completed text =>
      have line_feed : "\n".toByteArray.data = #[10] := rfl
      have told : Report.ofRun answer next =
          ⟨.exit 0, x.final.sink.received.push 10, linesText next.traced, x.final.source⟩ := by
        simp [Report.ofRun, Report.ofResult, closing,
          (interprets.text_iff text).2 ⟨x, rfl, outcome⟩, source_eq, sink_eq, line_feed]
      rw [told]
      exact .completed outcome
    | failed f =>
      have told : Report.ofRun answer next = ⟨.exit 1, x.final.sink.received,
          linesText next.traced ++ ("\nerror: " ++ f.message ++ "\n"), x.final.source⟩ := by
        simp [Report.ofRun, Report.ofResult, closing_fault,
          (interprets.fault_iff f).2 ⟨x, rfl, outcome⟩, source_eq, sink_eq]
      rw [told]
      exact .failed outcome
    | escaped e =>
      have told : Report.ofRun answer next =
          ⟨.aborted (.escape e), x.final.sink.received, linesText next.traced,
            x.final.source⟩ := by
        simp [Report.ofRun, Report.ofResult, closing,
          (interprets.escape_iff e).2 ⟨x, rfl, outcome⟩, source_eq, sink_eq]
      rw [told]
      exact .escaped outcome

end Tells

def runTrace (debug : Bool) : String :=
  if debug then "loading program\nexecuting program\n" else ""

theorem Job.linesText_announce (j : Job) (source : Source) :
    linesText (j.session source .unlimited).announce.traced = runTrace j.debug := by
  rw [Session.traced_announce]
  show linesText (if j.debug then _ else _) = _
  cases j.debug <;> rfl

theorem Tells.job (room fuel : Nat) (j : Job) (source : Source) :
    Tells (runTrace j.debug) source
      (executeSized room fuel (Program.load j.text) j.tapeSize.cells j.policy source .unlimited)
      ((Plan.job j).report room fuel source) := by
  rw [← j.linesText_announce source, Plan.report]
  -- The session of the job has the settings of the job and the devices of the call.
  show Tells _ _ ((j.session source .unlimited).standalone room fuel j.text) _
  rcases (j.session source .unlimited).alone_cases room fuel j.text with
    ⟨endless, -, silent⟩ | ⟨result, answer, next, came, ran, interpreted, interprets, ranTo⟩
  · rw [endless, silent]
    exact .endless
  · rw [came, interpreted, ← Session.traced_of_run ran]
    exact .of_interprets interprets ranTo rfl

namespace Options

variable {text : Option String} {n : Int}

theorem plan_of_nothing (not_given : o.code = .notGiven) (unnamed : o.file = none) :
    o.plan files = .exit 2 "" usageLine := by
  have nothing : o.text? files = none := by rw [text?, not_given, unnamed]
  rw [plan, nothing]

theorem plan_of_unreadable {name : List Char} {e : FileError} (not_given : o.code = .notGiven)
    (named : o.file = some name) (unreadable : files (String.ofList name) = .error e) :
    o.plan files = .abort (.file e) "" := by
  have failed : o.text? files = some (.error e) := by
    rw [text?_of_file not_given named, unreadable]
    rfl
  rw [plan, failed]

theorem plan_of_small (finds : o.Finds files text) (asked : o.tapeSize = .integer n)
    (small : n < 1) :
    o.plan files = .exit 2 ""
      (usageLine ++ s!"run-brainfuck: error: Tape size must be at least 1, got {n}\n") := by
  have refused : TapeSize.ofValue o.tapeSize = .error (.tooSmall n) := by
    rw [asked]
    exact TapeSize.ofValue_of_not_pos small
  rw [plan, finds.text?_eq, ← UsageError.report_tooSmall]
  simp only [refused]

theorem plan_of_not_integer {typeName : String} (finds : o.Finds files text)
    (asked : o.tapeSize = .other typeName) :
    o.plan files = .abort (.tapeSize (.notAnInteger typeName)) "" := by
  rw [plan, finds.text?_eq, asked]
  rfl

theorem exists_plan_of_pos (finds : o.Finds files text) (asked : o.tapeSize = .integer n)
    (positive : 1 ≤ n) : ∃ size : TapeSize, size.cells = n ∧ o.plan files =
      match text with
      | none => .abort .noText o.loadingTrace
      | some code => .job ⟨code, size, o.policy, o.debug⟩ := by
  obtain ⟨size, cells_eq, accepted⟩ := TapeSize.exists_ofValue_of_pos positive
  refine ⟨size, cells_eq, ?_⟩
  rw [plan, finds.text?_eq, asked]
  simp only [accepted]
  cases text <;> rfl

theorem tells_plan {code : String} (finds : o.Finds files (some code))
    (asked : o.tapeSize = .integer n) (positive : 1 ≤ n) :
    Tells (runTrace o.debug) source
      (executeSized room fuel (Program.load code) n o.policy source .unlimited)
      ((o.plan files).report room fuel source) := by
  obtain ⟨size, cells_eq, plan_eq⟩ := exists_plan_of_pos finds asked positive
  rw [plan_eq, ← cells_eq]
  exact .job room fuel ⟨code, size, o.policy, o.debug⟩ source

/-- What the command line says about a program text goes before the file. -/
theorem plan_of_given (given : o.code ≠ .notGiven) (files files' : Files)
    (file : Option (List Char)) : { o with file := file }.plan files' = o.plan files := by
  have same : { o with file := file }.text? files' = o.text? files := by
    unfold text?
    cases code : o.code with
    | notGiven => exact absurd code given
    | _ => rfl
  unfold plan
  rw [same]
  rfl

end Options

theorem call_of_parse (room fuel : Nat) (files : Files) (source : Source)
    (parsed : Options.parse (args.map String.toList) = .ok o) :
    call room fuel files args source = (o.plan files).report room fuel source := by
  rw [call, Plan.ofArguments, parsed]

/-- A call with arguments that make sense tells the truth about the run. The text on the command
line goes before the file, which then makes no difference; where there is neither, or a file that
cannot be read, or a size that no tape has, nothing is run and nothing is read. Otherwise the call
exits with 0 if the run completes and with 1 if it fails, and prints what the program writes, the
trace, and what the run failed by. -/
theorem calls_tell_the_run (room fuel : Nat) (files : Files) {args : List String} {o : Options}
    (source : Source) (parsed : Options.parse (args.map String.toList) = .ok o) :
    let called := call room fuel files args source
    (o.code ≠ .notGiven → ∀ files' args' file,
      Options.parse (args'.map String.toList) = .ok { o with file := file } →
        call room fuel files' args' source = called) ∧
    (o.code = .notGiven → o.file = none →
      called = some ⟨.exit 2, #[], usageLine, source⟩) ∧
    (∀ name e, o.code = .notGiven → o.file = some name →
      files (String.ofList name) = .error e →
        called = some ⟨.aborted (.file e), #[], "", source⟩) ∧
    ∀ text, o.Finds files text →
      (∀ typeName, o.tapeSize = .other typeName →
        called = some ⟨.aborted (.tapeSize (.notAnInteger typeName)), #[], "", source⟩) ∧
      ∀ n, o.tapeSize = .integer n →
        (n < 1 → called = some ⟨.exit 2, #[], usageLine ++
          s!"run-brainfuck: error: Tape size must be at least 1, got {n}\n", source⟩) ∧
        (1 ≤ n → text = none →
          called = some ⟨.aborted .noText, #[], o.loadingTrace, source⟩) ∧
        ∀ code, 1 ≤ n → text = some code →
          let policy := if o.wrap then PointerPolicy.wrap else .bounded
          let came := executeSized room fuel (Program.load code) n policy source .unlimited
          Tells (runTrace o.debug) source came called ∧
          ((∃ r, called = some r ∧ r.status = .exit 0) ↔
            ∃ x written, came = .ok (some x) ∧ x.outcome = .completed written) ∧
          ((∃ r, called = some r ∧ r.status = .exit 1) ↔
            ∃ x f, came = .ok (some x) ∧ x.outcome = .failed f) := by
  intro called
  have planned : called = (o.plan files).report room fuel source :=
    call_of_parse room fuel files source parsed
  refine ⟨?_, ?_, ?_, ?_⟩
  · intro given files' args' file parsed'
    rw [planned, call_of_parse room fuel files' source parsed',
      Options.plan_of_given given files files' file]
  · intro not_given unnamed
    rw [planned, Options.plan_of_nothing not_given unnamed]
    rfl
  · intro name e not_given named unreadable
    rw [planned, Options.plan_of_unreadable not_given named unreadable]
    rfl
  · intro text finds
    constructor
    · intro typeName asked
      rw [planned, Options.plan_of_not_integer finds asked]
      rfl
    · intro n asked
      refine ⟨?_, ?_, ?_⟩
      · intro small
        rw [planned, Options.plan_of_small finds asked small]
        rfl
      · intro positive no_text
        subst no_text
        obtain ⟨size, -, plan_eq⟩ := Options.exists_plan_of_pos finds asked positive
        rw [planned, plan_eq]
        rfl
      · intro code positive found policy came
        subst found
        have tells : Tells (runTrace o.debug) source came called := by
          rw [planned]
          exact Options.tells_plan finds asked positive
        exact ⟨tells, tells.exit_zero_iff, tells.exit_one_iff⟩

/-- A program that goes beyond its two cells, and the same one on a tape without cells. -/
theorem calls_tell_the_run_too_far :
    let files : Files := fun _ => .ok #[]
    let source := Source.ofBytes #[]
    (∃ r, call 2 4 files ["-d", "-s", "2", "-c", "+.>>"] source = some r ∧ r.status = .exit 1) ∧
      call 2 4 files ["-s", "0", "-c", "+.>>", "file"] source = some ⟨.exit 2, #[], usageLine ++
        "run-brainfuck: error: Tape size must be at least 1, got 0\n", source⟩ := by
  intro files source
  have parsed : Options.parse (["-d", "-s", "2", "-c", "+.>>"].map String.toList) =
      .ok { code := .text ['+', '.', '>', '>'], tapeSize := .integer 2, debug := true } := rfl
  have parsed_zero : Options.parse (["-s", "0", "-c", "+.>>", "file"].map String.toList) =
      .ok { file := some ['f', 'i', 'l', 'e'], code := .text ['+', '.', '>', '>'],
            tapeSize := .integer 0 } := rfl
  obtain ⟨-, -, -, told⟩ := calls_tell_the_run 2 4 files source parsed
  obtain ⟨-, -, -, told_zero⟩ := calls_tell_the_run 2 4 files source parsed_zero
  constructor
  · obtain ⟨-, -, exit_one⟩ := ((told _ (.onCommandLine rfl)).2 2 rfl).2.2 _ (by decide) rfl
    have ended : ∃ x, execute 4 (Program.load "+.>>") 2 .bounded source .unlimited = some x ∧
        x.outcome = .failed (.outOfTape 2 2 3) := ⟨_, rfl, rfl⟩
    obtain ⟨x, executed, failed⟩ := ended
    refine exit_one.2 ⟨x, _, ?_, failed⟩
    rw [← executed]
    exact executeSized_natCast (by decide) (Nat.le_refl 2) 4 (Program.load "+.>>") .bounded source
      .unlimited
  · exact ((told_zero _ (.onCommandLine rfl)).2 0 rfl).1 (by decide)

end CommandLine

end ByteTape

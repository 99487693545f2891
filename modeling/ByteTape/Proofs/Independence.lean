import ByteTape.Proofs.Stepping
import ByteTape.Proofs.Running
import ByteTape.Session

set_option autoImplicit false

namespace ByteTape

section Execute

variable {program : Program} {cells fuel : Nat} {policy : PointerPolicy} {source : Source}
  {sink : Sink} {x : Execution}

/-- The devices answer as the given ones, however much they have been used. -/
structure Config.Using (source : Source) (sink : Sink) (c : Config) : Prop where
  readings_eq : c.source.readings = source.readings
  refusal_eq : c.sink.refusal = sink.refusal

theorem Config.Using.of_step {c next : Config} {e : Option StepError}
    (uses : c.Using source sink) (step : c.step = (next, e)) : next.Using source sink := by
  have steps := StepsTo.of_step c.machine c.source c.sink
  rw [step] at steps
  have devices := steps.devices_eq
  exact ⟨devices.1.trans uses.readings_eq, devices.2.trans uses.refusal_eq⟩

theorem using_of_execute (executed : execute fuel program cells policy source sink = some x) :
    x.final.Using source sink := by
  cases resolved : program.jumps with
  | error e =>
    rw [execute_of_unbalanced cells policy source sink resolved, Option.some.injEq] at executed
    subst executed
    exact ⟨rfl, rfl⟩
  | ok table =>
    obtain ⟨e, ⟨spent, ended⟩, -⟩ := (exists_execute_iff_ends cells policy source sink resolved).1
      ⟨fuel, executed⟩
    have start : Config.Using source sink ⟨.fresh program cells policy, source, sink⟩ := ⟨rfl, rfl⟩
    have kept (c next : Config) (uses : c.Using source sink) (_ : c.machine.done = false)
        (step : c.step = (next, none)) : next.Using source sink := uses.of_step step
    rcases Config.run_keeps kept start ended with ⟨-, uses, -⟩ | ⟨last, f, -, uses, -, step⟩
    · exact uses
    · exact uses.of_step step

end Execute

/-- The tape size that is accepted from whoever performs the operation. -/
def Operation.acceptedSize? : Operation → Option Int
  | setTapeSize (.integer n) => if 1 ≤ n then some n else none
  | _ => none

def Operation.policy? : Operation → Option PointerPolicy
  | setPolicy policy => some policy
  | _ => none

def Operation.source? : Operation → Option Source
  | setSource source => some source
  | _ => none

def Operation.Runs : Operation → Prop
  | run _ | interpret _ => True
  | _ => False

/-- The text that a run leaves to be shown: its own if it has completed. -/
def Reply.shown? : Reply → Option String
  | ran (.ok x) =>
    match x.outcome with
    | .completed text => some text
    | .failed _ | .escaped _ => some ""
  | ran (.error _) => some ""
  | interpreted (.ok text) => some text
  | interpreted (.error _) => some ""
  | sizeRefused _ | done => none

/-- The answer gives the text of a completed run, or else what kept the run from completing. -/
structure Interprets (result : Except TapeError Execution) (answer : Except RunError String) :
    Prop where
  text_iff : ∀ text, answer = .ok text ↔ ∃ x, result = .ok x ∧ x.outcome = .completed text
  fault_iff : ∀ f, answer = .error (.step (.fault f)) ↔ ∃ x, result = .ok x ∧ x.outcome = .failed f
  escape_iff : ∀ e, answer = .error (.step (.escape e)) ↔
    ∃ x, result = .ok x ∧ x.outcome = .escaped e
  tape_iff : ∀ e, answer = .error (.tape e) ↔ result = .error e

theorem Interprets.shown_eq {result : Except TapeError Execution}
    {answer : Except RunError String} (interprets : Interprets result answer) :
    (Reply.interpreted answer).shown? = (Reply.ran result).shown? := by
  rcases result with e | ⟨t | f | e, final⟩
  · rw [(interprets.tape_iff e).2 rfl]
    rfl
  · rw [(interprets.text_iff t).2 ⟨_, rfl, rfl⟩]
    rfl
  · rw [(interprets.fault_iff f).2 ⟨_, rfl, rfl⟩]
    rfl
  · rw [(interprets.escape_iff e).2 ⟨_, rfl, rfl⟩]
    rfl

namespace Session

variable {room fuel : Nat} {s next now : Session} {op : Operation} {reply : Reply}
  {ops : List Operation} {replies : List Reply}

theorem exists_trace_eq (s : Session) (message : String) :
    ∃ lines, s.trace message = { s with traced := lines } := by
  unfold trace
  by_cases debug : s.debug = true
  · exact ⟨_, if_pos debug⟩
  · exact ⟨s.traced, if_neg debug⟩

theorem exists_announce_eq (s : Session) : ∃ lines, s.announce = { s with traced := lines } := by
  obtain ⟨lines, loading⟩ := s.exists_trace_eq loadingLine
  unfold announce
  rw [loading]
  exact exists_trace_eq _ executingLine

/-- What the text comes to outside of the session, with the same settings and devices. -/
def standalone (room fuel : Nat) (s : Session) (text : String) :
    Except TapeError (Option Execution) :=
  executeSized room fuel (Program.load text) s.tapeSize.cells s.policy s.source s.sink

/-- The trace of a run is nothing that the run depends on. -/
theorem run_eq (room fuel : Nat) (s : Session) (text : String) :
    s.run room fuel text = s.announce.conclude (s.standalone room fuel text) := by
  obtain ⟨lines, announced⟩ := s.exists_announce_eq
  -- The run is made after the session has announced it, with the settings of before.
  have settled : s.announce.standalone room fuel text = s.standalone room fuel text := by
    rw [announced]
    rfl
  rw [← settled]
  rfl

/-- A run that came to a result leaves the settings alone, the devices as it used them, and only its
own text. -/
structure RanTo (s : Session) (result : Except TapeError Execution) (next : Session) : Prop where
  tapeSize_eq : next.tapeSize = s.tapeSize
  policy_eq : next.policy = s.policy
  devices_of_ok : ∀ x, result = .ok x → next.source = x.final.source ∧ next.sink = x.final.sink
  devices_of_error : ∀ e, result = .error e → next.source = s.source ∧ next.sink = s.sink
  output_eq : (Reply.ran result).shown? = some next.output

theorem ranTo_of_conclude {came : Except TapeError (Option Execution)}
    {result : Except TapeError Execution}
    (concluded : s.conclude came = some (result, next)) :
    came = result.map some ∧ s.RanTo result next ∧ next.traced = s.traced := by
  rcases came with e | (- | x)
  · cases concluded
    exact ⟨rfl, ⟨rfl, rfl, nofun, fun _ _ => ⟨rfl, rfl⟩, rfl⟩, rfl⟩
  · cases concluded
  · cases concluded
    refine ⟨rfl, ⟨rfl, rfl, ?_, nofun, ?_⟩, rfl⟩
    · intro y same
      cases same
      exact ⟨rfl, rfl⟩
    · rcases x with ⟨outcome, final⟩
      cases outcome <;> rfl

/-- A run in the session comes to what the text comes to outside of it. -/
theorem standalone_of_run {text : String} {result : Except TapeError Execution}
    (ran : s.run room fuel text = some (result, next)) :
    s.standalone room fuel text = result.map some ∧ s.RanTo result next := by
  obtain ⟨lines, announced⟩ := s.exists_announce_eq
  rw [run_eq, announced] at ran
  obtain ⟨came, ranTo, -⟩ := ranTo_of_conclude ran
  exact ⟨came, ranTo.tapeSize_eq, ranTo.policy_eq, ranTo.devices_of_ok, ranTo.devices_of_error,
    ranTo.output_eq⟩

theorem traced_of_run {text : String} {result : Except TapeError Execution}
    (ran : s.run room fuel text = some (result, next)) : next.traced = s.announce.traced := by
  rw [run_eq] at ran
  exact (ranTo_of_conclude ran).2.2

theorem run_eq_none_iff {text : String} :
    s.run room fuel text = none ↔ s.standalone room fuel text = .ok none := by
  rw [run_eq]
  rcases s.standalone room fuel text with e | (- | x)
  · simp [conclude]
  · simp [conclude]
  · simp [conclude]

theorem devices_of_run {text : String} {result : Except TapeError Execution}
    (ran : s.run room fuel text = some (result, next)) :
    next.source.readings = s.source.readings ∧ next.sink.refusal = s.sink.refusal := by
  obtain ⟨alone, ranTo⟩ := standalone_of_run ran
  cases result with
  | error e =>
    obtain ⟨source_eq, sink_eq⟩ := ranTo.devices_of_error e rfl
    rw [source_eq, sink_eq]
    exact ⟨rfl, rfl⟩
  | ok x =>
    obtain ⟨source_eq, sink_eq⟩ := ranTo.devices_of_ok x rfl
    have uses := using_of_execute (execute_of_executeSized alone)
    rw [source_eq, sink_eq]
    exact ⟨uses.readings_eq, uses.refusal_eq⟩

theorem interpret_of_run {text : String} {result : Except TapeError Execution}
    (ran : s.run room fuel text = some (result, next)) :
    ∃ answer, s.interpret room fuel text = some (answer, next) ∧ Interprets result answer := by
  unfold interpret
  rw [ran]
  rcases result with e | ⟨t | f | e, final⟩
  · exact ⟨.error (.tape e), rfl, by simp, by simp, by simp, by simp⟩
  · exact ⟨.ok t, rfl, by simp [eq_comm], by simp, by simp, by simp⟩
  · exact ⟨.error (.step (.fault f)), rfl, by simp, by simp [eq_comm], by simp, by simp⟩
  · exact ⟨.error (.step (.escape e)), rfl, by simp, by simp, by simp [eq_comm], by simp⟩

theorem exists_run_of_interpret {text : String} {answer : Except RunError String}
    (interpreted : s.interpret room fuel text = some (answer, next)) :
    ∃ result, s.run room fuel text = some (result, next) ∧ Interprets result answer := by
  cases ran : s.run room fuel text with
  | none =>
    rw [interpret, ran] at interpreted
    cases interpreted
  | some pair =>
    obtain ⟨result, after⟩ := pair
    obtain ⟨answer', interpreted', interprets⟩ := interpret_of_run ran
    rw [interpreted] at interpreted'
    cases interpreted'
    exact ⟨result, rfl, interprets⟩

/-- What one operation changes: the setting that it gives a value to, and the text to be shown. Only
runs use the devices. -/
structure ChangedBy (s : Session) (op : Operation) (reply : Reply) (next : Session) : Prop where
  tapeSize_eq : (next.tapeSize.cells : Int) = op.acceptedSize?.getD s.tapeSize.cells
  policy_eq : next.policy = op.policy?.getD s.policy
  readings_eq :
    next.source.readings = (op.source?.map Source.readings).getD s.source.readings
  refusal_eq : next.sink.refusal = s.sink.refusal
  output_eq : next.output = reply.shown?.getD s.output
  devices_of_not_runs : ¬op.Runs → next.source = op.source?.getD s.source ∧ next.sink = s.sink

theorem setTapeSize_of_pos (s : Session) {n : Int} (positive : 1 ≤ n) :
    ∃ size : TapeSize, size.cells = n ∧
      s.setTapeSize (.integer n) = .ok { s with tapeSize := size } := by
  obtain ⟨size, cells_eq, accepted⟩ := TapeSize.exists_ofValue_of_pos positive
  exact ⟨size, cells_eq, by rw [setTapeSize, accepted]; rfl⟩

theorem setTapeSize_of_refused {value : SizeValue} {e : SizeError}
    (refused : TapeSize.ofValue value = .error e) : s.setTapeSize value = .error e := by
  rw [setTapeSize, refused]
  rfl

theorem setTapeSize_cases (s : Session) (value : SizeValue) :
    (∃ size : TapeSize, (Operation.setTapeSize value).acceptedSize? = some (size.cells : Int) ∧
      s.setTapeSize value = .ok { s with tapeSize := size }) ∨
    ∃ e, (Operation.setTapeSize value).acceptedSize? = none ∧ s.setTapeSize value = .error e := by
  cases value with
  | integer n =>
    by_cases positive : 1 ≤ n
    · obtain ⟨size, cells_eq, set⟩ := s.setTapeSize_of_pos positive
      exact Or.inl ⟨size, by rw [cells_eq]; exact if_pos positive, set⟩
    · have refused := TapeSize.ofValue_of_not_pos (show n < 1 by omega)
      exact Or.inr ⟨_, if_neg positive, setTapeSize_of_refused refused⟩
  | other typeName => exact Or.inr ⟨_, rfl, rfl⟩

/-- A run, whether its result is asked for or its text, changes nothing but the text to be shown. -/
theorem changedBy_of_run {text : String} {result : Except TapeError Execution}
    (ran : s.run room fuel text = some (result, next)) (runs : op.Runs)
    (shown : reply.shown? = (Reply.ran result).shown?) : s.ChangedBy op reply next := by
  obtain ⟨-, ranTo⟩ := standalone_of_run ran
  obtain ⟨readings_eq, refusal_eq⟩ := devices_of_run ran
  obtain ⟨no_size, no_policy, no_source⟩ :
      op.acceptedSize? = none ∧ op.policy? = none ∧ op.source? = none := by
    cases op with
    | run text => exact ⟨rfl, rfl, rfl⟩
    | interpret text => exact ⟨rfl, rfl, rfl⟩
    | _ => cases runs
  exact {
    tapeSize_eq := by rw [no_size, ranTo.tapeSize_eq]; rfl
    policy_eq := by rw [no_policy, ranTo.policy_eq]; rfl
    readings_eq := by rw [no_source, readings_eq]; rfl
    refusal_eq := refusal_eq
    output_eq := by rw [shown, ranTo.output_eq]; rfl
    devices_of_not_runs := fun idle => absurd runs idle }

theorem changedBy_of_perform (performed : s.perform room fuel op = some (reply, next)) :
    s.ChangedBy op reply next := by
  cases op with
  | run text =>
    rw [perform, Option.map_eq_some_iff] at performed
    obtain ⟨⟨result, after⟩, ran, same⟩ := performed
    cases same
    exact changedBy_of_run ran trivial rfl
  | interpret text =>
    rw [perform, Option.map_eq_some_iff] at performed
    obtain ⟨⟨answer, after⟩, interpreted, same⟩ := performed
    cases same
    obtain ⟨result, ran, interprets⟩ := exists_run_of_interpret interpreted
    exact changedBy_of_run ran trivial interprets.shown_eq
  | setTapeSize value =>
    rcases s.setTapeSize_cases value with ⟨size, told, set⟩ | ⟨e, told, set⟩
    · rw [perform, set] at performed
      cases performed
      exact ⟨by rw [told]; rfl, rfl, rfl, rfl, rfl, fun _ => ⟨rfl, rfl⟩⟩
    · rw [perform, set] at performed
      cases performed
      exact ⟨by rw [told]; rfl, rfl, rfl, rfl, rfl, fun _ => ⟨rfl, rfl⟩⟩
  | setPolicy policy =>
    cases performed
    exact ⟨rfl, rfl, rfl, rfl, rfl, fun _ => ⟨rfl, rfl⟩⟩
  | setDebug debug =>
    cases performed
    exact ⟨rfl, rfl, rfl, rfl, rfl, fun _ => ⟨rfl, rfl⟩⟩
  | setSource source =>
    cases performed
    exact ⟨rfl, rfl, rfl, rfl, rfl, fun _ => ⟨rfl, rfl⟩⟩
  | trace message =>
    obtain ⟨lines, traced⟩ := s.exists_trace_eq message
    rw [perform, traced] at performed
    cases performed
    exact ⟨rfl, rfl, rfl, rfl, rfl, fun _ => ⟨rfl, rfl⟩⟩

/-- A run in a session, and the same run for its text, are over together and leave the same. -/
theorem alone_cases (room fuel : Nat) (s : Session) (text : String) :
    (s.standalone room fuel text = .ok none ∧ s.run room fuel text = none ∧
      s.interpret room fuel text = none) ∨
    ∃ result answer next, s.standalone room fuel text = result.map some ∧
      s.run room fuel text = some (result, next) ∧
      s.interpret room fuel text = some (answer, next) ∧
      Interprets result answer ∧ s.RanTo result next := by
  cases ran : s.run room fuel text with
  | none => exact Or.inl ⟨run_eq_none_iff.1 ran, rfl, by rw [interpret, ran]; rfl⟩
  | some pair =>
    obtain ⟨result, next⟩ := pair
    obtain ⟨alone, ranTo⟩ := standalone_of_run ran
    obtain ⟨answer, interpreted, interprets⟩ := interpret_of_run ran
    exact Or.inr ⟨result, answer, next, alone, rfl, interpreted, interprets, ranTo⟩

theorem performAll_cons_eq_some_iff {rest : List Operation} {last : Session} :
    s.performAll room fuel (op :: rest) = some (replies, last) ↔
      ∃ reply next more, s.perform room fuel op = some (reply, next) ∧
        next.performAll room fuel rest = some (more, last) ∧ replies = reply :: more := by
  simp only [performAll, Option.bind_eq_bind, Option.bind_eq_some_iff, Option.pure_def,
    Option.some.injEq, Prod.exists, Prod.mk.injEq]
  constructor
  · rintro ⟨reply, next, performed, more, last', performed', rfl, rfl⟩
    exact ⟨reply, next, more, performed, performed', rfl⟩
  · rintro ⟨reply, next, more, performed, performed', rfl⟩
    exact ⟨reply, next, performed, more, last, performed', rfl, rfl⟩

theorem performAll_append (performed : s.performAll room fuel ops = some (replies, now))
    (more : List Operation) :
    s.performAll room fuel (ops ++ more) =
      (now.performAll room fuel more).map fun (others, last) => (replies ++ others, last) := by
  induction ops generalizing s replies with
  | nil =>
    cases performed
    simp
  | cons op rest ih =>
    obtain ⟨reply, next, others, first, others_performed, rfl⟩ :=
      performAll_cons_eq_some_iff.1 performed
    cases continued : now.performAll room fuel more with
    | none => simp [performAll, first, ih others_performed, continued]
    | some last => simp [performAll, first, ih others_performed, continued]

theorem length_replies (performed : s.performAll room fuel ops = some (replies, now)) :
    replies.length = ops.length := by
  induction ops generalizing s replies with
  | nil =>
    cases performed
    rfl
  | cons op rest ih =>
    obtain ⟨reply, next, others, -, others_performed, rfl⟩ :=
      performAll_cons_eq_some_iff.1 performed
    rw [List.length_cons, List.length_cons, ih others_performed]

/-- What each operation either gives a value to or leaves as it is has the value in the end that the
last of those operations gave to it. -/
theorem last_of_performAll {α : Type} (view : Session → α) (told : Operation × Reply → Option α)
    (step : ∀ s next op reply, s.perform room fuel op = some (reply, next) →
      view next = (told (op, reply)).getD (view s))
    (performed : s.performAll room fuel ops = some (replies, now)) :
    view now = ((ops.zip replies).filterMap told).getLast?.getD (view s) := by
  induction ops generalizing s replies with
  | nil =>
    cases performed
    rfl
  | cons op rest ih =>
    obtain ⟨reply, next, others, first, others_performed, rfl⟩ :=
      performAll_cons_eq_some_iff.1 performed
    -- The first operation counts only if none of the others has told a value.
    rw [ih others_performed, step s next op reply first, List.zip_cons_cons,
      List.filterMap_cons]
    cases told (op, reply) with
    | none => rfl
    | some value => simp [List.getLast?_cons]

theorem last_of_operations {α : Type} (view : Session → α) (told : Operation → Option α)
    (step : ∀ s next op reply, s.perform room fuel op = some (reply, next) →
      view next = (told op).getD (view s))
    (performed : s.performAll room fuel ops = some (replies, now)) :
    view now = (ops.filterMap told).getLast?.getD (view s) := by
  have zipped := last_of_performAll view (told ∘ Prod.fst) step performed
  have enough : ops.length ≤ replies.length := by simp [length_replies performed]
  rw [← List.filterMap_map, List.map_fst_zip enough] at zipped
  exact zipped

theorem last_of_replies {α : Type} (view : Session → α) (told : Reply → Option α)
    (step : ∀ s next op reply, s.perform room fuel op = some (reply, next) →
      view next = (told reply).getD (view s))
    (performed : s.performAll room fuel ops = some (replies, now)) :
    view now = (replies.filterMap told).getLast?.getD (view s) := by
  have zipped := last_of_performAll view (told ∘ Prod.snd) step performed
  have enough : replies.length ≤ ops.length := by simp [length_replies performed]
  rw [← List.filterMap_map, List.map_snd_zip enough] at zipped
  exact zipped

end Session

/-- Runs in a session have nothing to do with each other, however many operations there are and
however the runs end. The settings are what they were set to last, and a size that is refused leaves
all as it is. Each run comes to what its text comes to outside of the session, with the settings and
devices that there are at the time, and leaves the devices as that does; asked for its text, the
same run gives it, or raises what it failed by. The text to be shown is that of the last run, and no
text if that run did not complete. -/
theorem runs_are_independent {room fuel : Nat} {s now : Session} {ops : List Operation}
    {replies : List Reply} (performed : s.performAll room fuel ops = some (replies, now)) :
    (∀ more, s.performAll room fuel (ops ++ more) =
      (now.performAll room fuel more).map fun (others, last) => (replies ++ others, last)) ∧
    ((now.tapeSize.cells : Int) =
        (ops.filterMap Operation.acceptedSize?).getLast?.getD s.tapeSize.cells ∧
      1 ≤ now.tapeSize.cells ∧
      (∀ n : Int, 1 ≤ n → ∃ size : TapeSize, size.cells = n ∧
        now.perform room fuel (.setTapeSize (.integer n)) =
          some (.done, { now with tapeSize := size })) ∧
      (∀ n : Int, n < 1 → now.perform room fuel (.setTapeSize (.integer n)) =
        some (.sizeRefused (.tooSmall n), now)) ∧
      ∀ typeName, now.perform room fuel (.setTapeSize (.other typeName)) =
        some (.sizeRefused (.notAnInteger typeName), now)) ∧
    (now.policy = (ops.filterMap Operation.policy?).getLast?.getD s.policy ∧
      now.source.readings = (ops.filterMap fun op =>
        op.source?.map Source.readings).getLast?.getD s.source.readings ∧
      now.sink.refusal = s.sink.refusal ∧
      ∀ op reply next, ¬op.Runs → now.perform room fuel op = some (reply, next) →
        next.source = op.source?.getD now.source ∧ next.sink = now.sink) ∧
    (∀ text,
      let alone := executeSized room fuel (Program.load text) now.tapeSize.cells now.policy
        now.source now.sink
      (alone = .ok none ∧ now.perform room fuel (.run text) = none ∧
        now.perform room fuel (.interpret text) = none) ∨
      ∃ result answer next, alone = result.map some ∧
        now.perform room fuel (.run text) = some (.ran result, next) ∧
        now.perform room fuel (.interpret text) = some (.interpreted answer, next) ∧
        Interprets result answer ∧ now.RanTo result next) ∧
    now.output = (replies.filterMap Reply.shown?).getLast?.getD s.output := by
  refine ⟨Session.performAll_append performed, ⟨?_, now.tapeSize.pos, ?_, ?_, ?_⟩,
    ⟨?_, ?_, ?_, ?_⟩, ?_, ?_⟩
  · exact Session.last_of_operations (fun s => (s.tapeSize.cells : Int)) _
      (fun s next op reply step => (Session.changedBy_of_perform step).tapeSize_eq) performed
  · intro n positive
    obtain ⟨size, cells_eq, set⟩ := now.setTapeSize_of_pos positive
    exact ⟨size, cells_eq, by rw [Session.perform, set]⟩
  · intro n small
    rw [Session.perform, Session.setTapeSize_of_refused (TapeSize.ofValue_of_not_pos small)]
  · intro typeName
    rfl
  · exact Session.last_of_operations (fun s => s.policy) _
      (fun s next op reply step => (Session.changedBy_of_perform step).policy_eq) performed
  · exact Session.last_of_operations (fun s => s.source.readings)
      (fun op => op.source?.map Source.readings)
      (fun s next op reply step => (Session.changedBy_of_perform step).readings_eq) performed
  · have kept := Session.last_of_operations (fun s => s.sink.refusal) (fun _ => none)
      (fun s next op reply step => (Session.changedBy_of_perform step).refusal_eq) performed
    rw [List.filterMap_eq_nil_iff.2 fun _ _ => rfl] at kept
    exact kept
  · intro op reply next idle step
    exact (Session.changedBy_of_perform step).devices_of_not_runs idle
  · intro text alone
    rcases now.alone_cases room fuel text with
      ⟨endless, ran, interpreted⟩ | ⟨result, answer, next, came, ran, interpreted, rules⟩
    · exact Or.inl ⟨endless, by rw [Session.perform, ran]; rfl,
        by rw [Session.perform, interpreted]; rfl⟩
    · exact Or.inr ⟨result, answer, next, came, by rw [Session.perform, ran]; rfl,
        by rw [Session.perform, interpreted]; rfl, rules⟩
  · exact Session.last_of_replies (fun s => s.output) _
      (fun s next op reply step => (Session.changedBy_of_perform step).output_eq) performed

theorem runs_are_independent_after_failure :
    let s : Session :=
      { tapeSize := ⟨2, by decide⟩, source := .ofBytes #[], sink := .unlimited, output := "A" }
    ∃ replies now,
      s.performAll 2 2 [.run ">>", .setTapeSize (.other "bool"), .setPolicy .wrap] =
          some (replies, now) ∧
        now.tapeSize.cells = 2 ∧ now.policy = .wrap ∧ now.output = "" := by
  intro s
  have ended : ∃ x, execute 2 (Program.load ">>") 2 .bounded s.source s.sink = some x ∧
      x.outcome = .failed (.outOfTape 2 2 1) := ⟨_, rfl, rfl⟩
  obtain ⟨x, executed, failed⟩ := ended
  have alone : s.standalone 2 2 ">>" = .ok (some x) := by
    rw [← executed]
    exact executeSized_natCast (by decide) (Nat.le_refl 2) 2 (Program.load ">>") .bounded s.source
      s.sink
  have ran : s.run 2 2 ">>" = some (.ok x, s.announce.finish x) := by
    rw [Session.run_eq, alone]
    rfl
  have performed : s.performAll 2 2 [.run ">>", .setTapeSize (.other "bool"), .setPolicy .wrap] =
      some ([.ran (.ok x), .sizeRefused (.notAnInteger "bool"), .done],
        { s.announce.finish x with policy := .wrap }) := by
    simp only [Session.performAll, Session.perform, ran]
    rfl
  obtain ⟨-, ⟨size_eq, -⟩, ⟨policy_eq, -⟩, -, output_eq⟩ := runs_are_independent performed
  refine ⟨_, _, performed, Int.ofNat_inj.1 size_eq, policy_eq, ?_⟩
  have told : (Reply.ran (.ok x)).shown? = some "" := by simp [Reply.shown?, failed]
  rw [output_eq, List.filterMap_cons_some told]
  rfl

end ByteTape

import ByteTape.Live
import ByteTape.Proofs.Emission
import ByteTape.Proofs.Reporting

set_option autoImplicit false

namespace ByteTape

namespace Config

variable {c d : Config} {e : Option StepError} {n : Nat}

theorem source_step_eq (c : Config) :
    c.step.1.source = if c.machine.reads then c.source.read.2 else c.source := by
  by_cases reading : c.machine.instruction? = some .read
  · rw [source_step_of_reads reading]
    simp [Machine.reads, reading]
  · rw [source_step reading]
    simp [Machine.reads, reading]

/-- A step whose sink takes everything is the step that the machine makes when it is given the
answer of its source, and its sink takes what that step writes. -/
theorem step_answered (takes : c.sink.TakesAll) :
    let alone := (c.machine.answered (c.source.unread 0)).step
    c.step.1.machine = alone.1.machine ∧ c.step.2 = alone.2 ∧
      c.step.1.sink.received = c.sink.received ++ alone.1.sink.received ∧
      c.step.1.sink.TakesAll := by
  rcases c with ⟨m, source, sink⟩
  intro alone
  by_cases writing : m.instruction? = some .write
  · cases cell : m.cell? with
    | none =>
      have alone_eq : alone = _ := step_of_writes_nowhere writing cell
      rw [alone_eq, step_of_writes_nowhere writing cell]
      exact ⟨rfl, rfl, Array.append_empty.symm, takes⟩
    | some value =>
      have accepted := takes.accepts value
      have accepted' := Sink.takesAll_unlimited.accepts value
      have alone_eq : alone = _ := step_of_writes writing cell accepted'
      rw [alone_eq, step_of_writes writing cell accepted]
      refine ⟨rfl, rfl, ?_, takes.write value⟩
      rw [Sink.received_write_of_accepted accepted]
      exact Array.append_singleton.symm
  · have idle := (step_of_not_writes (c := m.answered (source.unread 0)) writing).1
    -- the devices can be exchanged, as the step does not write and reads one answer at most
    have drained := step_drainTo (c := (m.answered (source.unread 0)).connect source) writing sink
    obtain ⟨after, step⟩ : ∃ after, Config.step ⟨m, source, sink⟩ =
        ((alone.1.connect after).drainTo sink, alone.2) := by
      by_cases reading : m.instruction? = some .read
      · rw [step_connect_of_reads (c := m.answered (source.unread 0)) reading (s := source) rfl]
          at drained
        exact ⟨_, drained⟩
      · rw [step_connect (c := m.answered (source.unread 0)) reading source] at drained
        exact ⟨_, drained⟩
    rw [step]
    refine ⟨rfl, rfl, ?_, takes⟩
    show sink.received = sink.received ++ alone.1.sink.received
    rw [idle]
    exact Array.append_empty.symm

def standing : Config × Option StepError → Standing
  | (c, none) => .running c.machine
  | (_, some e) => .over (.error e)

theorem turn_of_undone {m : Machine} (undone : m.done = false) (reading : Reading) :
    m.turn reading =
      (standing (m.answered reading).step, (m.answered reading).step.1.sink.received) := by
  simp only [Machine.turn, undone, Bool.false_eq_true, ↓reduceIte]
  rcases (m.answered reading).step with ⟨next, - | e⟩ <;> rfl

/-- A turn makes a step and writes what the sink then has more. -/
theorem exists_turn (undone : c.machine.done = false) (takes : c.sink.TakesAll) : ∃ bytes,
    c.machine.turn (c.source.unread 0) = (standing c.step, bytes) ∧
      c.step.1.sink.received = c.sink.received ++ bytes := by
  obtain ⟨machine, error, received, -⟩ := step_answered takes
  refine ⟨_, ?_, received⟩
  rw [turn_of_undone undone]
  rcases step : c.step with ⟨next, e⟩
  rcases alone : (c.machine.answered (c.source.unread 0)).step with ⟨next', e'⟩
  rw [step, alone] at machine error
  subst error
  cases e with
  | none =>
    have same : next.machine = next'.machine := machine
    simp only [standing, same]
  | some e => rfl

/-- What the turns of a run come to that ends in `d`, by the error `e` if there is one. -/
def comesTo (d : Config) (e : Option StepError) :
    Except StepError String × Source × Array UInt8 :=
  ((Outcome.ofStop d.machine.output e).text, d.source, d.sink.received)

theorem turns_of_done (done : c.machine.done = true) (n : Nat) :
    c.machine.turns (n + 1) c.source c.sink.received = some (c.comesTo none) := by
  have ended : c.machine.program.fetch? c.machine.ip = none :=
    Array.getElem?_eq_none (of_decide_eq_true done)
  have reads : c.machine.reads = false := by simp [Machine.reads, Machine.instruction?, ended]
  simp only [Machine.turns, Machine.turn, done, reads, ↓reduceIte, Array.append_empty]
  rfl

theorem turns_of_step {next : Config} (undone : c.machine.done = false) (takes : c.sink.TakesAll)
    (step : c.step = (next, none)) (n : Nat) :
    c.machine.turns (n + 1) c.source c.sink.received =
      next.machine.turns n next.source next.sink.received := by
  obtain ⟨bytes, turn, received⟩ := exists_turn undone takes
  have source := c.source_step_eq
  rw [step] at turn received source
  simp only [Machine.turns, turn, standing, ← received, ← source]

theorem turns_of_error {next : Config} {e : StepError} (undone : c.machine.done = false)
    (takes : c.sink.TakesAll) (step : c.step = (next, some e)) (n : Nat) :
    c.machine.turns (n + 1) c.source c.sink.received = some (next.comesTo (some e)) := by
  obtain ⟨bytes, turn, received⟩ := exists_turn undone takes
  have source := c.source_step_eq
  rw [step] at turn received source
  simp only [Machine.turns, turn, standing, ← received, ← source]
  cases e <;> rfl

theorem takesAll_of_step {next : Config} (takes : c.sink.TakesAll) (step : c.step = (next, e)) :
    next.sink.TakesAll := by
  have kept := (step_answered takes).2.2.2
  rwa [step] at kept

theorem turns_of_run (takes : c.sink.TakesAll) (ended : c.run n = some (d, e)) :
    c.machine.turns (n + 1) c.source c.sink.received = some (d.comesTo e) := by
  induction n generalizing c with
  | zero =>
    cases done : c.machine.done with
    | false => simp [run_zero_of_not_done done] at ended
    | true =>
      rw [run_of_done done] at ended
      cases ended
      exact turns_of_done done 0
  | succ n ih =>
    cases done : c.machine.done with
    | true =>
      rw [run_of_done done] at ended
      cases ended
      exact turns_of_done done (n + 1)
    | false =>
      rcases step : c.step with ⟨next, - | f⟩
      · rw [run_succ_of_step done step] at ended
        rw [turns_of_step done takes step]
        exact ih (takesAll_of_step takes step) ended
      · rw [run_succ_of_error done step] at ended
        cases ended
        exact turns_of_error done takes step (n + 1)

theorem exists_run_of_turns {r : Except StepError String × Source × Array UInt8}
    (takes : c.sink.TakesAll) (turned : c.machine.turns n c.source c.sink.received = some r) :
    ∃ d e, c.run n = some (d, e) ∧ d.comesTo e = r := by
  induction n generalizing c with
  | zero => cases turned
  | succ n ih =>
    cases done : c.machine.done with
    | true =>
      rw [turns_of_done done] at turned
      exact ⟨c, none, run_of_done done (n + 1), Option.some.inj turned⟩
    | false =>
      rcases step : c.step with ⟨next, - | f⟩
      · rw [turns_of_step done takes step] at turned
        rw [run_succ_of_step done step]
        exact ih (takesAll_of_step takes step) turned
      · rw [turns_of_error done takes step] at turned
        exact ⟨next, some f, run_succ_of_error done step n, Option.some.inj turned⟩

end Config

namespace CommandLine

variable {room : Nat} {j : Job} {source : Source} {report : Report}

namespace Job

theorem announcement_eq (j : Job) (source : Source) :
    j.announcement = linesText (j.session source .unlimited).announce.traced :=
  (j.linesText_announce _).trans (j.linesText_announce source).symm

/-- The report on a job whose program has come to an execution. -/
def told (j : Job) (x : Execution) : Report :=
  .ofResult j.announcement x.final.sink.received x.final.source
    (x.outcome.text.mapError RunError.step)

theorem standalone_session (room fuel : Nat) (j : Job) (source : Source) :
    (j.session source .unlimited).standalone room fuel j.text =
      (Machine.ofSize room (Program.load j.text) j.tapeSize.cells j.policy).map
        fun m => Config.execute fuel ⟨m, source, .unlimited⟩ := rfl

theorem report_eq (room fuel : Nat) (j : Job) (source : Source) :
    (Plan.job j).report room fuel source =
      match (j.session source .unlimited).standalone room fuel j.text with
      | .error e => some (.ofResult j.announcement #[] source (.error (.tape e)))
      | .ok execution => execution.map j.told := by
  have announcement := j.announcement_eq source
  obtain ⟨lines, announced⟩ := (j.session source .unlimited).exists_announce_eq
  rw [announced] at announcement
  rw [Plan.report, Session.interpret, Session.run_eq, announced]
  rcases (j.session source .unlimited).standalone room fuel j.text with e | (- | x)
  · simp only [Session.conclude, Option.map_some, Report.ofRun, announcement]
    rfl
  · rfl
  · simp only [Session.conclude, Option.map_some, Report.ofRun, announcement, Session.finish, told]

def whole (fuel : Nat) (j : Job) (source : Source) : Except RunError Machine → Option Report
  | .error e => some (.ofResult j.announcement #[] source (.error e))
  | .ok m => (Config.run fuel ⟨m, source, .unlimited⟩).map fun (d, e) => j.told (.ofStop d e)

/-- A job is run on the machine that it is run on live. -/
theorem report_eq_whole (room fuel : Nat) (j : Job) (source : Source) :
    (Plan.job j).report room fuel source = j.whole fuel source (j.machine room) := by
  rw [report_eq, standalone_session, machine]
  generalize Machine.ofSize room (Program.load j.text) j.tapeSize.cells j.policy = made
  rcases made with e | m
  · rfl
  · show (Config.execute fuel ⟨m, source, .unlimited⟩).map j.told =
      j.whole fuel source ((m.program.jumps.mapError _).bind fun _ => .ok m)
    -- both look at the brackets of the same machine now
    unfold Config.execute
    rcases m.program.jumps with e | table
    · rfl
    · exact Option.map_map ..

end Job

/-- A job that is run turn by turn comes to the report on it, once there are turns enough, and to no
other. -/
theorem report_job_iff_live :
    (∃ fuel, (Plan.job j).report room fuel source = some report) ↔
      ∃ n, j.live room n source = some report := by
  simp only [Job.report_eq_whole, Job.live]
  rcases j.machine room with e | m
  · simp [Job.whole, Job.report]
  · have takes := Sink.takesAll_unlimited
    simp only [Job.whole, Job.report, Option.map_eq_some_iff]
    constructor
    · rintro ⟨fuel, ⟨d, e⟩, ended, rfl⟩
      refine ⟨fuel + 1, _, Config.turns_of_run takes ended, ?_⟩
      simp only [Config.comesTo, Job.told, Execution.outcome_ofStop, Execution.final_ofStop]
    · rintro ⟨n, r, turned, rfl⟩
      obtain ⟨d, e, ended, rfl⟩ :=
        Config.exists_run_of_turns (c := ⟨m, source, .unlimited⟩) takes turned
      refine ⟨n, ⟨d, e⟩, ended, ?_⟩
      simp only [Config.comesTo, Job.told, Execution.outcome_ofStop, Execution.final_ofStop]

end CommandLine

end ByteTape

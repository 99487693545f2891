import ByteTape.Proofs.Reachable
import ByteTape.Proofs.Simulation

set_option autoImplicit false

namespace ByteTape

namespace Sink

variable {s : Sink} {k : Nat}

/-- The sink refuses nothing. -/
def TakesAll (s : Sink) : Prop :=
  ∀ offered b, s.refusal offered b = none

/-- The sink takes the next `k` bytes, whatever they are, and fails at all further ones. -/
structure TakesOnly (s : Sink) (k : Nat) : Prop where
  takes : ∀ more b, more.size < k → s.refusal (s.offered ++ more) b = none
  fails : ∀ more b, k ≤ more.size →
    ∃ reason, s.refusal (s.offered ++ more) b = some (.failed reason)

theorem takesAll_unlimited : unlimited.TakesAll := fun _ _ => rfl

theorem takesOnly_limited (k : Nat) : (limited k).TakesOnly k where
  takes more b below := by simp [limited, below]
  fails more b beyond := ⟨"sink full", by simp [limited, Nat.not_lt.2 beyond]⟩

theorem TakesAll.accepts (takes : s.TakesAll) (b : UInt8) : (s.write b).2 = none := by
  rw [write_snd]
  exact takes _ _

theorem TakesAll.write (takes : s.TakesAll) (b : UInt8) : (s.write b).1.TakesAll := by
  intro offered b'
  rw [refusal_write]
  exact takes offered b'

theorem TakesOnly.accepts (only : s.TakesOnly (k + 1)) (b : UInt8) : (s.write b).2 = none := by
  have next := only.takes #[] b (Nat.succ_pos k)
  rwa [Array.append_empty, ← write_snd] at next

theorem TakesOnly.refuses (only : s.TakesOnly 0) (b : UInt8) :
    ∃ reason, (s.write b).2 = some (.failed reason) := by
  have next := only.fails #[] b (Nat.zero_le _)
  rwa [Array.append_empty, ← write_snd] at next

theorem TakesOnly.write (only : s.TakesOnly (k + 1)) (b : UInt8) : (s.write b).1.TakesOnly k := by
  have later (more : Array UInt8) (b' : UInt8) :
      (s.write b).1.refusal ((s.write b).1.offered ++ more) b' =
        s.refusal (s.offered ++ (#[b] ++ more)) b' := by
    rw [refusal_write, offered_write, ← Array.append_assoc, Array.append_singleton]
  constructor
  · intro more b' below
    rw [later]
    apply only.takes
    simp only [Array.size_append, List.size_toArray, List.length_cons, List.length_nil]
    omega
  · intro more b' beyond
    rw [later]
    apply only.fails
    simp only [Array.size_append, List.size_toArray, List.length_cons, List.length_nil]
    omega

end Sink

namespace StepsTo

variable {m : Machine} {source : Source} {sink : Sink} {c : Config} {e : Option StepError}

theorem output_eq (steps : StepsTo m source sink c e) :
    c.machine.output = m.output ∨ ∃ value, c.machine.output = m.output.push value := by
  cases steps with
  | writes writing cell accepted => exact Or.inr ⟨_, rfl⟩
  | _ => exact Or.inl rfl

theorem sink_eq (steps : StepsTo m source sink c e) (idle : m.instruction? ≠ some .write) :
    c.sink = sink ∧ c.machine.output = m.output := by
  cases steps with
  | writes writing | refused writing => exact absurd writing idle
  | _ => exact ⟨rfl, rfl⟩

theorem received_eq (steps : StepsTo m source sink c e) {before : Array UInt8}
    (same : sink.received = before ++ m.output) :
    c.sink.received = before ++ c.machine.output := by
  cases steps with
  | @writes value writing cell accepted =>
    simp only [Sink.received_write_of_accepted accepted, same, Array.append_push]
  | refused writing cell refused answer =>
    simp only [Sink.received_write_of_refused refused, same]
  | _ => exact same

end StepsTo

namespace Config

/-- What a run with one sink can come to, with a new source at any time. -/
inductive Reaches (start : Config) : Config → Prop
  | start : Reaches start start
  | step {c : Config} (before : Reaches start c) (source : Source) :
      Reaches start (c.connect source).step.1

def fresh (program : Program) (cells : Nat) (policy : PointerPolicy) (source : Source)
    (sink : Sink) : Config :=
  ⟨.fresh program cells policy, source, sink⟩

/-- The same, with another sink. -/
def drainTo (c : Config) (s : Sink) : Config :=
  { c with sink := s }

variable {c d : Config} {full short : Sink} {k : Nat}

theorem Reaches.received_eq {start : Config} (reaches : start.Reaches c)
    (unwritten : start.machine.output = #[]) :
    c.sink.received = start.sink.received ++ c.machine.output := by
  induction reaches with
  | start => rw [unwritten, Array.append_empty]
  | step before source ih => exact (StepsTo.of_step _ source _).received_eq ih

theorem reaches_after (c : Config) (n : Nat) : c.Reaches (c.after n) := by
  induction n with
  | zero => exact .start
  | succ n ih => exact ih.step (c.after n).source

theorem exists_output_after (c : Config) (n m : Nat) : ∃ more,
    (c.after (n + m)).machine.output = (c.after n).machine.output ++ more := by
  induction m with
  | zero => exact ⟨#[], Array.append_empty.symm⟩
  | succ m ih =>
    obtain ⟨more, grown⟩ := ih
    have steps := StepsTo.of_step (c.after (n + m)).machine (c.after (n + m)).source
      (c.after (n + m)).sink
    rcases steps.output_eq with same | ⟨value, pushed⟩
    · exact ⟨more, same.trans grown⟩
    · refine ⟨more.push value, ?_⟩
      rw [Array.append_push, ← grown]
      exact pushed

theorem size_output_after_le (c : Config) (n m : Nat) :
    (c.after n).machine.output.size ≤ (c.after (n + m)).machine.output.size := by
  obtain ⟨more, grown⟩ := exists_output_after c n m
  rw [grown, Array.size_append]
  omega

theorem step_of_not_writes (idle : c.machine.instruction? ≠ some .write) :
    c.step.1.sink = c.sink ∧ c.step.1.machine.output = c.machine.output :=
  (StepsTo.of_step c.machine c.source c.sink).sink_eq idle

theorem step_of_writes {value : UInt8} (writing : c.machine.instruction? = some .write)
    (cell : c.machine.cell? = some value) (accepted : (c.sink.write value).2 = none) :
    c.step = (⟨{ c.machine with output := c.machine.output.push value, ip := c.machine.ip + 1 },
      c.source, (c.sink.write value).1⟩, none) := by
  rw [step_of_instruction? writing]
  rcases written : c.sink.write value with ⟨after, refusal⟩
  rw [written] at accepted
  simp only at accepted
  subst accepted
  simp only [perform, emit, cell, written]

theorem step_of_refused {value : UInt8} {refusal : Refusal}
    (writing : c.machine.instruction? = some .write) (cell : c.machine.cell? = some value)
    (refused : (c.sink.write value).2 = some refusal) :
    c.step = (c.drainTo (c.sink.write value).1, some (.ofRefusal refusal)) := by
  rw [step_of_instruction? writing]
  rcases written : c.sink.write value with ⟨after, answer⟩
  rw [written] at refused
  simp only at refused
  subst refused
  simp only [perform, emit, cell, written, drainTo]

theorem step_of_writes_nowhere (writing : c.machine.instruction? = some .write)
    (cell : c.machine.cell? = none) : c.step = (c, some (.escape .noCell)) := by
  rw [step_of_instruction? writing]
  simp only [perform, emit, cell]

/-- A step of any instruction but a writing one does the same with another sink. -/
theorem step_drainTo (idle : c.machine.instruction? ≠ some .write) (s : Sink) :
    (c.drainTo s).step = (c.step.1.drainTo s, c.step.2) := by
  by_cases reading : c.machine.instruction? = some .read
  · have reading' : (c.drainTo s).machine.instruction? = some .read := reading
    rw [step_of_instruction? reading, step_of_instruction? reading']
    rcases c with ⟨m, source, sink⟩
    simp only [drainTo, perform, accept]
    rw [source.read_eq]
    cases source.unread 0 with
    | value n =>
      simp only [alter]
      split <;> rfl
    | endOfInput | failed reason | reported fault | raised text => rfl
  · have source : c.step.1.source = c.source := congrArg (fun result => result.1.source)
      (step_of_idle reading idle c.source c.source c.sink c.sink)
    simp only [drainTo, source]
    exact step_of_idle reading idle c.source c.source c.sink s

/-- Two runs that are the same but for their sinks, of which the one takes everything and the other
`k` bytes, and that have emitted no more than these. -/
structure Abreast (full short : Sink) (k : Nat) (c d : Config) : Prop where
  machine_eq : d.machine = c.machine
  source_eq : d.source = c.source
  received_full : c.sink.received = full.received ++ c.machine.output
  received_short : d.sink.received = short.received ++ c.machine.output
  within : c.machine.output.size ≤ k
  takesAll : c.sink.TakesAll
  takesOnly : d.sink.TakesOnly (k - c.machine.output.size)

namespace Abreast

theorem eq_drainTo (abreast : Abreast full short k c d) : d = c.drainTo d.sink := by
  rcases d with ⟨m, source, sink⟩
  obtain ⟨rfl, rfl, -⟩ := abreast
  rfl

theorem fresh (program : Program) (cells : Nat) (policy : PointerPolicy) (source : Source)
    (takesAll : full.TakesAll) (takesOnly : short.TakesOnly k) :
    Abreast full short k (fresh program cells policy source full)
      (fresh program cells policy source short) where
  machine_eq := rfl
  source_eq := rfl
  received_full := Array.append_empty.symm
  received_short := Array.append_empty.symm
  within := Nat.zero_le k
  takesAll := takesAll
  takesOnly := takesOnly

/-- A step keeps the runs abreast unless it emits a byte too many. -/
theorem step (abreast : Abreast full short k c d)
    (within : c.step.1.machine.output.size ≤ k) :
    Abreast full short k c.step.1 d.step.1 ∧ d.step.2 = c.step.2 := by
  by_cases writing : c.machine.instruction? = some .write
  · have writing' : d.machine.instruction? = some .write := by rwa [abreast.machine_eq]
    cases cell : c.machine.cell? with
    | none =>
      have cell' : d.machine.cell? = none := by rwa [abreast.machine_eq]
      rw [step_of_writes_nowhere writing cell, step_of_writes_nowhere writing' cell']
      exact ⟨abreast, rfl⟩
    | some value =>
      have cell' : d.machine.cell? = some value := by rwa [abreast.machine_eq]
      have accepted := abreast.takesAll.accepts value
      rw [step_of_writes writing cell accepted] at within ⊢
      simp only [Array.size_push] at within
      have room : k - c.machine.output.size = k - (c.machine.output.size + 1) + 1 := by omega
      have takesOnly := abreast.takesOnly
      rw [room] at takesOnly
      have accepted' := takesOnly.accepts value
      rw [step_of_writes writing' cell' accepted']
      refine ⟨?_, rfl⟩
      exact {
        machine_eq := by simp only [abreast.machine_eq]
        source_eq := abreast.source_eq
        received_full := by
          simp only [Sink.received_write_of_accepted accepted, abreast.received_full,
            Array.append_push]
        received_short := by
          simp only [Sink.received_write_of_accepted accepted', abreast.received_short,
            Array.append_push]
        within := by simpa using within
        takesAll := abreast.takesAll.write value
        takesOnly := by simpa using takesOnly.write value }
  · obtain ⟨sink, output⟩ := step_of_not_writes writing
    rw [abreast.eq_drainTo, step_drainTo writing]
    refine ⟨?_, rfl⟩
    exact {
      machine_eq := rfl
      source_eq := rfl
      received_full := by rw [sink, output, abreast.received_full]
      received_short := by rw [output]; exact abreast.received_short
      within := within
      takesAll := by rw [sink]; exact abreast.takesAll
      takesOnly := by rw [output]; exact abreast.takesOnly }

/-- What becomes of the step that emits a byte too many. -/
theorem step_of_beyond (abreast : Abreast full short k c d)
    (beyond : k < c.step.1.machine.output.size) :
    c.machine.output.size = k ∧ ∃ value reason,
      c.step.1.machine.output = c.machine.output.push value ∧
      d.machine.instruction? = some .write ∧ (d.sink.write value).2 = some (.failed reason) ∧
      d.step = (d.drainTo (d.sink.write value).1, some (.escape (.sinkFailed reason))) := by
  by_cases writing : c.machine.instruction? = some .write
  · have writing' : d.machine.instruction? = some .write := by rwa [abreast.machine_eq]
    cases cell : c.machine.cell? with
    | none =>
      rw [step_of_writes_nowhere writing cell] at beyond
      exact absurd abreast.within (Nat.not_le.2 beyond)
    | some value =>
      have cell' : d.machine.cell? = some value := by rwa [abreast.machine_eq]
      rw [step_of_writes writing cell (abreast.takesAll.accepts value)] at beyond ⊢
      simp only [Array.size_push] at beyond
      have within := abreast.within
      have filled : c.machine.output.size = k := by omega
      have takesNone := abreast.takesOnly
      rw [filled, Nat.sub_self] at takesNone
      obtain ⟨reason, refused⟩ := takesNone.refuses value
      exact ⟨filled, value, reason, rfl, writing', refused,
        step_of_refused writing' cell' refused⟩
  · rw [(step_of_not_writes writing).2] at beyond
    exact absurd abreast.within (Nat.not_le.2 beyond)

/-- So do all steps of a run that has emitted no more than `k` bytes. -/
theorem after (abreast : Abreast full short k c d) {n : Nat}
    (within : (c.after n).machine.output.size ≤ k) :
    Abreast full short k (c.after n) (d.after n) ∧
      ∀ j, j < n → (d.after j).step.2 = (c.after j).step.2 := by
  induction n with
  | zero => exact ⟨abreast, by omega⟩
  | succ n ih =>
    have earlier := ih (Nat.le_trans (size_output_after_le c n 1) within)
    have last := earlier.1.step within
    refine ⟨last.1, ?_⟩
    intro j below
    by_cases before : j < n
    · exact earlier.2 j before
    · have latest : j = n := by omega
      rw [latest]
      exact last.2

end Abreast

/-- A run that has emitted more than `k` bytes has at some step emitted the first byte too many. -/
theorem exists_step_beyond {n : Nat} (within : c.machine.output.size ≤ k)
    (beyond : k < (c.after n).machine.output.size) : ∃ j, j < n ∧
      (c.after j).machine.output.size ≤ k ∧ k < (c.after (j + 1)).machine.output.size := by
  induction n with
  | zero => exact absurd within (Nat.not_le.2 beyond)
  | succ n ih =>
    by_cases earlier : k < (c.after n).machine.output.size
    · obtain ⟨j, below, last, next⟩ := ih earlier
      exact ⟨j, by omega, last, next⟩
    · exact ⟨n, by omega, by omega, beyond⟩

/-- The machine is at an instruction that writes and has written the first `k` of the given bytes,
and its sink has taken just these. -/
structure CutOff (short : Sink) (k : Nat) (bytes : Array UInt8) (d : Config) : Prop where
  fetch?_eq : d.machine.program.fetch? d.machine.ip = some '.'
  output_eq : d.machine.output = bytes.take k
  received_eq : d.sink.received = short.received ++ bytes.take k

/-- A run that emits more than `k` bytes goes on where the one with the smaller sink is cut off. -/
theorem Abreast.exists_cutOff (abreast : Abreast full short k c d) {n : Nat}
    (beyond : k < (c.after n).machine.output.size) : ∃ j value reason, j < n ∧
      Abreast full short k (c.after j) (d.after j) ∧
      (∀ i, i < j → (d.after i).step.2 = (c.after i).step.2) ∧
      (c.after n).machine.output[k]? = some value ∧
      ((d.after j).sink.write value).2 = some (.failed reason) ∧
      (d.after j).step = ((d.after j).drainTo ((d.after j).sink.write value).1,
        some (.escape (.sinkFailed reason))) ∧
      CutOff short k (c.after n).machine.output (d.after (j + 1)) := by
  obtain ⟨j, below, last, next⟩ := exists_step_beyond abreast.within beyond
  obtain ⟨abreast', errors⟩ := abreast.after last
  obtain ⟨filled, value, reason, emitted, writing, refused, step⟩ := abreast'.step_of_beyond next
  obtain ⟨more, grown⟩ := exists_output_after c (j + 1) (n - (j + 1))
  rw [Nat.add_sub_cancel' below] at grown
  have output : (c.after n).machine.output = (c.after j).machine.output.push value ++ more := by
    rw [grown]
    exact congrArg (· ++ more) emitted
  have taken : (c.after n).machine.output.take k = (c.after j).machine.output := by
    rw [output, ← filled]
    apply Array.ext'
    simp
  refine ⟨j, value, reason, below, abreast', errors, ?_, refused, step, ?_⟩
  · rw [output, ← filled, Array.getElem?_append_left (by simp), Array.getElem?_push_size]
  · rw [after_succ_of_step step]
    exact {
      fetch?_eq := Machine.fetch?_of_instruction? writing
      output_eq := by rw [taken]; exact congrArg Machine.output abreast'.machine_eq
      received_eq := by
        rw [taken, ← abreast'.received_short]
        exact Sink.received_write_of_refused refused }

namespace Abreast

variable {n : Nat}

theorem proceeds (abreast : Abreast full short k c d) (proceeds : c.Proceeds n)
    (within : (c.after n).machine.output.size ≤ k) : d.Proceeds n := by
  intro j below
  have bounded := size_output_after_le c j (n - j)
  rw [Nat.add_sub_cancel' (Nat.le_of_lt below)] at bounded
  have same := (abreast.after (Nat.le_trans bounded within)).1.machine_eq
  obtain ⟨undone, succeeds⟩ := proceeds j below
  rw [same, (abreast.after within).2 j below]
  exact ⟨undone, succeeds⟩

theorem exists_ends (abreast : Abreast full short k c d) {c' : Config} {e : Option StepError}
    (ends : c.Ends c' e) (within : c'.machine.output.size ≤ k) :
    ∃ d', d.Ends d' e ∧ Abreast full short k c' d' := by
  obtain ⟨n, proceeds, stops⟩ := ends_iff_exists_stops.1 ends
  rw [stops.machine_eq] at within
  have last := (abreast.after within).1
  have proceeds' := abreast.proceeds proceeds within
  cases stops with
  | finished done =>
    have done' : (d.after n).machine.done = true := by rwa [last.machine_eq]
    exact ⟨_, ends_iff_exists_stops.2 ⟨n, proceeds', .finished done'⟩, last⟩
  | @fails c' f undone step =>
    have undone' : (d.after n).machine.done = false := by rwa [last.machine_eq]
    have both := last.step (by rwa [step, machine_of_error step])
    rw [step] at both
    have step' : (d.after n).step = ((d.after n).step.1, some f) := Prod.ext rfl both.2
    exact ⟨_, ends_iff_exists_stops.2 ⟨n, proceeds', .fails undone' step'⟩, both.1⟩

theorem exists_ends_cutOff (abreast : Abreast full short k c d) (proceeds : c.Proceeds n)
    (beyond : k < (c.after n).machine.output.size) : ∃ d' reason,
      d.Ends d' (some (.escape (.sinkFailed reason))) ∧
      CutOff short k (c.after n).machine.output d' := by
  obtain ⟨j, value, reason, below, last, -, -, -, step, cut⟩ := abreast.exists_cutOff beyond
  have proceeds' := abreast.proceeds (proceeds.of_le (Nat.le_of_lt below)) last.within
  have undone : (d.after j).machine.done = false := by
    rw [last.machine_eq]
    exact (proceeds j below).1
  rw [after_succ_of_step step] at cut
  exact ⟨_, reason, ends_iff_exists_stops.2 ⟨j, proceeds', .fails undone step⟩, cut⟩

end Abreast

end Config

section Execute

variable {program : Program} {cells : Nat} {policy : PointerPolicy} {source : Source}
  {fuel : Nat} {x : Execution}

theorem received_of_execute {sink : Sink} {text : String}
    (executed : execute fuel program cells policy source sink = some x)
    (completes : x.outcome = .completed text) :
    ∃ bytes, x.final.sink.received = sink.received ++ bytes ∧ text = outputText bytes := by
  cases resolved : program.jumps with
  | error e =>
    rw [execute_of_unbalanced cells policy source sink resolved, Option.some.injEq] at executed
    subst executed
    simp at completes
  | ok table =>
    obtain ⟨e, ends, outcome⟩ := (exists_execute_iff_ends cells policy source sink resolved).1
      ⟨fuel, executed⟩
    obtain ⟨rfl, shown⟩ := Outcome.ofStop_eq_completed (outcome.symm.trans completes)
    refine ⟨x.final.machine.output, ?_, shown⟩
    obtain ⟨n, -, stops⟩ := Config.ends_iff_exists_stops.1 ends
    generalize x.final = d at stops
    cases stops with
    | finished done => exact (Config.reaches_after _ n).received_eq rfl

theorem execute_of_limited {full short : Sink} {k : Nat} (takesAll : full.TakesAll)
    (takesOnly : short.TakesOnly k)
    (executed : execute fuel program cells policy source full = some x)
    (within : x.final.machine.output.size ≤ k) :
    ∃ fuel' y, execute fuel' program cells policy source short = some y ∧
      y.outcome = x.outcome ∧ Config.Abreast full short k x.final y.final := by
  have abreast := Config.Abreast.fresh program cells policy source takesAll takesOnly
  cases resolved : program.jumps with
  | error e =>
    rw [execute_of_unbalanced cells policy source full resolved, Option.some.injEq] at executed
    subst executed
    exact ⟨0, _, execute_of_unbalanced cells policy source short resolved 0, rfl, abreast⟩
  | ok table =>
    obtain ⟨e, ends, outcome⟩ := (exists_execute_iff_ends cells policy source full resolved).1
      ⟨fuel, executed⟩
    obtain ⟨d', ends', last⟩ := abreast.exists_ends ends within
    obtain ⟨fuel', executed'⟩ := (exists_execute_iff_ends
      (x := ⟨.ofStop d'.machine.output e, d'⟩) cells policy source short resolved).2
        ⟨e, ends', rfl⟩
    refine ⟨fuel', _, executed', ?_, last⟩
    rw [outcome, ← last.machine_eq]

end Execute

/-- What a run has written is what its sink has taken from it, in order, at any time and at its end.
A sink that takes only `k` bytes makes no difference to a run that emits no more. Any other run it
ends when the next byte is due: its failure gets out as it is, and the sink and the machine have the
first `k` bytes. -/
theorem emission_of_runs (program : Program) (cells : Nat) (policy : PointerPolicy)
    (source : Source) :
    (∀ sink c, (Config.fresh program cells policy source sink).Reaches c →
      c.sink.received = sink.received ++ c.machine.output) ∧
    (∀ sink fuel x text, execute fuel program cells policy source sink = some x →
      x.outcome = .completed text →
        ∃ bytes, x.final.sink.received = sink.received ++ bytes ∧ text = outputText bytes) ∧
    ∀ (full short : Sink) (k : Nat), full.TakesAll → short.TakesOnly k →
      let c := Config.fresh program cells policy source full
      let d := Config.fresh program cells policy source short
      (∀ n, (c.after n).machine.output.size ≤ k →
        Config.Abreast full short k (c.after n) (d.after n) ∧
        ∀ j, j < n → (d.after j).step.2 = (c.after j).step.2) ∧
      (∀ n, k < (c.after n).machine.output.size →
        ∃ j value reason, j < n ∧ Config.Abreast full short k (c.after j) (d.after j) ∧
          (∀ i, i < j → (d.after i).step.2 = (c.after i).step.2) ∧
          (c.after n).machine.output[k]? = some value ∧
          ((d.after j).sink.write value).2 = some (.failed reason) ∧
          (d.after j).step = ((d.after j).drainTo ((d.after j).sink.write value).1,
            some (.escape (.sinkFailed reason))) ∧
          Config.CutOff short k (c.after n).machine.output (d.after (j + 1))) ∧
      (∀ fuel x, execute fuel program cells policy source full = some x →
        x.final.machine.output.size ≤ k →
          ∃ fuel' y, execute fuel' program cells policy source short = some y ∧
            y.outcome = x.outcome ∧ Config.Abreast full short k x.final y.final) ∧
      (program.isBalanced = true → ∀ n, c.Proceeds n →
        k < (c.after n).machine.output.size →
          ∃ fuel y reason, execute fuel program cells policy source short = some y ∧
            y.outcome = .escaped (.sinkFailed reason) ∧
            Config.CutOff short k (c.after n).machine.output y.final) := by
  refine ⟨?_, ?_, ?_⟩
  · intro sink c reaches
    exact reaches.received_eq rfl
  · intro sink fuel x text executed completes
    exact received_of_execute executed completes
  · intro full short k takesAll takesOnly c d
    have abreast : Config.Abreast full short k c d :=
      .fresh program cells policy source takesAll takesOnly
    refine ⟨?_, ?_, ?_, ?_⟩
    · intro n within
      exact abreast.after within
    · intro n beyond
      exact abreast.exists_cutOff beyond
    · intro fuel x executed within
      exact execute_of_limited takesAll takesOnly executed within
    · intro balanced n proceeds beyond
      obtain ⟨table, resolved⟩ := Program.isBalanced_iff.1 balanced
      obtain ⟨d', reason, ends, cut⟩ := abreast.exists_ends_cutOff proceeds beyond
      obtain ⟨fuel, executed⟩ := (exists_execute_iff_ends
        (x := ⟨.escaped (.sinkFailed reason), d'⟩) cells policy source short resolved).2
          ⟨_, ends, rfl⟩
      exact ⟨fuel, _, reason, executed, rfl, cut⟩

theorem emission_of_runs_cut_off :
    Sink.unlimited.TakesAll ∧ (Sink.limited 1).TakesOnly 1 ∧
      ∃ fuel y reason, execute fuel (Program.ofString ".+.") 1 .bounded (.ofBytes #[])
          (.limited 1) = some y ∧
        y.outcome = .escaped (.sinkFailed reason) ∧ y.final.sink.received = #[0] := by
  have takesOnly := Sink.takesOnly_limited 1
  have proceeds :
      (Config.fresh (Program.ofString ".+.") 1 .bounded (.ofBytes #[]) .unlimited).Proceeds 3 := by
    intro k below
    rcases k with - | - | - | k
    · exact ⟨rfl, rfl⟩
    · exact ⟨rfl, rfl⟩
    · exact ⟨rfl, rfl⟩
    · omega
  obtain ⟨-, -, -, cutOff⟩ := (emission_of_runs (Program.ofString ".+.") 1 .bounded
    (.ofBytes #[])).2.2 .unlimited (.limited 1) 1 Sink.takesAll_unlimited takesOnly
  obtain ⟨fuel, y, reason, executed, outcome, cut⟩ := cutOff rfl 3 proceeds (by decide)
  exact ⟨Sink.takesAll_unlimited, takesOnly, fuel, y, reason, executed, outcome, cut.received_eq⟩

end ByteTape

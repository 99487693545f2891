import Mathlib.Logic.ExistsUnique
import ByteTape.Proofs.Emission
import ByteTape.Proofs.Policies

set_option autoImplicit false

namespace ByteTape

def InputError.DueTo (error : InputError) (reading : Reading) : Prop :=
  reading = .endOfInput ∧ error = .exhausted ∧ error.reason = "input exhausted" ∨
    ∃ text, reading = .failed text ∧ error = .device text ∧ error.reason = text

def Machine.Leaving (m : Machine) (goal : Int) : Prop :=
  m.program.fetch? m.ip = some '>' ∧ m.pointer + 1 = m.tape.size ∧ goal = m.tape.size ∨
    m.program.fetch? m.ip = some '<' ∧ m.pointer = 0 ∧ goal = -1

theorem Machine.leaving_of_target_error {m : Machine} {delta : Int} {f : Fault}
    (onTape : m.pointer < m.tape.size) (moving : m.Moves delta)
    (fails : m.target delta = .error (.fault f)) :
    m.policy = .bounded ∧ ∃ goal, f = .outOfTape goal m.tape.size m.ip ∧ m.Leaving goal := by
  obtain ⟨bounded, edge⟩ := error_of_moves onTape moving fails
  refine ⟨bounded, ?_⟩
  rcases edge with ⟨instruction, last, error⟩ | ⟨instruction, first, error⟩
  · have named := StepError.eq_of_outOfTape_eq_fault error.symm
    exact ⟨m.tape.size, named, Or.inl ⟨fetch?_of_instruction? instruction, last, rfl⟩⟩
  · exact ⟨-1, StepError.fault.inj error,
      Or.inr ⟨fetch?_of_instruction? instruction, first, rfl⟩⟩

/-- A device stopped the step from `c` by a fault of its own: the source when it was read, or the
sink when the current cell was written. -/
structure Config.Stopped (fault : ForeignFault) (c d : Config) : Prop where
  machine_eq : d.machine = c.machine
  answer : c.machine.program.fetch? c.machine.ip = some ',' ∧
      c.source.read = (.reported fault, d.source) ∧ d.sink = c.sink ∨
    c.machine.program.fetch? c.machine.ip = some '.' ∧ d.source = c.source ∧
      ∃ value, c.machine.cell? = some value ∧
        c.sink.write value = (d.sink, some (.reported fault))

/-- A step that fails by a fault asked for the bracket table in vain, or was about to lead the
pointer out of the tape, or got no input, or was stopped by a device. -/
theorem StepsTo.of_fault {m : Machine} {source : Source} {sink : Sink} {c : Config} {f : Fault}
    (onTape : m.pointer < m.tape.size) (steps : StepsTo m source sink c (some (.fault f))) :
    (∃ e, m.program.jumps = .error e) ∨
    (m.policy = .bounded ∧ c = ⟨m, source, sink⟩ ∧
      ∃ goal, f = .outOfTape goal m.tape.size m.ip ∧ m.Leaving goal) ∨
    (m.program.fetch? m.ip = some ',' ∧ c = ⟨m, source.read.2, sink⟩ ∧
      ∃ error, f = .input m.ip error ∧ error.DueTo source.read.1) ∨
    ∃ fault, f = .foreign fault ∧ Config.Stopped fault ⟨m, source, sink⟩ c := by
  cases steps with
  | stuck moving target =>
    obtain ⟨bounded, leaving⟩ := Machine.leaving_of_target_error onTape moving target
    exact Or.inr (Or.inl ⟨bounded, rfl, leaving⟩)
  | unbalanced jumping unresolved => exact Or.inl ⟨_, unresolved⟩
  | exhausted reading answer =>
    have due : InputError.exhausted.DueTo source.read.1 := Or.inl ⟨answer, rfl, rfl⟩
    exact Or.inr (Or.inr (Or.inl ⟨Machine.fetch?_of_instruction? reading, rfl, _, rfl, due⟩))
  | @failed reason reading answer =>
    have due : (InputError.device reason).DueTo source.read.1 :=
      Or.inr ⟨reason, answer, rfl, rfl⟩
    exact Or.inr (Or.inr (Or.inl ⟨Machine.fetch?_of_instruction? reading, rfl, _, rfl, due⟩))
  | @reported fault reading answer =>
    have read : source.read = (.reported fault, source.read.2) := Prod.ext answer rfl
    exact Or.inr (Or.inr (Or.inr ⟨fault, rfl, rfl,
      Or.inl ⟨Machine.fetch?_of_instruction? reading, read, rfl⟩⟩))
  | @refused value refusal _ writing cell refused answer =>
    cases refusal with
    | failed reason | raised text => cases answer
    | reported fault =>
      have written : sink.write value = ((sink.write value).1, some (.reported fault)) :=
        Prod.ext rfl refused
      exact Or.inr (Or.inr (Or.inr ⟨fault, (StepError.fault.inj answer).symm, rfl,
        Or.inr ⟨Machine.fetch?_of_instruction? writing, rfl, value, cell, written⟩⟩))

theorem Outcome.ofStop_eq_failed {output : Array UInt8} {e : Option StepError} {f : Fault}
    (fails : ofStop output e = .failed f) : e = some (.fault f) := by
  cases e with
  | none => cases fails
  | some e =>
    cases e with
    | fault g => rw [Outcome.failed.inj fails]
    | escape e => cases fails

section Execute

variable (program : Program) (cells : Nat) (policy : PointerPolicy) (source : Source)
  (sink : Sink)

/-- Nothing was run, since a bracket of the program has no partner. -/
structure Unrun (x : Execution) : Prop where
  unbalanced : program.isBalanced = false
  reports : ∃ e, program.jumps = .error e ∧ x.outcome = .failed (.unbalanced e)
  final_eq : x.final = .fresh program cells policy source sink

/-- Successful steps led to the end of the tape, and the next one would have gone beyond it. -/
structure RanOffTape (x : Execution) : Prop where
  balanced : program.isBalanced = true
  bounded : policy = .bounded
  reaches : ∃ n, (Config.fresh program cells policy source sink).Proceeds n ∧
    x.final = (Config.fresh program cells policy source sink).after n
  reports : ∃ goal, x.outcome = .failed (.outOfTape goal cells x.final.machine.ip) ∧
    (program.fetch? x.final.machine.ip = some '>' ∧ x.final.machine.pointer + 1 = cells ∧
        goal = cells ∨
      program.fetch? x.final.machine.ip = some '<' ∧ x.final.machine.pointer = 0 ∧ goal = -1)

/-- Successful steps led to a reading instruction, and the reading gave no value. -/
structure RanOutOfInput (x : Execution) : Prop where
  balanced : program.isBalanced = true
  reads : program.fetch? x.final.machine.ip = some ','
  reaches : ∃ n c reading error, (Config.fresh program cells policy source sink).Proceeds n ∧
    c = (Config.fresh program cells policy source sink).after n ∧
    x.final.machine = c.machine ∧ x.final.sink = c.sink ∧
    c.source.read = (reading, x.final.source) ∧
    x.outcome = .failed (.input x.final.machine.ip error) ∧ error.DueTo reading

/-- Successful steps led to an instruction at which a device reported a fault of its own, and the
run passed this fault on. -/
structure StoppedByDevice (x : Execution) : Prop where
  balanced : program.isBalanced = true
  reaches : ∃ n c fault, (Config.fresh program cells policy source sink).Proceeds n ∧
    c = (Config.fresh program cells policy source sink).after n ∧
    c.Stopped fault x.final ∧ x.outcome = .failed (.foreign fault)

inductive Diagnosis
  | unrun
  | ranOffTape
  | ranOutOfInput
  | stoppedByDevice

/-- The diagnosis is true of a run of the program. -/
def Diagnosis.Holds : Diagnosis → Execution → Prop
  | unrun => Unrun program cells policy source sink
  | ranOffTape => RanOffTape program cells policy source sink
  | ranOutOfInput => RanOutOfInput program cells policy source sink
  | stoppedByDevice => StoppedByDevice program cells policy source sink

def Fault.diagnosis : Fault → Diagnosis
  | outOfTape .. => .ranOffTape
  | unbalanced _ => .unrun
  | input .. => .ranOutOfInput
  | foreign _ => .stoppedByDevice

variable {program cells policy source sink} {fuel : Nat} {x : Execution} {f : Fault}

theorem Unrun.of_unbalanced {e : BracketError} (unresolved : program.jumps = .error e) :
    Unrun program cells policy source sink
      ⟨.failed (.unbalanced e), .fresh program cells policy source sink⟩ where
  unbalanced := by simp [Program.isBalanced, unresolved]
  reports := ⟨e, unresolved, rfl⟩
  final_eq := rfl

/-- The run of a balanced program fails by a fault that says what has happened. -/
theorem holds_diagnosis_of_ends {d : Config} {table : JumpTable} (positive : 0 < cells)
    (resolved : program.jumps = .ok table)
    (ends : (Config.fresh program cells policy source sink).Ends d (some (.fault f))) :
    f.diagnosis.Holds program cells policy source sink ⟨.failed f, d⟩ := by
  have balanced : program.isBalanced = true := Program.isBalanced_iff.2 ⟨table, resolved⟩
  obtain ⟨n, proceeds, stops⟩ := Config.ends_iff_exists_stops.1 ends
  generalize reached : (Config.fresh program cells policy source sink).after n = c at stops
  have same_program : c.machine.program = program := by
    rw [← reached, Config.program_after]
    rfl
  have size_tape : c.machine.tape.size = cells := by
    rw [← reached, Config.size_tape_after]
    exact Machine.size_tape_fresh program cells policy
  have onTape : c.machine.pointer < c.machine.tape.size := by
    rw [← reached]
    apply Config.onTape_after
    simpa [Config.fresh, Machine.fresh] using positive
  cases stops with
  | fails undone step =>
    have steps := StepsTo.of_step c.machine c.source c.sink
    rw [step] at steps
    rcases steps.of_fault onTape with ⟨e, unresolved⟩ | ⟨bounded, rfl, goal, rfl, leaving⟩ |
      ⟨reads, rfl, error, rfl, due⟩ | ⟨fault, rfl, stopped⟩
    · rw [same_program, resolved] at unresolved
      cases unresolved
    · have same_policy : c.machine.policy = policy := by
        rw [← reached, Config.policy_after]
        rfl
      unfold Machine.Leaving at leaving
      rw [same_program, size_tape] at leaving
      exact {
        balanced := balanced
        bounded := same_policy.symm.trans bounded
        reaches := ⟨n, proceeds, reached.symm⟩
        reports := ⟨goal, by rw [size_tape], leaving⟩ }
    · rw [same_program] at reads
      exact {
        balanced := balanced
        reads := reads
        reaches := ⟨n, c, c.source.read.1, error, proceeds, reached.symm, rfl, rfl, rfl, rfl,
          due⟩ }
    · exact {
        balanced := balanced
        reaches := ⟨n, c, fault, proceeds, reached.symm, stopped, rfl⟩ }

theorem holds_diagnosis (positive : 0 < cells)
    (executed : execute fuel program cells policy source sink = some x)
    (failed : x.outcome = .failed f) :
    f.diagnosis.Holds program cells policy source sink x := by
  cases resolved : program.jumps with
  | error e =>
    rw [execute_of_unbalanced cells policy source sink resolved, Option.some.injEq] at executed
    subst executed
    obtain rfl := Outcome.failed.inj failed
    exact Unrun.of_unbalanced resolved
  | ok table =>
    obtain ⟨e, ends, outcome⟩ := (exists_execute_iff_ends cells policy source sink resolved).1
      ⟨fuel, executed⟩
    rcases x with ⟨shown, d⟩
    subst failed
    obtain rfl := Outcome.ofStop_eq_failed outcome.symm
    exact holds_diagnosis_of_ends positive resolved ends

theorem Diagnosis.Holds.eq_diagnosis {diagnosis : Diagnosis}
    (holds : diagnosis.Holds program cells policy source sink x) (failed : x.outcome = .failed f) :
    diagnosis = f.diagnosis := by
  have stands {g : Fault} (reports : x.outcome = .failed g) : f.diagnosis = g.diagnosis :=
    congrArg Fault.diagnosis (Outcome.failed.inj (failed.symm.trans reports))
  cases diagnosis with
  | unrun =>
    obtain ⟨e, -, reports⟩ := Unrun.reports holds
    exact (stands reports).symm
  | ranOffTape =>
    obtain ⟨goal, reports, -⟩ := RanOffTape.reports holds
    exact (stands reports).symm
  | ranOutOfInput =>
    obtain ⟨n, c, reading, error, -, -, -, -, -, reports, -⟩ := RanOutOfInput.reaches holds
    exact (stands reports).symm
  | stoppedByDevice =>
    obtain ⟨n, c, fault, -, -, -, reports⟩ := StoppedByDevice.reaches holds
    exact (stands reports).symm

end Execute

/-- What becomes of an execution of an unbalanced program is a matter of its tape: once it has one,
it reports the bracket. -/
theorem executeSized_of_unbalanced {program : Program} {e : BracketError}
    (unresolved : program.jumps = .error e) (room fuel cells : Nat) (policy : PointerPolicy)
    (source : Source) (sink : Sink) :
    let sized := executeSized room fuel program cells policy source sink
    ((cells : Int) < Word.limit → cells ≤ room →
      sized = .ok (some ⟨.failed (.unbalanced e), .fresh program cells policy source sink⟩)) ∧
    ((cells : Int) < Word.limit → room < cells → sized = .error .outOfMemory) ∧
    (Word.limit ≤ cells → sized = .error .outOfRange) := by
  refine ⟨?_, executeSized_of_room_lt, executeSized_of_limit_le⟩
  intro word fits
  rw [executeSized_natCast word fits, execute_of_unbalanced cells policy source sink unresolved]
  rfl

/-- A run that fails gives the reason truthfully, and there is just one: a bracket without a
partner, for which nothing has been run; an end of the tape that the pointer may not leave; input
that did not come; or a device that reported a fault of its own, which the run passes on. The
machine is the one that the successful steps have led to. A program with a bracket that has no
partner always fails for this reason, once it has got its tape. -/
theorem diagnosis_of_failed_runs (program : Program) {cells : Nat} (policy : PointerPolicy)
    (source : Source) (sink : Sink) (positive : 0 < cells) :
    (∀ room fuel x f, executeSized room fuel program cells policy source sink = .ok (some x) →
      x.outcome = .failed f →
        ∃! diagnosis : Diagnosis, diagnosis.Holds program cells policy source sink x) ∧
    (program.isBalanced = false → ∀ room fuel,
      let sized := executeSized room fuel program cells policy source sink
      ((cells : Int) < Word.limit → cells ≤ room →
        ∃ x, sized = .ok (some x) ∧ Unrun program cells policy source sink x) ∧
      ((cells : Int) < Word.limit → room < cells → sized = .error .outOfMemory) ∧
      (Word.limit ≤ cells → sized = .error .outOfRange)) := by
  constructor
  · intro room fuel x f sized failed
    have executed := execute_of_executeSized sized
    exact ⟨f.diagnosis, holds_diagnosis positive executed failed,
      fun _ holds => holds.eq_diagnosis failed⟩
  · intro unbalanced room fuel
    cases resolved : program.jumps with
    | ok table => simp [Program.isBalanced, resolved] at unbalanced
    | error e =>
      obtain ⟨reports, large, beyond⟩ :=
        executeSized_of_unbalanced resolved room fuel cells policy source sink
      exact ⟨fun word fits => ⟨_, reports word fits, .of_unbalanced resolved⟩, large, beyond⟩

/-- A program that is stopped by a fault of its source, about an instruction that it does not have,
and one that is not run. -/
theorem diagnosis_of_failed_runs_foreign :
    0 < 1 ∧ ((1 : Nat) : Int) < Word.limit ∧ (Program.ofString "[").isBalanced = false ∧
      (∃ x, executeSized 1 1 (Program.ofString ",") (1 : Nat) .bounded
          (.ofReadings #[.reported (.input 99 "closed")]) .unlimited = .ok (some x) ∧
        x.outcome = .failed (.foreign (.input 99 "closed")) ∧ x.final.machine.ip = 0 ∧
        ∃! diagnosis : Diagnosis, diagnosis.Holds (Program.ofString ",") 1 .bounded
          (.ofReadings #[.reported (.input 99 "closed")]) .unlimited x) ∧
      ∃ x, executeSized 1 0 (Program.ofString "[") (1 : Nat) .bounded (.ofBytes #[]) .unlimited =
          .ok (some x) ∧ Unrun (Program.ofString "[") 1 .bounded (.ofBytes #[]) .unlimited x := by
  have positive : 0 < 1 := by decide
  have word : ((1 : Nat) : Int) < Word.limit := by decide
  have unbalanced : (Program.ofString "[").isBalanced = false := rfl
  have ended : ∃ x, executeSized 1 1 (Program.ofString ",") (1 : Nat) .bounded
      (.ofReadings #[.reported (.input 99 "closed")]) .unlimited = .ok (some x) ∧
        x.outcome = .failed (.foreign (.input 99 "closed")) ∧ x.final.machine.ip = 0 :=
    ⟨_, rfl, rfl, rfl⟩
  obtain ⟨x, sized, failed, position⟩ := ended
  have diagnosis := (diagnosis_of_failed_runs (Program.ofString ",") .bounded
    (.ofReadings #[.reported (.input 99 "closed")]) .unlimited positive).1 1 1 x _ sized failed
  have reported := (diagnosis_of_failed_runs (Program.ofString "[") .bounded (.ofBytes #[])
    .unlimited positive).2 unbalanced 1 0
  exact ⟨positive, word, unbalanced, ⟨x, sized, failed, position, diagnosis⟩,
    reported.1 word (Nat.le_refl 1)⟩

/-- A program with an open bracket does not fail for its sake on a tape that is too long to be asked
for, whatever memory has room for. Nor is it for its brackets, its tape or its input that a program
fails whose source reports a fault of its own. -/
theorem not_failures_always_explained :
    (¬∀ (program : Program) (size : Int), 1 ≤ size → program.isBalanced = false → ∃ room,
      ∀ fuel policy source sink, ∃ x e,
        executeSized room fuel program size policy source sink = .ok (some x) ∧
          x.outcome = .failed (.unbalanced e)) ∧
    ¬∀ (program : Program) (cells : Nat) (policy : PointerPolicy) (source : Source) (sink : Sink),
      0 < cells → ∀ room fuel x f,
        executeSized room fuel program cells policy source sink = .ok (some x) →
        x.outcome = .failed f →
          Unrun program cells policy source sink x ∨ RanOffTape program cells policy source sink x ∨
            RanOutOfInput program cells policy source sink x := by
  constructor
  · intro reports
    obtain ⟨room, reports⟩ := reports (Program.ofString "[") Word.limit (by decide) rfl
    obtain ⟨x, e, executed, -⟩ := reports 0 .bounded (.ofBytes #[]) .unlimited
    rw [executeSized_of_limit_le (Int.le_refl _)] at executed
    cases executed
  · intro explains
    have ended : ∃ x, executeSized 1 1 (Program.ofString ",") (1 : Nat) .bounded
        (.ofReadings #[.reported (.input 99 "closed")]) .unlimited = .ok (some x) ∧
          x.outcome = .failed (.foreign (.input 99 "closed")) := ⟨_, rfl, rfl⟩
    obtain ⟨x, sized, failed⟩ := ended
    rcases explains _ 1 _ _ _ (by decide) 1 1 x _ sized failed with unrun | off | out
    · obtain ⟨e, -, reports⟩ := unrun.reports
      cases failed.symm.trans reports
    · obtain ⟨goal, reports, -⟩ := off.reports
      cases failed.symm.trans reports
    · obtain ⟨n, c, reading, error, -, -, -, -, -, reports, -⟩ := out.reaches
      cases failed.symm.trans reports

end ByteTape

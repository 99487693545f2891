import ByteTape.Proofs.BracketTable
import ByteTape.Proofs.Running
import ByteTape.Proofs.Stepping

set_option autoImplicit false

namespace ByteTape

namespace Machine

/-- What a machine can become by steps, successful or not, each with any source and any sink. -/
inductive Reachable (start : Machine) : Machine → Prop
  | start : Reachable start start
  | step {m : Machine} (before : Reachable start m) (source : Source) (sink : Sink) :
      Reachable start (Config.step ⟨m, source, sink⟩).1.machine

/-- A machine with a pointer on its tape of `cells` cells and a position in its program. -/
structure InOrder (program : Program) (cells : Nat) (policy : PointerPolicy) (m : Machine) :
    Prop where
  program_eq : m.program = program
  policy_eq : m.policy = policy
  size_tape : m.tape.size = cells
  pointer_lt : m.pointer < cells
  ip_le : m.ip ≤ program.size

/-- What a step of a machine in order can report. -/
inductive MayRaise (m : Machine) (source : Source) (sink : Sink) : StepError → Prop
  | outOfTape {goal : Int} (bounded : m.policy = .bounded)
      (edge : goal = -1 ∨ goal = m.tape.size) :
      MayRaise m source sink (.fault (.outOfTape goal m.tape.size m.ip))
  | unbalanced {e : BracketError} (unresolved : m.program.jumps = .error e) :
      MayRaise m source sink (.fault (.unbalanced e))
  | exhausted (answer : source.unread 0 = .endOfInput) :
      MayRaise m source sink (.fault (.input m.ip .exhausted))
  | failed {reason : String} (answer : source.unread 0 = .failed reason) :
      MayRaise m source sink (.fault (.input m.ip (.device reason)))
  | sinkRefused {value : UInt8} {refusal : Refusal} {e : StepError}
      (refused : (sink.write value).2 = some refusal) (answer : .ofRefusal refusal = e) :
      MayRaise m source sink e
  | sourceReported {fault : ForeignFault} (answer : source.unread 0 = .reported fault) :
      MayRaise m source sink (.fault (.foreign fault))
  | sourceRaised {text : String} (answer : source.unread 0 = .raised text) :
      MayRaise m source sink (.escape (.sourceRaised text))

variable {m : Machine} {program : Program} {policy : PointerPolicy} {cells : Nat}
  {source : Source} {sink : Sink} {c : Config} {e : Option StepError}

theorem fetch?_of_instruction? {i : Instruction} (found : m.instruction? = some i) :
    m.program.fetch? m.ip = some i.toChar := by
  obtain ⟨c, fetched, written⟩ := Option.bind_eq_some_iff.1 found
  rw [fetched, Instruction.toChar_of_ofChar? written]

theorem instruction?_of_fetch? {i : Instruction} (fetched : m.program.fetch? m.ip = some i.toChar) :
    m.instruction? = some i := by
  simp [instruction?, fetched]

theorem lt_size_of_fetch? {c : Char} (fetched : m.program.fetch? m.ip = some c) :
    m.ip < m.program.size :=
  (Array.getElem?_eq_some_iff.1 fetched).1

/-- A bracket that lets the machine jump is in the table of its program. -/
theorem exists_spans_of_jumps {table : JumpTable} (jumping : m.Jumps)
    (resolved : m.program.jumps = .ok table) :
    ∃ partner, table.partner? m.ip = some partner ∧ partner < m.program.size := by
  rw [m.program.jumps_eq] at resolved
  have bracket : ∃ c, m.program.fetch? m.ip = some c ∧ (c = '[' ∨ c = ']') := by
    rcases jumping with ⟨value, -, ⟨instruction, -⟩ | ⟨instruction, -⟩⟩
    · exact ⟨'[', fetch?_of_instruction? instruction, Or.inl rfl⟩
    · exact ⟨']', fetch?_of_instruction? instruction, Or.inr rfl⟩
  obtain ⟨c, found, isBracket⟩ := bracket
  rw [Program.fetch?_eq_getElem?] at found
  rcases JumpTable.partner?_of_getElem? resolved found with
    ⟨-, noOpening, noClosing⟩ | ⟨partner, entry, spans⟩
  · rcases isBracket with opening | closing
    · exact absurd opening noOpening
    · exact absurd closing noClosing
  · refine ⟨partner, entry, ?_⟩
    rw [← Program.length_code]
    rcases spans with spans | spans
    · exact spans.lt_length
    · exact Nat.lt_trans spans.lt spans.lt_length

namespace InOrder

theorem fresh (program : Program) (policy : PointerPolicy) (positive : 0 < cells) :
    (Machine.fresh program cells policy).InOrder program cells policy where
  program_eq := rfl
  policy_eq := rfl
  size_tape := size_tape_fresh program cells policy
  pointer_lt := positive
  ip_le := Nat.zero_le _

theorem done_iff (order : m.InOrder program cells policy) :
    m.done = true ↔ m.ip = program.size := by
  have bound := order.ip_le
  unfold Machine.done
  rw [decide_eq_true_iff, order.program_eq]
  omega

/-- A step does not lead out of the program, because an instruction that has been fetched is in it
and the brackets lead to each other. -/
theorem ip_le_of_stepsTo (steps : StepsTo m source sink c e) (bound : m.ip ≤ m.program.size) :
    c.machine.ip ≤ m.program.size := by
  have next {i : Instruction} (found : m.instruction? = some i) : m.ip + 1 ≤ m.program.size :=
    lt_size_of_fetch? (fetch?_of_instruction? found)
  cases steps with
  | pastEnd | stuck | refused | readsNowhere | exhausted | failed | reported | raised | unbalanced
  | partnerless | nowhere => exact bound
  | comment fetched plain => exact lt_size_of_fetch? fetched
  | moves moving target =>
    rcases moving with ⟨instruction, -⟩ | ⟨instruction, -⟩
    all_goals exact next instruction
  | alters altering onTape =>
    rcases altering with ⟨instruction, -⟩ | ⟨instruction, -⟩
    all_goals exact next instruction
  | writes writing cell accepted => exact next writing
  | reads reading answer onTape => exact next reading
  | passes passing =>
    rcases passing with ⟨value, -, ⟨instruction, -⟩ | ⟨instruction, -⟩⟩
    all_goals exact next instruction
  | jumps jumping resolved found =>
    obtain ⟨partner, entry, bound⟩ := exists_spans_of_jumps jumping resolved
    rw [found, Option.some.injEq] at entry
    subst entry
    exact bound

theorem of_stepsTo (order : m.InOrder program cells policy) (steps : StepsTo m source sink c e) :
    c.machine.InOrder program cells policy := by
  obtain ⟨rfl, rfl, rfl, pointer_lt, ip_le⟩ := order
  have onTape := steps.onTape pointer_lt
  rw [steps.size_tape] at onTape
  exact ⟨steps.program_eq, steps.policy_eq, steps.size_tape, onTape,
    ip_le_of_stepsTo steps ip_le⟩

theorem of_reachable (order : m.InOrder program cells policy) {m' : Machine}
    (reach : m.Reachable m') : m'.InOrder program cells policy := by
  induction reach with
  | start => exact order
  | step before source sink ih => exact ih.of_stepsTo (StepsTo.of_step _ source sink)

theorem mayRaise (order : m.InOrder program cells policy) (short : Text.Writable cells)
    (undone : m.done = false) {c : Config} {e : StepError}
    (steps : StepsTo m source sink c (some e)) : m.MayRaise source sink e := by
  obtain ⟨rfl, rfl, rfl, pointer_lt, ip_le⟩ := order
  cases steps with
  | pastEnd ended =>
    have beyond := Array.getElem?_eq_none_iff.1 ended
    have inside := of_decide_eq_false undone
    exact absurd beyond inside
  | stuck moving target =>
    rcases moving with ⟨-, rfl⟩ | ⟨-, rfl⟩
    · rw [target_one pointer_lt] at target
      by_cases inside : m.pointer + 1 < m.tape.size
      · simp [inside] at target
      · cases policy : m.policy with
        | wrap => simp [inside, policy] at target
        | bounded =>
          simp only [inside, ↓reduceIte, policy, Except.error.injEq] at target
          rw [← target, StepError.outOfTape_of_writable short]
          exact .outOfTape policy (Or.inr rfl)
    · rw [target_neg_one pointer_lt] at target
      cases here : m.pointer with
      | succ pointer => simp [here] at target
      | zero =>
        cases policy : m.policy with
        | wrap => simp [here, policy] at target
        | bounded =>
          simp only [here, policy, Except.error.injEq] at target
          rw [← target, StepError.outOfTape_of_writable (by decide)]
          exact .outOfTape policy (Or.inl rfl)
  | refused writing cell refused answer => exact .sinkRefused refused answer
  | readsNowhere reading answer offTape => omega
  | exhausted reading answer => exact .exhausted answer
  | failed reading answer => exact .failed answer
  | reported reading answer => exact .sourceReported answer
  | raised reading answer => exact .sourceRaised answer
  | unbalanced jumping unresolved => exact .unbalanced unresolved
  | partnerless jumping resolved missing =>
    obtain ⟨partner, entry, -⟩ := exists_spans_of_jumps jumping resolved
    simp [missing] at entry
  | nowhere touching offTape => omega

end InOrder

end Machine

def Escape.FromDevices (source : Source) (sink : Sink) : Escape → Prop
  | sourceRaised text => ∃ i, source.readings i = .raised text
  | sinkFailed reason => ∃ offered value, sink.refusal offered value = some (.failed reason)
  | sinkRaised text => ∃ offered value, sink.refusal offered value = some (.raised text)
  | _ => False

theorem Machine.MayRaise.fromDevices {m : Machine} {source : Source} {sink : Sink} {e : Escape}
    (raised : m.MayRaise source sink (.escape e)) : e.FromDevices source sink := by
  cases raised with
  | @sinkRefused value refusal _ refused answer =>
    rw [sink.write_snd] at refused
    cases refusal with
    | failed reason =>
      obtain rfl := StepError.escape.inj answer
      exact ⟨sink.offered, value, refused⟩
    | reported fault => contradiction
    | raised text =>
      obtain rfl := StepError.escape.inj answer
      exact ⟨sink.offered, value, refused⟩
  | sourceRaised answer => exact ⟨source.position + 0, answer⟩

/-- A machine in order with devices that answer as the given ones do. -/
structure Config.InOrder (program : Program) (cells : Nat) (policy : PointerPolicy)
    (source : Source) (sink : Sink) (c : Config) : Prop where
  machine : c.machine.InOrder program cells policy
  readings_eq : c.source.readings = source.readings
  refusal_eq : c.sink.refusal = sink.refusal

namespace Config.InOrder

variable {program : Program} {cells : Nat} {policy : PointerPolicy} {source : Source}
  {sink : Sink} {c next : Config} {e : Option StepError}

theorem of_step (order : c.InOrder program cells policy source sink)
    (step : c.step = (next, e)) : next.InOrder program cells policy source sink := by
  have steps := StepsTo.of_step c.machine c.source c.sink
  rw [step] at steps
  have devices := steps.devices_eq
  refine ⟨order.machine.of_stepsTo steps, ?_, ?_⟩
  · exact devices.1.trans order.readings_eq
  · exact devices.2.trans order.refusal_eq

theorem fromDevices_of_step {escape : Escape} (order : c.InOrder program cells policy source sink)
    (short : Text.Writable cells) (undone : c.machine.done = false)
    (step : c.step = (next, some (.escape escape))) : escape.FromDevices source sink := by
  have steps := StepsTo.of_step c.machine c.source c.sink
  rw [step] at steps
  have devices := (order.machine.mayRaise short undone steps).fromDevices
  cases escape with
  | sourceRaised text => simpa [Escape.FromDevices, order.readings_eq] using devices
  | sinkFailed reason => simpa [Escape.FromDevices, order.refusal_eq] using devices
  | sinkRaised text => simpa [Escape.FromDevices, order.refusal_eq] using devices
  | noCell | noInstruction | emptyTape | noPartner | unwritable => exact devices

end Config.InOrder

/-- A run lets no escape out that its devices have not made. -/
theorem fromDevices_of_execute {program : Program} {policy : PointerPolicy} {cells : Nat}
    {source : Source} {sink : Sink} (positive : 0 < cells) (short : Text.Writable cells)
    {fuel : Nat} {x : Execution} {escape : Escape}
    (executed : execute fuel program cells policy source sink = some x)
    (outcome : x.outcome = .escaped escape) : escape.FromDevices source sink := by
  cases resolved : program.jumps with
  | error e =>
    rw [execute_of_unbalanced cells policy source sink resolved, Option.some.injEq] at executed
    subst executed
    simp at outcome
  | ok table =>
    rw [execute_of_balanced cells policy source sink resolved, Option.map_eq_some_iff] at executed
    obtain ⟨⟨d, e⟩, ended, rfl⟩ := executed
    rw [Execution.outcome_ofStop] at outcome
    have start : Config.InOrder program cells policy source sink
        ⟨.fresh program cells policy, source, sink⟩ :=
      ⟨.fresh program policy positive, rfl, rfl⟩
    rcases Config.run_keeps (fun c next order _ step => order.of_step step) start ended with
      ⟨rfl, -⟩ | ⟨last, f, rfl, order, undone, step⟩
    · simp [Outcome.ofStop] at outcome
    · cases f with
      | fault f => simp [Outcome.ofStop] at outcome
      | escape e =>
        simp only [Outcome.ofStop, Outcome.escaped.injEq] at outcome
        subst outcome
        exact order.fromDevices_of_step short undone step

/-- A tape is never so long that the number of its cells could not be written. -/
theorem writable_of_lt_limit {cells : Nat} (fits : (cells : Int) < Word.limit) :
    Text.Writable cells := by
  have short : cells < Nat.pow 10 20 := by
    have limit : Word.limit < Nat.pow 10 20 := by decide
    omega
  have digits : cells.repr.length ≤ 20 := (Text.length_repr_le_iff_lt_pow (by decide)).2 short
  exact Nat.le_trans digits (by decide)

/-- On a tape of some length below the limit of a word, a machine can only become one in order,
which fails only by the fault of its program, of its input or of its devices. So a run for which
memory has room lets nothing out but what its devices have raised. -/
theorem Machine.fresh_stays_in_order (program : Program) {cells : Nat} (policy : PointerPolicy)
    (positive : 0 < cells) (fits : (cells : Int) < Word.limit) :
    (∀ m, (Machine.fresh program cells policy).Reachable m →
      m.InOrder program cells policy ∧
      (∀ value ∈ m.tape, value.toNat ≤ 255) ∧
      (m.done = true ↔ m.ip = program.size) ∧
      (m.done = false → ∀ source sink,
        (∀ e, (Config.step ⟨m, source, sink⟩).2 = some e → m.MayRaise source sink e) ∧
        ((Config.step ⟨m, source, sink⟩).1.sink.offered = sink.offered ∨
          ∃ value, m.cell? = some value ∧ value.toNat ≤ 255 ∧
            (Config.step ⟨m, source, sink⟩).1.sink.offered = sink.offered.push value))) ∧
    ∀ fuel source sink,
      (∀ room, (cells ≤ room → executeSized room fuel program cells policy source sink =
          .ok (execute fuel program cells policy source sink)) ∧
        (room < cells →
          executeSized room fuel program cells policy source sink = .error .outOfMemory)) ∧
      ∀ x e, execute fuel program cells policy source sink = some x → x.outcome = .escaped e →
        e.FromDevices source sink := by
  have short := writable_of_lt_limit fits
  constructor
  · intro m reach
    have order := (InOrder.fresh program policy positive).of_reachable reach
    refine ⟨order, ?_, order.done_iff, ?_⟩
    · intro value _
      have bound := value.toNat_lt
      omega
    · intro undone source sink
      have steps := StepsTo.of_step m source sink
      constructor
      · intro e fails
        rw [fails] at steps
        exact order.mayRaise short undone steps
      · rcases steps.offered_eq with same | ⟨value, cell, offered⟩
        · exact Or.inl same
        · have bound := value.toNat_lt
          exact Or.inr ⟨value, cell, by omega, offered⟩
  · intro fuel source sink
    constructor
    · intro room
      constructor
      · intro enough
        exact executeSized_natCast fits enough fuel program policy source sink
      · intro large
        exact executeSized_of_room_lt fits large
    · intro x e executed outcome
      exact fromDevices_of_execute positive short executed outcome

theorem Machine.fresh_stays_in_order_wrapping :
    0 < 2 ∧ ((2 : Nat) : Int) < Word.limit ∧
      (Config.step ⟨.fresh (Program.ofString ",<") 2 .wrap, .ofReadings #[.value 511],
        .unlimited⟩).1.machine.InOrder (Program.ofString ",<") 2 .wrap := by
  have positive : 0 < 2 := by decide
  have fits : ((2 : Nat) : Int) < Word.limit := by decide
  have order := (Machine.fresh_stays_in_order (Program.ofString ",<") .wrap positive fits).1 _
    (Reachable.start.step (Source.ofReadings #[.value 511]) Sink.unlimited)
  exact ⟨positive, fits, order.1⟩

/-- From a size that fits into no word there is no tape, whatever memory has room for, and the run
never begins. -/
theorem not_executeSized_always_runs :
    ¬∀ size : Int, 1 ≤ size → ∃ room, ∀ fuel program policy source sink,
      ∃ executed, executeSized room fuel program size policy source sink = .ok executed := by
  intro runs
  obtain ⟨room, runs⟩ := runs Word.limit (by decide)
  obtain ⟨executed, made⟩ := runs 0 (Program.ofString "") .bounded (Source.ofBytes #[])
    Sink.unlimited
  rw [executeSized_of_limit_le (Int.le_refl _)] at made
  contradiction

end ByteTape

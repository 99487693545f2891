import ByteTape.Step

set_option autoImplicit false

namespace ByteTape

namespace Sink

@[simp]
theorem refusal_write (s : Sink) (b : UInt8) : (s.write b).1.refusal = s.refusal := by
  obtain ⟨refusal, offered, received⟩ := s
  cases answer : refusal offered b <;> simp [write, answer]

@[simp]
theorem offered_write (s : Sink) (b : UInt8) : (s.write b).1.offered = s.offered.push b := by
  obtain ⟨refusal, offered, received⟩ := s
  cases answer : refusal offered b <;> simp [write, answer]

theorem write_snd (s : Sink) (b : UInt8) : (s.write b).2 = s.refusal s.offered b := by
  obtain ⟨refusal, offered, received⟩ := s
  cases answer : refusal offered b <;> simp [write, answer]

end Sink

theorem Source.read_eq (s : Source) : s.read = (s.unread 0, s.read.2) := rfl

namespace Machine

theorem target_one {m : Machine} (onTape : m.pointer < m.tape.size) :
    m.target 1 =
      if m.pointer + 1 < m.tape.size then .ok (m.pointer + 1)
      else match m.policy with
        | .bounded => .error (.outOfTape m.tape.size m.tape.size m.ip)
        | .wrap => .ok 0 := by
  unfold target
  by_cases inside : m.pointer + 1 < m.tape.size
  · have goal : 0 ≤ (m.pointer : Int) + 1 ∧ (m.pointer : Int) + 1 < m.tape.size := by omega
    have size : m.tape.size ≠ 0 := by omega
    have wrapped : ((m.pointer : Int) + 1) % m.tape.size = m.pointer + 1 :=
      Int.emod_eq_of_lt goal.1 goal.2
    have position : ((m.pointer : Int) + 1).toNat = m.pointer + 1 := by omega
    cases m.policy <;> simp [goal, size, wrapped, position, inside]
  · have last : m.tape.size = m.pointer + 1 := by omega
    cases m.policy <;> simp [last]

theorem target_neg_one {m : Machine} (onTape : m.pointer < m.tape.size) :
    m.target (-1) =
      match m.pointer, m.policy with
      | pointer + 1, _ => .ok pointer
      | 0, .bounded => .error (.outOfTape (-1) m.tape.size m.ip)
      | 0, .wrap => .ok (m.tape.size - 1) := by
  unfold target
  have size : m.tape.size ≠ 0 := by omega
  cases here : m.pointer with
  | zero =>
    have wrapped : (-1 : Int) % m.tape.size = (m.tape.size - 1 : Nat) := by
      rw [← Int.add_emod_right]
      rw [Int.emod_eq_of_lt (by omega) (by omega)]
      omega
    cases m.policy <;> simp [size, wrapped]
  | succ pointer =>
    have back : (pointer : Int) + 1 + -1 = pointer := by omega
    have goal : 0 ≤ (pointer : Int) ∧ (pointer : Int) < m.tape.size := by omega
    have wrapped : (pointer : Int) % m.tape.size = pointer := Int.emod_eq_of_lt goal.1 goal.2
    cases m.policy
    · simp [back, goal.2]
    · simp [back, size, wrapped]

/-- A pointer that cannot move has no tape to go round, or would leave it. -/
theorem error_of_target {m : Machine} {delta : Int} {e : StepError}
    (target : m.target delta = .error e) :
    e = .escape .emptyTape ∨ e = .outOfTape (m.pointer + delta) m.tape.size m.ip := by
  unfold Machine.target at target
  cases policy : m.policy with
  | wrap =>
    by_cases size : m.tape.size = 0
    · simp only [policy, size, ↓reduceIte, Except.error.injEq] at target
      exact Or.inl target.symm
    · simp [policy, size] at target
  | bounded =>
    by_cases inside : 0 ≤ (m.pointer : Int) + delta ∧ (m.pointer : Int) + delta < m.tape.size
    · simp [policy, inside] at target
    · simp only [policy, inside, ↓reduceIte, Except.error.injEq] at target
      exact Or.inr target.symm

theorem pointer_lt_of_target {m : Machine} {delta : Int} {pointer : Nat}
    (positive : 0 < m.tape.size) (target : m.target delta = .ok pointer) :
    pointer < m.tape.size := by
  unfold Machine.target at target
  cases policy : m.policy with
  | bounded =>
    rw [policy] at target
    by_cases inside : 0 ≤ (m.pointer : Int) + delta ∧ (m.pointer : Int) + delta < m.tape.size
    · simp only [inside, and_self, ↓reduceIte, Except.ok.injEq] at target
      omega
    · simp only [inside, ↓reduceIte, reduceCtorEq] at target
  | wrap =>
    have size : m.tape.size ≠ 0 := by omega
    simp only [policy, size, ↓reduceIte, Except.ok.injEq] at target
    have below := Int.emod_lt_of_pos ((m.pointer : Int) + delta)
      (show (0 : Int) < m.tape.size by omega)
    omega

/-- The current instruction moves the pointer by `delta`. -/
def Moves (m : Machine) (delta : Int) : Prop :=
  m.instruction? = some .right ∧ delta = 1 ∨ m.instruction? = some .left ∧ delta = -1

/-- The current instruction applies `f` to the current cell. -/
def Alters (m : Machine) (f : UInt8 → UInt8) : Prop :=
  m.instruction? = some .increment ∧ f = (· + 1) ∨ m.instruction? = some .decrement ∧ f = (· - 1)

/-- The current instruction is a bracket that the value of the current cell lets jump. -/
def Jumps (m : Machine) : Prop :=
  ∃ value, m.cell? = some value ∧
    (m.instruction? = some .openLoop ∧ value = 0 ∨ m.instruction? = some .closeLoop ∧ value ≠ 0)

/-- The current instruction is a bracket that the value of the current cell lets pass. -/
def Passes (m : Machine) : Prop :=
  ∃ value, m.cell? = some value ∧
    (m.instruction? = some .openLoop ∧ value ≠ 0 ∨ m.instruction? = some .closeLoop ∧ value = 0)

end Machine

theorem Config.step_of_instruction? {c : Config} {i : Instruction}
    (found : c.machine.instruction? = some i) : c.step = c.perform i := by
  obtain ⟨ch, fetched, written⟩ := Option.bind_eq_some_iff.1 found
  simp only [step, fetched, written]

/-- A step of an instruction that neither reads nor writes does not touch its devices. -/
theorem Config.step_of_idle {m : Machine} (unread : m.instruction? ≠ some .read)
    (unwritten : m.instruction? ≠ some .write) (source source' : Source) (sink sink' : Sink) :
    step ⟨m, source', sink'⟩ =
      (⟨(step ⟨m, source, sink⟩).1.machine, source', sink'⟩, (step ⟨m, source, sink⟩).2) := by
  unfold Machine.instruction? at unread unwritten
  simp only [step]
  cases fetched : m.program.fetch? m.ip with
  | none => rfl
  | some ch =>
    cases written : Instruction.ofChar? ch with
    | none => simp only [written, skip]
    | some i =>
      simp only [written, perform]
      cases i with
      | right | left =>
        simp only [shift]
        split <;> rfl
      | increment | decrement =>
        simp only [alter]
        split <;> rfl
      | write => simp [fetched, written] at unwritten
      | read => simp [fetched, written] at unread
      | openLoop | closeLoop =>
        simp only [jump]
        split <;> rfl

/-- All that a step of a machine with a source and a sink can do. -/
inductive StepsTo (m : Machine) (source : Source) (sink : Sink) :
    Config → Option StepError → Prop
  | pastEnd (ended : m.program.fetch? m.ip = none) :
      StepsTo m source sink ⟨m, source, sink⟩ (some (.escape .noInstruction))
  | comment {c : Char} (fetched : m.program.fetch? m.ip = some c)
      (plain : Instruction.ofChar? c = none) :
      StepsTo m source sink ⟨{ m with ip := m.ip + 1 }, source, sink⟩ none
  | moves {delta : Int} {pointer : Nat} (moving : m.Moves delta)
      (target : m.target delta = .ok pointer) :
      StepsTo m source sink ⟨{ m with pointer := pointer, ip := m.ip + 1 }, source, sink⟩ none
  | stuck {delta : Int} {e : StepError} (moving : m.Moves delta)
      (target : m.target delta = .error e) : StepsTo m source sink ⟨m, source, sink⟩ (some e)
  | alters {f : UInt8 → UInt8} (altering : m.Alters f) (onTape : m.pointer < m.tape.size) :
      StepsTo m source sink
        ⟨{ m with tape := m.tape.modify m.pointer f, ip := m.ip + 1 }, source, sink⟩ none
  | writes {value : UInt8} (writing : m.instruction? = some .write) (cell : m.cell? = some value)
      (accepted : (sink.write value).2 = none) :
      StepsTo m source sink ⟨{ m with output := m.output.push value, ip := m.ip + 1 }, source,
        (sink.write value).1⟩ none
  | refused {value : UInt8} {refusal : Refusal} {e : StepError}
      (writing : m.instruction? = some .write) (cell : m.cell? = some value)
      (refused : (sink.write value).2 = some refusal) (answer : .ofRefusal refusal = e) :
      StepsTo m source sink ⟨m, source, (sink.write value).1⟩ (some e)
  | reads {n : Int} (reading : m.instruction? = some .read) (answer : source.unread 0 = .value n)
      (onTape : m.pointer < m.tape.size) :
      StepsTo m source sink ⟨{ m with
        tape := m.tape.modify m.pointer fun _ => UInt8.ofInt n, ip := m.ip + 1 },
        source.read.2, sink⟩ none
  | readsNowhere {n : Int} (reading : m.instruction? = some .read)
      (answer : source.unread 0 = .value n) (offTape : m.tape.size ≤ m.pointer) :
      StepsTo m source sink ⟨m, source.read.2, sink⟩ (some (.escape .noCell))
  | exhausted (reading : m.instruction? = some .read) (answer : source.unread 0 = .endOfInput) :
      StepsTo m source sink ⟨m, source.read.2, sink⟩ (some (.fault (.input m.ip .exhausted)))
  | failed {reason : String} (reading : m.instruction? = some .read)
      (answer : source.unread 0 = .failed reason) :
      StepsTo m source sink ⟨m, source.read.2, sink⟩
        (some (.fault (.input m.ip (.device reason))))
  | reported {fault : ForeignFault} (reading : m.instruction? = some .read)
      (answer : source.unread 0 = .reported fault) :
      StepsTo m source sink ⟨m, source.read.2, sink⟩ (some (.fault (.foreign fault)))
  | raised {text : String} (reading : m.instruction? = some .read)
      (answer : source.unread 0 = .raised text) :
      StepsTo m source sink ⟨m, source.read.2, sink⟩ (some (.escape (.sourceRaised text)))
  | passes (passing : m.Passes) :
      StepsTo m source sink ⟨{ m with ip := m.ip + 1 }, source, sink⟩ none
  | jumps {table : JumpTable} {partner : Nat} (jumping : m.Jumps)
      (resolved : m.program.jumps = .ok table) (found : table.partner? m.ip = some partner) :
      StepsTo m source sink ⟨{ m with ip := partner + 1 }, source, sink⟩ none
  | unbalanced {e : BracketError} (jumping : m.Jumps) (unresolved : m.program.jumps = .error e) :
      StepsTo m source sink ⟨m, source, sink⟩ (some (.fault (.unbalanced e)))
  | partnerless {table : JumpTable} (jumping : m.Jumps) (resolved : m.program.jumps = .ok table)
      (missing : table.partner? m.ip = none) :
      StepsTo m source sink ⟨m, source, sink⟩ (some (.escape .noPartner))
  | nowhere (touching : m.instruction? ≠ none) (offTape : m.tape.size ≤ m.pointer) :
      StepsTo m source sink ⟨m, source, sink⟩ (some (.escape .noCell))

namespace StepsTo

variable {m : Machine} {source : Source} {sink : Sink} {c : Config} {e : Option StepError}

theorem of_shift {delta : Int} (moving : m.Moves delta) :
    StepsTo m source sink (Config.shift delta ⟨m, source, sink⟩).1
      (Config.shift delta ⟨m, source, sink⟩).2 := by
  cases target : m.target delta with
  | ok pointer =>
    simp only [Config.shift, target]
    exact .moves moving target
  | error e =>
    simp only [Config.shift, target]
    exact .stuck moving target

theorem of_alter {f : UInt8 → UInt8} (altering : m.Alters f) :
    StepsTo m source sink (Config.alter f ⟨m, source, sink⟩).1
      (Config.alter f ⟨m, source, sink⟩).2 := by
  by_cases onTape : m.pointer < m.tape.size
  · simp only [Config.alter, onTape, ↓reduceIte]
    exact .alters altering onTape
  · simp only [Config.alter, onTape, ↓reduceIte]
    apply StepsTo.nowhere
    · rcases altering with ⟨instruction, -⟩ | ⟨instruction, -⟩ <;> simp [instruction]
    · omega

theorem of_emit (writing : m.instruction? = some .write) :
    StepsTo m source sink (Config.emit ⟨m, source, sink⟩).1
      (Config.emit ⟨m, source, sink⟩).2 := by
  cases cell : m.cell? with
  | none =>
    simp only [Config.emit, cell]
    apply StepsTo.nowhere
    · simp [writing]
    · simpa [Machine.cell?] using cell
  | some value =>
    rcases written : sink.write value with ⟨after, refusal⟩
    cases refusal with
    | none =>
      have accepted : (sink.write value).2 = none := by rw [written]
      have step : StepsTo m source sink _ _ := .writes writing cell accepted
      simpa only [Config.emit, cell, written] using step
    | some refusal =>
      have refused : (sink.write value).2 = some refusal := by rw [written]
      have step : StepsTo m source sink _ _ := .refused writing cell refused rfl
      simpa only [Config.emit, cell, written] using step

theorem of_accept (reading : m.instruction? = some .read) :
    StepsTo m source sink (Config.accept ⟨m, source, sink⟩).1
      (Config.accept ⟨m, source, sink⟩).2 := by
  simp only [Config.accept]
  rw [source.read_eq]
  cases answer : source.unread 0 with
  | value n =>
    by_cases onTape : m.pointer < m.tape.size
    · simp only [Config.alter, onTape, ↓reduceIte]
      exact .reads reading answer onTape
    · simp only [Config.alter, onTape, ↓reduceIte]
      exact .readsNowhere reading answer (by omega)
  | endOfInput => exact .exhausted reading answer
  | failed reason => exact .failed reading answer
  | reported fault => exact .reported reading answer
  | raised text => exact .raised reading answer

theorem of_jump {i : Instruction} {jumps : UInt8 → Bool} (bracket : m.instruction? = some i)
    (jumping : ∀ value, m.cell? = some value → jumps value = true → m.Jumps)
    (passing : ∀ value, m.cell? = some value → jumps value = false → m.Passes) :
    StepsTo m source sink (Config.jump jumps ⟨m, source, sink⟩).1
      (Config.jump jumps ⟨m, source, sink⟩).2 := by
  cases cell : m.cell? with
  | none =>
    simp only [Config.jump, Machine.branch, cell]
    apply StepsTo.nowhere
    · simp [bracket]
    · simpa [Machine.cell?] using cell
  | some value =>
    cases taken : jumps value with
    | false =>
      simp only [Config.jump, Machine.branch, cell, taken, Bool.false_eq_true, ↓reduceIte]
      exact .passes (passing value cell taken)
    | true =>
      have jumping := jumping value cell taken
      cases resolved : m.program.jumps with
      | error e =>
        simp only [Config.jump, Machine.branch, Machine.landing, cell, taken, ↓reduceIte, resolved]
        exact .unbalanced jumping resolved
      | ok table =>
        cases found : table.partner? m.ip with
        | none =>
          simp only [Config.jump, Machine.branch, Machine.landing, cell, taken, ↓reduceIte,
            resolved, found]
          exact .partnerless jumping resolved found
        | some partner =>
          simp only [Config.jump, Machine.branch, Machine.landing, cell, taken, ↓reduceIte,
            resolved, found]
          exact .jumps jumping resolved found

theorem of_step (m : Machine) (source : Source) (sink : Sink) :
    StepsTo m source sink (Config.step ⟨m, source, sink⟩).1
      (Config.step ⟨m, source, sink⟩).2 := by
  cases fetched : m.program.fetch? m.ip with
  | none =>
    simp only [Config.step, fetched]
    exact .pastEnd fetched
  | some c =>
    cases written : Instruction.ofChar? c with
    | none =>
      simp only [Config.step, fetched, written]
      exact .comment fetched written
    | some i =>
      have instruction : m.instruction? = some i := by
        simp [Machine.instruction?, fetched, written]
      simp only [Config.step, fetched, written]
      cases i with
      | right => exact of_shift (Or.inl ⟨instruction, rfl⟩)
      | left => exact of_shift (Or.inr ⟨instruction, rfl⟩)
      | increment => exact of_alter (Or.inl ⟨instruction, rfl⟩)
      | decrement => exact of_alter (Or.inr ⟨instruction, rfl⟩)
      | write => exact of_emit instruction
      | read => exact of_accept instruction
      | openLoop =>
        apply of_jump instruction
        · intro value cell zero
          exact ⟨value, cell, Or.inl ⟨instruction, by simpa using zero⟩⟩
        · intro value cell nonzero
          exact ⟨value, cell, Or.inl ⟨instruction, by simpa using nonzero⟩⟩
      | closeLoop =>
        apply of_jump instruction
        · intro value cell nonzero
          exact ⟨value, cell, Or.inr ⟨instruction, by simpa using nonzero⟩⟩
        · intro value cell zero
          exact ⟨value, cell, Or.inr ⟨instruction, by simpa using zero⟩⟩

theorem program_eq (steps : StepsTo m source sink c e) : c.machine.program = m.program := by
  cases steps <;> rfl

theorem policy_eq (steps : StepsTo m source sink c e) : c.machine.policy = m.policy := by
  cases steps <;> rfl

theorem size_tape (steps : StepsTo m source sink c e) : c.machine.tape.size = m.tape.size := by
  cases steps with
  | alters altering onTape => exact Array.size_modify
  | reads reading answer onTape => exact Array.size_modify
  | _ => rfl

theorem onTape (steps : StepsTo m source sink c e) (onTape : m.pointer < m.tape.size) :
    c.machine.pointer < c.machine.tape.size := by
  rw [steps.size_tape]
  cases steps with
  | moves moving target => exact Machine.pointer_lt_of_target (by omega) target
  | _ => exact onTape

theorem devices_eq (steps : StepsTo m source sink c e) :
    c.source.readings = source.readings ∧ c.sink.refusal = sink.refusal := by
  cases steps with
  | writes writing cell accepted => exact ⟨rfl, sink.refusal_write _⟩
  | refused writing cell refused answer => exact ⟨rfl, sink.refusal_write _⟩
  | _ => exact ⟨rfl, rfl⟩

theorem offered_eq (steps : StepsTo m source sink c e) :
    c.sink.offered = sink.offered ∨
      ∃ value, m.cell? = some value ∧ c.sink.offered = sink.offered.push value := by
  cases steps with
  | writes writing cell accepted => exact Or.inr ⟨_, cell, sink.offered_write _⟩
  | refused writing cell refused answer => exact Or.inr ⟨_, cell, sink.offered_write _⟩
  | _ => exact Or.inl rfl

/-- Only a reading step can fail for want of input, and only when it gets no value. -/
theorem reads_of_input {ip : Nat} {reason : InputError}
    (steps : StepsTo m source sink c (some (.fault (.input ip reason)))) :
    m.instruction? = some .read ∧ ∀ n, source.unread 0 ≠ .value n := by
  cases steps with
  | exhausted reading answer => exact ⟨reading, by simp [answer]⟩
  | failed reading answer => exact ⟨reading, by simp [answer]⟩
  | stuck moving target =>
    rcases Machine.error_of_target target with empty | outside
    · contradiction
    · unfold StepError.outOfTape at outside
      split at outside <;> simp at outside
  | @refused _ refusal _ writing cell refused answer =>
    cases refusal <;> simp [StepError.ofRefusal] at answer

end StepsTo

end ByteTape

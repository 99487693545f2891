import ByteTape.Proofs.Emission

set_option autoImplicit false

namespace ByteTape

namespace Config

/-- What a step that fails makes of `c`. -/
structure Spared (c d : Config) : Prop where
  machine_eq : d.machine = c.machine
  received_eq : d.sink.received = c.sink.received
  source_eq : d.source = c.source ∨
    c.machine.instruction? = some .read ∧ d.source = c.source.read.2

/-- What a step that succeeds makes of `c`, at most. -/
structure Altered (c d : Config) : Prop where
  program_eq : d.machine.program = c.machine.program
  policy_eq : d.machine.policy = c.machine.policy
  size_tape : d.machine.tape.size = c.machine.tape.size
  elsewhere : ∀ i, i ≠ c.machine.pointer → d.machine.tape[i]? = c.machine.tape[i]?
  tape_eq : c.machine.instruction? ≠ some .increment → c.machine.instruction? ≠ some .decrement →
    c.machine.instruction? ≠ some .read → d.machine.tape = c.machine.tape
  pointer_eq : c.machine.instruction? ≠ some .right → c.machine.instruction? ≠ some .left →
    d.machine.pointer = c.machine.pointer
  emits : c.machine.instruction? = some .write → ∃ value, c.machine.cell? = some value ∧
    d.machine.output = c.machine.output.push value ∧
    d.sink.received = c.sink.received.push value
  silent : c.machine.instruction? ≠ some .write →
    d.machine.output = c.machine.output ∧ d.sink = c.sink
  takes : c.machine.instruction? = some .read → d.source = c.source.read.2
  unread : c.machine.instruction? ≠ some .read → d.source = c.source
  next : ¬c.machine.Jumps → d.machine.ip = c.machine.ip + 1
  jump : c.machine.Jumps → ∃ table partner, c.machine.program.jumps = .ok table ∧
    table.partner? c.machine.ip = some partner ∧ d.machine.ip = partner + 1

end Config

theorem Machine.Jumps.instruction? {m : Machine} (jumping : m.Jumps) :
    m.instruction? = some .openLoop ∨ m.instruction? = some .closeLoop := by
  obtain ⟨value, -, ⟨opening, -⟩ | ⟨closing, -⟩⟩ := jumping
  · exact Or.inl opening
  · exact Or.inr closing

theorem Machine.Passes.not_jumps {m : Machine} (passing : m.Passes) : ¬m.Jumps := by
  rintro ⟨value, cell, jumps⟩
  obtain ⟨value', cell', passes⟩ := passing
  rw [cell, Option.some.injEq] at cell'
  subst cell'
  rcases passes with ⟨instruction, nonzero⟩ | ⟨instruction, zero⟩
  · rcases jumps with ⟨-, zero⟩ | ⟨closing, -⟩
    · exact nonzero zero
    · simp [instruction] at closing
  · rcases jumps with ⟨opening, -⟩ | ⟨-, nonzero⟩
    · simp [instruction] at opening
    · exact nonzero zero

/-- A bracket at which the pointer is on the tape jumps or is passed. -/
theorem Machine.passes_of_bracket {m : Machine} (onTape : m.pointer < m.tape.size)
    (bracket : m.instruction? = some .openLoop ∨ m.instruction? = some .closeLoop)
    (stays : ¬m.Jumps) : m.Passes := by
  have cell : m.cell? = some m.tape[m.pointer] := Array.getElem?_eq_getElem onTape
  refine ⟨_, cell, ?_⟩
  rcases bracket with opening | closing
  · exact Or.inl ⟨opening, fun zero => stays ⟨_, cell, Or.inl ⟨opening, zero⟩⟩⟩
  · refine Or.inr ⟨closing, Decidable.byContradiction fun nonzero => ?_⟩
    exact stays ⟨_, cell, Or.inr ⟨closing, nonzero⟩⟩

namespace StepsTo

variable {m : Machine} {source : Source} {sink : Sink} {c : Config} {e : StepError}

theorem spared (steps : StepsTo m source sink c (some e)) :
    Config.Spared ⟨m, source, sink⟩ c := by
  cases steps with
  | pastEnd | stuck | unbalanced | partnerless | nowhere => exact ⟨rfl, rfl, Or.inl rfl⟩
  | refused writing cell refused answer =>
    exact ⟨rfl, Sink.received_write_of_refused refused, Or.inl rfl⟩
  | readsNowhere reading | exhausted reading | failed reading | reported reading
  | raised reading =>
    exact ⟨rfl, rfl, Or.inr ⟨reading, rfl⟩⟩

theorem tape_elsewhere (steps : StepsTo m source sink c none) {i : Nat} (other : i ≠ m.pointer) :
    c.machine.tape[i]? = m.tape[i]? := by
  cases steps with
  | alters | reads => rw [Array.getElem?_modify, if_neg other.symm]
  | comment | moves | writes | passes | jumps => rfl

theorem tape_eq (steps : StepsTo m source sink c none)
    (noIncrement : m.instruction? ≠ some .increment)
    (noDecrement : m.instruction? ≠ some .decrement) (unread : m.instruction? ≠ some .read) :
    c.machine.tape = m.tape := by
  cases steps with
  | alters altering =>
    rcases altering with ⟨increment, -⟩ | ⟨decrement, -⟩
    · exact absurd increment noIncrement
    · exact absurd decrement noDecrement
  | reads reading => exact absurd reading unread
  | comment | moves | writes | passes | jumps => rfl

theorem pointer_eq (steps : StepsTo m source sink c none)
    (noRight : m.instruction? ≠ some .right) (noLeft : m.instruction? ≠ some .left) :
    c.machine.pointer = m.pointer := by
  cases steps with
  | moves moving =>
    rcases moving with ⟨right, -⟩ | ⟨left, -⟩
    · exact absurd right noRight
    · exact absurd left noLeft
  | comment | alters | writes | reads | passes | jumps => rfl

theorem cell?_eq_of_bracket (steps : StepsTo m source sink c none)
    (bracket : m.instruction? = some .openLoop ∨ m.instruction? = some .closeLoop) :
    c.machine.cell? = m.cell? := by
  have others (i : Instruction) (opening : i ≠ .openLoop) (closing : i ≠ .closeLoop) :
      m.instruction? ≠ some i := by
    rcases bracket with found | found
    · simpa [found] using opening.symm
    · simpa [found] using closing.symm
  rw [Machine.cell?, Machine.cell?,
    steps.tape_eq (others _ (by decide) (by decide)) (others _ (by decide) (by decide))
      (others _ (by decide) (by decide)),
    steps.pointer_eq (others _ (by decide) (by decide)) (others _ (by decide) (by decide))]

theorem emits (steps : StepsTo m source sink c none) (writing : m.instruction? = some .write) :
    ∃ value, m.cell? = some value ∧ c.machine.output = m.output.push value ∧
      c.sink.received = sink.received.push value := by
  cases steps with
  | writes _ cell accepted =>
    exact ⟨_, cell, rfl, Sink.received_write_of_accepted accepted⟩
  | comment fetched plain => simp [Machine.instruction?, fetched, plain] at writing
  | moves moving => rcases moving with ⟨other, -⟩ | ⟨other, -⟩ <;> simp [writing] at other
  | alters altering => rcases altering with ⟨other, -⟩ | ⟨other, -⟩ <;> simp [writing] at other
  | reads reading => simp [writing] at reading
  | passes passing =>
    obtain ⟨value, -, ⟨other, -⟩ | ⟨other, -⟩⟩ := passing <;> simp [writing] at other
  | jumps jumping =>
    rcases jumping.instruction? with other | other <;> simp [writing] at other

theorem ip_next (steps : StepsTo m source sink c none) (straight : ¬m.Jumps) :
    c.machine.ip = m.ip + 1 := by
  cases steps with
  | jumps jumping => exact absurd jumping straight
  | comment | moves | alters | writes | reads | passes => rfl

theorem ip_jump (steps : StepsTo m source sink c none) (jumping : m.Jumps) :
    ∃ table partner, m.program.jumps = .ok table ∧ table.partner? m.ip = some partner ∧
      c.machine.ip = partner + 1 := by
  have bracket := jumping.instruction?
  cases steps with
  | jumps _ resolved found => exact ⟨_, _, resolved, found, rfl⟩
  | comment fetched plain => simp [Machine.instruction?, fetched, plain] at bracket
  | moves moving => rcases moving with ⟨other, -⟩ | ⟨other, -⟩ <;> simp [other] at bracket
  | alters altering => rcases altering with ⟨other, -⟩ | ⟨other, -⟩ <;> simp [other] at bracket
  | writes other | reads other => simp [other] at bracket
  | passes passing => exact absurd jumping passing.not_jumps

end StepsTo

namespace Config

variable {c : Config}

theorem spared_of_error {e : StepError} (fails : c.step.2 = some e) : c.Spared c.step.1 := by
  have steps := StepsTo.of_step c.machine c.source c.sink
  rw [fails] at steps
  exact steps.spared

theorem altered_of_success (succeeds : c.step.2 = none) : c.Altered c.step.1 := by
  have steps := StepsTo.of_step c.machine c.source c.sink
  rw [succeeds] at steps
  exact {
    program_eq := steps.program_eq
    policy_eq := steps.policy_eq
    size_tape := steps.size_tape
    elsewhere := fun _ other => steps.tape_elsewhere other
    tape_eq := steps.tape_eq
    pointer_eq := steps.pointer_eq
    emits := steps.emits
    silent := fun idle => (steps.sink_eq idle).symm
    takes := source_step_of_reads
    unread := source_step
    next := steps.ip_next
    jump := steps.ip_jump }

/-- A step is made as a whole or not at all. If it fails, then nothing has changed but that a
reading step may have taken an answer. If it succeeds, then only the current cell has changed, the
pointer, the output with the sink, the source or the position, each for the instructions that are
about it. -/
theorem steps_are_whole_and_local (c : Config) :
    (∀ e, c.step.2 = some e → c.Spared c.step.1) ∧ (c.step.2 = none → c.Altered c.step.1) :=
  ⟨fun _ fails => spared_of_error fails, altered_of_success⟩

def readsTwice : Config :=
  ⟨.fresh (Program.ofString ",,") 1 .bounded, .ofReadings #[.value 300], .unlimited⟩

theorem steps_are_whole_and_local_reading :
    readsTwice.step.2 = none ∧ readsTwice.Altered readsTwice.step.1 ∧
      readsTwice.step.1.machine.tape = #[44] ∧
      (readsTwice.after 1).step.2 = some (.fault (.input 1 .exhausted)) ∧
      (readsTwice.after 1).Spared (readsTwice.after 2) := by
  have succeeds : readsTwice.step.2 = none := rfl
  have fails : (readsTwice.after 1).step.2 = some (.fault (.input 1 .exhausted)) := rfl
  have altered := (steps_are_whole_and_local readsTwice).2 succeeds
  have spared := (steps_are_whole_and_local (readsTwice.after 1)).1 _ fails
  exact ⟨succeeds, altered, rfl, fails, spared⟩

end Config

end ByteTape

import ByteTape.Proofs.Resumption

set_option autoImplicit false

namespace ByteTape

namespace Fault

/-- The fault of a program in which everything at a position `i` is at `place i` instead. A foreign
fault stays as it is: it names no position of this program. -/
def relocate (place : Nat → Nat) : Fault → Fault
  | outOfTape pointer cells ip => .outOfTape pointer cells (place ip)
  | unbalanced e => .unbalanced ⟨place e.position, e.bracket⟩
  | input ip e => .input (place ip) e
  | foreign fault => .foreign fault

@[simp]
theorem relocate_id (f : Fault) : f.relocate id = f := by
  cases f <;> rfl

end Fault

namespace StepError

def relocate (place : Nat → Nat) : StepError → StepError
  | fault f => .fault (f.relocate place)
  | escape e => .escape e

@[simp]
theorem relocate_id (e : StepError) : e.relocate id = e := by
  cases e <;> simp [relocate]

@[simp]
theorem relocate_outOfTape (place : Nat → Nat) (goal : Int) (cells ip : Nat) :
    (outOfTape goal cells ip).relocate place = outOfTape goal cells (place ip) := by
  unfold outOfTape
  split <;> rfl

@[simp]
theorem relocate_ofRefusal (place : Nat → Nat) (refusal : Refusal) :
    (ofRefusal refusal).relocate place = ofRefusal refusal := by
  cases refusal <;> rfl

end StepError

namespace Config

def onMachine (f : Machine → Machine) (c : Config) : Config :=
  { c with machine := f c.machine }

/-- What a step leads to when it is made by the machine `m` and its successes are seen through
`f`. -/
def transfer (place : Nat → Nat) (f : Machine → Machine) (m : Machine) :
    Config × Option StepError → Config × Option StepError
  | (c, none) => (c.onMachine f, none)
  | (c, some e) => (c.onMachine fun _ => m, some (e.relocate place))

end Config

/-- Says that `m'` answers a step as `m` does. Where a step leads from `m` is seen through `f` where
it leads from `m'`, and the positions in errors are moved by `place`. -/
structure Machine.Alike (place : Nat → Nat) (f : Machine → Machine) (m m' : Machine) : Prop where
  fetch?_eq : m'.program.fetch? m'.ip = m.program.fetch? m.ip
  ip_eq : m'.ip = place m.ip
  cell?_eq : m'.cell? = m.cell?
  next_eq : f { m with ip := m.ip + 1 } = { m' with ip := m'.ip + 1 }
  alter_eq : ∀ change, f { m with tape := m.tape.modify m.pointer change, ip := m.ip + 1 } =
    { m' with tape := m'.tape.modify m'.pointer change, ip := m'.ip + 1 }
  write_eq : ∀ value, f { m with output := m.output.push value, ip := m.ip + 1 } =
    { m' with output := m'.output.push value, ip := m'.ip + 1 }
  target_eq : ∀ delta, m.Moves delta →
    (∃ e, m.target delta = .error e ∧ m'.target delta = .error (e.relocate place)) ∨
      ∃ p p', m.target delta = .ok p ∧ m'.target delta = .ok p' ∧
        f { m with pointer := p, ip := m.ip + 1 } = { m' with pointer := p', ip := m'.ip + 1 }
  landing_eq : m.Jumps →
    (∃ e, m.landing = .error e ∧ m'.landing = .error (e.relocate place)) ∨
      ∃ ip ip', m.landing = .ok ip ∧ m'.landing = .ok ip' ∧
        f { m with ip := ip } = { m' with ip := ip' }

/-- Brackets lead to the same places if `f` does not care for the position. -/
theorem Machine.landing_cases {f : Machine → Machine} {m m' : Machine}
    (same : m'.landing = m.landing) (kept : ∀ ip, f { m with ip := ip } = { m' with ip := ip }) :
    (∃ e, m.landing = .error e ∧ m'.landing = .error (e.relocate id)) ∨
      ∃ ip ip', m.landing = .ok ip ∧ m'.landing = .ok ip' ∧
        f { m with ip := ip } = { m' with ip := ip' } := by
  rw [same]
  cases m.landing with
  | error e => exact Or.inl ⟨e, rfl, by rw [StepError.relocate_id]⟩
  | ok ip => exact Or.inr ⟨ip, ip, rfl, rfl, kept ip⟩

namespace Machine.Alike

variable {place : Nat → Nat} {f : Machine → Machine} {m m' : Machine} {source : Source}
  {sink : Sink}

open Config (transfer onMachine)

theorem onTape_iff (alike : Alike place f m m') :
    m'.pointer < m'.tape.size ↔ m.pointer < m.tape.size := by
  have beyond : m'.cell? = none ↔ m.cell? = none := by rw [alike.cell?_eq]
  simp only [cell?, Array.getElem?_eq_none_iff] at beyond
  omega

theorem shift (alike : Alike place f m m') {delta : Int} (moving : m.Moves delta) :
    Config.shift delta ⟨m', source, sink⟩ =
      transfer place f m' (Config.shift delta ⟨m, source, sink⟩) := by
  rcases alike.target_eq delta moving with ⟨e, fails, fails'⟩ | ⟨p, p', goes, goes', same⟩
  · simp only [Config.shift, fails, fails', transfer, onMachine]
  · simp only [Config.shift, goes, goes', transfer, onMachine, same]

theorem alter (alike : Alike place f m m') (change : UInt8 → UInt8) :
    Config.alter change ⟨m', source, sink⟩ =
      transfer place f m' (Config.alter change ⟨m, source, sink⟩) := by
  have bound := alike.onTape_iff
  by_cases onTape : m.pointer < m.tape.size
  · simp only [Config.alter, bound.2 onTape, onTape, ↓reduceIte, transfer, onMachine,
      alike.alter_eq]
  · have offTape : ¬m'.pointer < m'.tape.size := fun inside => onTape (bound.1 inside)
    simp only [Config.alter, offTape, onTape, ↓reduceIte, transfer, onMachine]
    rfl

theorem emit (alike : Alike place f m m') :
    Config.emit ⟨m', source, sink⟩ = transfer place f m' (Config.emit ⟨m, source, sink⟩) := by
  simp only [Config.emit, alike.cell?_eq]
  cases m.cell? with
  | none => rfl
  | some value =>
    rcases written : sink.write value with ⟨after, refusal⟩
    cases refusal with
    | none => simp only [written, transfer, onMachine, alike.write_eq]
    | some refusal =>
      simp only [written, transfer, onMachine, StepError.relocate_ofRefusal]

theorem accept (alike : Alike place f m m') :
    Config.accept ⟨m', source, sink⟩ =
      transfer place f m' (Config.accept ⟨m, source, sink⟩) := by
  simp only [Config.accept]
  rw [source.read_eq]
  cases source.unread 0 with
  | value n => exact alike.alter _
  | endOfInput | failed reason =>
    simp only [alike.ip_eq]
    rfl
  | reported fault | raised text => rfl

theorem jump (alike : Alike place f m m') {jumps : UInt8 → Bool}
    (jumping : ∀ value, m.cell? = some value → jumps value = true → m.Jumps) :
    Config.jump jumps ⟨m', source, sink⟩ =
      transfer place f m' (Config.jump jumps ⟨m, source, sink⟩) := by
  simp only [Config.jump, branch, alike.cell?_eq]
  cases cell : m.cell? with
  | none => rfl
  | some value =>
    cases taken : jumps value with
    | false =>
      simp only [taken, Bool.false_eq_true, ↓reduceIte, transfer, onMachine, alike.next_eq]
    | true =>
      rcases alike.landing_eq (jumping value cell taken) with
        ⟨e, fails, fails'⟩ | ⟨ip, ip', goes, goes', same⟩
      · simp only [taken, ↓reduceIte, fails, fails', transfer, onMachine]
      · simp only [taken, ↓reduceIte, goes, goes', transfer, onMachine, same]

theorem step (alike : Alike place f m m') :
    Config.step ⟨m', source, sink⟩ = transfer place f m' (Config.step ⟨m, source, sink⟩) := by
  cases fetched : m.program.fetch? m.ip with
  | none =>
    simp only [Config.step, alike.fetch?_eq, fetched]
    rfl
  | some c =>
    cases written : Instruction.ofChar? c with
    | none =>
      simp only [Config.step, alike.fetch?_eq, fetched, written, Config.skip, transfer, onMachine,
        alike.next_eq]
    | some i =>
      have instruction : m.instruction? = some i := by
        simp [Machine.instruction?, fetched, written]
      simp only [Config.step, alike.fetch?_eq, fetched, written]
      cases i with
      | right => exact alike.shift (Or.inl ⟨instruction, rfl⟩)
      | left => exact alike.shift (Or.inr ⟨instruction, rfl⟩)
      | increment | decrement => exact alike.alter _
      | write => exact alike.emit
      | read => exact alike.accept
      | openLoop =>
        apply alike.jump
        intro value cell zero
        exact ⟨value, cell, Or.inl ⟨instruction, by simpa using zero⟩⟩
      | closeLoop =>
        apply alike.jump
        intro value cell nonzero
        exact ⟨value, cell, Or.inr ⟨instruction, by simpa using nonzero⟩⟩

end Machine.Alike

theorem StepsTo.machine_eq {m : Machine} {source : Source} {sink : Sink} {c : Config}
    {e : StepError} (steps : StepsTo m source sink c (some e)) : c.machine = m := by
  cases steps <;> rfl

namespace Config

variable {c : Config} {f : Machine → Machine} {place : Nat → Nat}

theorem machine_of_error {d : Config} {e : StepError} (fails : c.step = (d, some e)) :
    d.machine = c.machine := by
  have steps := StepsTo.of_step c.machine c.source c.sink
  rw [fails] at steps
  exact steps.machine_eq

/-- If `f` makes an alike machine, then it does not matter whether it does so before a step or
after it. -/
theorem step_onMachine (alike : Machine.Alike place f c.machine (f c.machine)) :
    (c.onMachine f).step = (c.step.1.onMachine f, c.step.2.map (·.relocate place)) := by
  have step : (c.onMachine f).step = transfer place f (f c.machine) c.step := alike.step
  rw [step]
  rcases stepped : c.step with ⟨d, e⟩
  cases e with
  | none => rfl
  | some e => simp only [transfer, onMachine, machine_of_error stepped, Option.map_some]

theorem step_onMachine_of_id (alike : Machine.Alike id f c.machine (f c.machine)) :
    (c.onMachine f).step = (c.step.1.onMachine f, c.step.2) := by
  rw [step_onMachine alike]
  cases c.step.2 <;> simp

end Config

end ByteTape

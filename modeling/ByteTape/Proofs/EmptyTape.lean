import ByteTape.Proofs.Comments
import ByteTape.Proofs.Diagnosis
import Mathlib.Data.Nat.Find

set_option autoImplicit false

namespace ByteTape

namespace Program

def IsComment (p : Program) : Prop :=
  ∀ j ch, p.fetch? j = some ch → Instruction.isCode ch = false

/-- The first instruction of the program is at position `i`. -/
structure First (p : Program) (i : Nat) (instruction : Instruction) : Prop where
  here : p.fetch? i = some instruction.toChar
  before : ∀ j < i, ∀ ch, p.fetch? j = some ch → Instruction.isCode ch = false

variable {p : Program} {i : Nat} {instruction : Instruction}

theorem isComment_or_first (p : Program) :
    p.IsComment ∨ ∃ i instruction, p.First i instruction := by
  classical
  by_cases code : ∃ j ch, p.fetch? j = some ch ∧ Instruction.isCode ch = true
  · obtain ⟨ch, fetched, written⟩ := Nat.find_spec code
    obtain ⟨instruction, rfl⟩ := Instruction.isCode_iff.1 written
    refine Or.inr ⟨Nat.find code, instruction, fetched, ?_⟩
    intro j below ch fetched
    rw [← Bool.not_eq_true]
    intro written
    exact Nat.find_min code below ⟨ch, fetched, written⟩
  · left
    intro j ch fetched
    rw [← Bool.not_eq_true]
    intro written
    exact code ⟨j, ch, fetched, written⟩

/-- In a balanced program an opening bracket comes before every closing one. -/
theorem First.ne_closeLoop (first : p.First i instruction) (balanced : p.isBalanced = true) :
    instruction ≠ .closeLoop := by
  rintro rfl
  obtain ⟨table, resolved⟩ := isBalanced_iff.1 balanced
  rw [p.jumps_eq] at resolved
  have closing : p.code.toList[i]? = some ']' := by
    rw [← fetch?_eq_getElem?]
    exact first.here
  rcases JumpTable.partner?_of_getElem? resolved closing with
    ⟨-, -, noClosing⟩ | ⟨j, -, spans | spans⟩
  · exact noClosing rfl
  · have opening := spans.getElem?_opening
    rw [closing] at opening
    cases opening
  · have opening : p.fetch? j = some '[' := by
      rw [fetch?_eq_getElem?]
      exact spans.getElem?_opening
    have comment := first.before j spans.lt _ opening
    rw [isCode_opening] at comment
    cases comment

end Program

/-- How an instruction at position `ip` ends a run on a tape without cells, where `reading` is the
answer of the source. -/
def Instruction.endWithoutCells (policy : PointerPolicy) (ip : Nat) (reading : Reading) :
    Instruction → Outcome
  | right =>
    match policy with
    | .bounded => .failed (.outOfTape 1 0 ip)
    | .wrap => .escaped .emptyTape
  | left =>
    match policy with
    | .bounded => .failed (.outOfTape (-1) 0 ip)
    | .wrap => .escaped .emptyTape
  | read =>
    match reading with
    | .value _ => .escaped .noCell
    | .endOfInput => .failed (.input ip .exhausted)
    | .failed reason => .failed (.input ip (.device reason))
    | .reported fault => .failed (.foreign fault)
    | .raised text => .escaped (.sourceRaised text)
  | increment | decrement | write | openLoop | closeLoop => .escaped .noCell

def Instruction.sourceAfter (source : Source) : Instruction → Source
  | read => source.read.2
  | _ => source

namespace Config

variable {c : Config} {i : Instruction}

theorem run_of_comments {n : Nat} (inside : c.machine.ip + n ≤ c.machine.program.size)
    (comments : ∀ j < c.machine.ip + n, ∀ ch, c.machine.program.fetch? j = some ch →
      Instruction.isCode ch = false) (fuel : Nat) :
    c.run (fuel + n) = (c.onMachine fun m => { m with ip := m.ip + n }).run fuel := by
  induction n generalizing c with
  | zero => rfl
  | succ n ih =>
    have undone : c.machine.done = false := by
      simp only [Machine.done, decide_eq_false_iff_not]
      omega
    obtain ⟨ch, fetched⟩ := Machine.exists_fetch?_of_not_done undone
    have comment : Instruction.isCode ch = false := comments _ (by omega) ch fetched
    have next : c.machine.ip + (n + 1) = c.machine.ip + 1 + n := by omega
    rw [← Nat.add_assoc, run_succ_of_step undone (step_of_comment fetched comment), ih]
    · simp only [onMachine, next]
    · rw [next] at inside
      exact inside
    · rw [next] at comments
      exact comments

theorem alter_of_offTape (offTape : c.machine.tape.size ≤ c.machine.pointer)
    (f : UInt8 → UInt8) : c.alter f = (c, some (.escape .noCell)) :=
  if_neg (by omega)

theorem emit_of_offTape (offTape : c.machine.tape.size ≤ c.machine.pointer) :
    c.emit = (c, some (.escape .noCell)) := by
  have noCell : c.machine.cell? = none := Array.getElem?_eq_none offTape
  simp only [emit, noCell]

theorem jump_of_offTape (offTape : c.machine.tape.size ≤ c.machine.pointer)
    (jumps : UInt8 → Bool) : c.jump jumps = (c, some (.escape .noCell)) := by
  have noCell : c.machine.cell? = none := Array.getElem?_eq_none offTape
  simp only [jump, Machine.branch, noCell]

theorem shift_without_cells (noCells : c.machine.tape.size = 0) (atStart : c.machine.pointer = 0)
    (delta : Int) : c.shift delta = (c, some (match c.machine.policy with
      | .bounded => .outOfTape delta 0 c.machine.ip
      | .wrap => .escape .emptyTape)) := by
  have target : c.machine.target delta = .error (match c.machine.policy with
      | .bounded => .outOfTape delta 0 c.machine.ip
      | .wrap => .escape .emptyTape) := by
    have nowhere : ¬(0 ≤ delta ∧ delta < 0) := by omega
    cases policy : c.machine.policy <;> simp [Machine.target, policy, noCells, atStart, nowhere]
  simp only [shift, target]

/-- No instruction succeeds without cells: each has its error, and nothing changes but the source of
an instruction that reads. -/
theorem step_without_cells (noCells : c.machine.tape.size = 0) (atStart : c.machine.pointer = 0)
    (found : c.machine.instruction? = some i) :
    ∃ e, c.step = ({ c with source := i.sourceAfter c.source }, some e) ∧
      ∀ output, Outcome.ofStop output (some e) =
        i.endWithoutCells c.machine.policy c.machine.ip c.source.read.1 := by
  have offTape : c.machine.tape.size ≤ c.machine.pointer := by omega
  rw [step_of_instruction? found]
  cases i with
  | right =>
    refine ⟨_, shift_without_cells noCells atStart 1, ?_⟩
    cases policy : c.machine.policy <;> intro output <;> rfl
  | left =>
    refine ⟨_, shift_without_cells noCells atStart (-1), ?_⟩
    cases policy : c.machine.policy <;> intro output <;> rfl
  | increment => exact ⟨_, alter_of_offTape offTape _, fun _ => rfl⟩
  | decrement => exact ⟨_, alter_of_offTape offTape _, fun _ => rfl⟩
  | write => exact ⟨_, emit_of_offTape offTape, fun _ => rfl⟩
  | openLoop => exact ⟨_, jump_of_offTape offTape _, fun _ => rfl⟩
  | closeLoop => exact ⟨_, jump_of_offTape offTape _, fun _ => rfl⟩
  | read =>
    obtain ⟨m, source, sink⟩ := c
    rcases read : source.read with ⟨reading, next⟩
    simp only [perform, accept, Instruction.sourceAfter, read]
    cases reading with
    | value n =>
      have noCell := alter_of_offTape (c := ⟨m, next, sink⟩) offTape fun _ => UInt8.ofInt n
      exact ⟨_, noCell, fun _ => rfl⟩
    | endOfInput => exact ⟨_, rfl, fun _ => rfl⟩
    | failed reason => exact ⟨_, rfl, fun _ => rfl⟩
    | reported fault => exact ⟨_, rfl, fun _ => rfl⟩
    | raised text => exact ⟨_, rfl, fun _ => rfl⟩

end Config

section Execute

variable (program : Program) (policy : PointerPolicy) (source : Source) (sink : Sink)

/-- What a run on a tape without cells is when it has come to the position `ip`. -/
def Config.withoutCells (ip : Nat) : Config :=
  ⟨{ Machine.fresh program 0 policy with ip := ip }, source, sink⟩

variable {program} {room fuel : Nat}

theorem execute_without_cells {n : Nat} (balanced : program.isBalanced = true)
    (inside : n ≤ program.size)
    (comments : ∀ j < n, ∀ ch, program.fetch? j = some ch → Instruction.isCode ch = false)
    (fuel : Nat) : execute (fuel + n) program 0 policy source sink =
      ((Config.withoutCells program policy source sink n).run fuel).map fun (d, e) =>
        .ofStop d e := by
  obtain ⟨table, resolved⟩ := Program.isBalanced_iff.1 balanced
  have passed := Config.run_of_comments (c := .withoutCells program policy source sink 0)
    (n := n) (by simpa [Config.withoutCells, Machine.fresh] using inside)
    (by simpa [Config.withoutCells, Machine.fresh] using comments) fuel
  have come : (Config.withoutCells program policy source sink 0).onMachine
      (fun m => { m with ip := m.ip + n }) = .withoutCells program policy source sink n := by
    simp only [Config.withoutCells, Config.onMachine, Nat.zero_add]
  rw [come] at passed
  rw [execute_of_balanced 0 policy source sink resolved, ← passed]
  rfl

theorem execute_of_comments (balanced : program.isBalanced = true)
    (comments : program.IsComment) (enough : program.size ≤ fuel) :
    execute fuel program 0 policy source sink =
      some ⟨.completed "", .withoutCells program policy source sink program.size⟩ := by
  obtain ⟨more, rfl⟩ := Nat.exists_eq_add_of_le' enough
  have done : (Config.withoutCells program policy source sink program.size).machine.done = true :=
    decide_eq_true (Nat.le_refl program.size)
  rw [execute_without_cells policy source sink balanced (Nat.le_refl _) fun j _ => comments j,
    Config.run_of_done done]
  rfl

theorem execute_of_first {i : Nat} {instruction : Instruction}
    (balanced : program.isBalanced = true) (first : program.First i instruction)
    (enough : program.size ≤ fuel) : execute fuel program 0 policy source sink =
      some ⟨instruction.endWithoutCells policy i source.read.1,
        .withoutCells program policy (instruction.sourceAfter source) sink i⟩ := by
  have inside : i < program.size := (Array.getElem?_eq_some_iff.1 first.here).1
  obtain ⟨more, rfl⟩ : ∃ more, fuel = (more + 1) + i := ⟨fuel - i - 1, by omega⟩
  have found : (Config.withoutCells program policy source sink i).machine.instruction? =
      some instruction := by
    show (program.fetch? i).bind Instruction.ofChar? = some instruction
    rw [first.here, Option.bind_some, Instruction.ofChar?_toChar]
  obtain ⟨e, step, outcome⟩ :=
    Config.step_without_cells (Machine.size_tape_fresh program 0 policy) rfl found
  have undone : (Config.withoutCells program policy source sink i).machine.done = false :=
    Machine.not_done_of_fetch? first.here
  rw [execute_without_cells policy source sink balanced (Nat.le_of_lt inside) first.before,
    Config.run_succ_of_error undone step, Option.map_some]
  show some (Execution.ofStop _ (some e)) = _
  rw [Execution.ofStop_eq, outcome]
  rfl

theorem sink_of_execute_without_cells {x : Execution}
    (executed : execute fuel program 0 policy source sink = some x) : x.final.sink = sink := by
  cases resolved : program.jumps with
  | error e =>
    rw [execute_of_unbalanced 0 policy source sink resolved] at executed
    obtain rfl := Option.some.inj executed
    rfl
  | ok table =>
    have balanced : program.isBalanced = true := Program.isBalanced_iff.2 ⟨table, resolved⟩
    rcases program.isComment_or_first with comments | ⟨i, instruction, first⟩
    · have completed := execute_of_comments policy source sink balanced comments (Nat.le_refl _)
      rw [execute_unique executed completed]
      rfl
    · have stopped := execute_of_first policy source sink balanced first (Nat.le_refl _)
      rw [execute_unique executed stopped]
      rfl

theorem executeSized_zero : executeSized room fuel program 0 policy source sink =
    .ok (execute fuel program 0 policy source sink) :=
  executeSized_natCast (by decide) (Nat.zero_le room) fuel program policy source sink

end Execute

/-- A tape without cells lets no instruction succeed, and memory has room for it always. An
unbalanced program is not run, a program of comments completes with nothing to show, and any other
ends at its first instruction, by the error that this instruction has without cells. Nothing is
written, and read only by a reading instruction, once. With a negative number of cells there is no
tape, and nothing is run. -/
theorem empty_tape_lets_nothing_succeed (program : Program) (policy : PointerPolicy)
    (source : Source) (sink : Sink) :
    let come := Config.withoutCells program policy
    (program.IsComment ∨ ∃ i instruction, program.First i instruction) ∧
    (∀ room fuel, program.size ≤ fuel →
      let ended := executeSized room fuel program 0 policy source sink
      (∀ e, program.jumps = .error e →
        ended = .ok (some ⟨.failed (.unbalanced e), come source sink 0⟩)) ∧
      (program.isBalanced = true → program.IsComment →
        ended = .ok (some ⟨.completed "", come source sink program.size⟩)) ∧
      ∀ i instruction, program.isBalanced = true → program.First i instruction →
        instruction ≠ .closeLoop ∧
        ended = .ok (some ⟨instruction.endWithoutCells policy i source.read.1,
          come (instruction.sourceAfter source) sink i⟩)) ∧
    (∀ room fuel x, executeSized room fuel program 0 policy source sink = .ok (some x) →
      x.final.sink = sink) ∧
    ∀ size room fuel,
      (-Word.limit ≤ size → size < 0 →
        executeSized room fuel program size policy source sink = .error .negative) ∧
      (size < -Word.limit →
        executeSized room fuel program size policy source sink = .error .outOfRange) := by
  intro come
  refine ⟨program.isComment_or_first, ?_, ?_, ?_⟩
  · intro room fuel enough ended
    have untaped : ended = .ok (execute fuel program 0 policy source sink) :=
      executeSized_zero policy source sink
    refine ⟨?_, ?_, ?_⟩
    · intro e unresolved
      rw [untaped, execute_of_unbalanced 0 policy source sink unresolved]
      rfl
    · intro balanced comments
      rw [untaped, execute_of_comments policy source sink balanced comments enough]
    · intro i instruction balanced first
      refine ⟨first.ne_closeLoop balanced, ?_⟩
      rw [untaped, execute_of_first policy source sink balanced first enough]
  · intro room fuel x ended
    rw [executeSized_zero] at ended
    exact sink_of_execute_without_cells policy source sink (Except.ok.inj ended)
  · intro size room fuel
    constructor
    · intro fits negative
      exact executeSized_eq_error_iff.2 (Tape.cellsOfInt_eq_negative_iff.2 ⟨fits, negative⟩)
    · intro below
      exact executeSized_eq_error_iff.2 (Tape.cellsOfInt_eq_outOfRange_iff.2 (Or.inl below))

/-- A value that is read and has no cell to go to, a program without instructions, a bracket that is
noticed without cells, and one that is not, for want of a tape. -/
theorem empty_tape_lets_nothing_succeed_reading :
    let source := Source.ofReadings #[.value 300]
    let reads := Program.ofString "a,"
    let idles := Program.ofString "a"
    let closes := Program.ofString "]"
    reads.isBalanced = true ∧ reads.First 1 .read ∧
      executeSized 0 2 reads 0 .wrap source .unlimited =
        .ok (some ⟨.escaped .noCell, .withoutCells reads .wrap source.read.2 .unlimited 1⟩) ∧
      idles.isBalanced = true ∧ idles.IsComment ∧
      executeSized 0 1 idles 0 .wrap source .unlimited =
        .ok (some ⟨.completed "", .withoutCells idles .wrap source .unlimited 1⟩) ∧
      closes.jumps = .error ⟨0, .closing⟩ ∧
      executeSized 0 1 closes 0 .bounded source .unlimited =
        .ok (some ⟨.failed (.unbalanced ⟨0, .closing⟩),
          .withoutCells closes .bounded source .unlimited 0⟩) ∧
      -Word.limit ≤ -1 ∧
      executeSized 0 0 closes (-1) .bounded source .unlimited = .error .negative ∧
      executeSized 0 0 closes (-Word.limit - 1) .bounded source .unlimited =
        .error .outOfRange := by
  intro source reads idles closes
  have first : reads.First 1 .read := by
    refine ⟨rfl, ?_⟩
    intro j below ch fetched
    obtain rfl : j = 0 := by omega
    cases fetched
    rfl
  have comment : idles.IsComment := by
    intro j ch fetched
    cases j with
    | zero =>
      cases fetched
      rfl
    | succ j => cases fetched
  have unresolved : closes.jumps = .error ⟨0, .closing⟩ := rfl
  obtain ⟨-, stops, -⟩ := empty_tape_lets_nothing_succeed reads .wrap source .unlimited
  obtain ⟨-, completes, -⟩ := empty_tape_lets_nothing_succeed idles .wrap source .unlimited
  obtain ⟨-, reports, -, refuses⟩ :=
    empty_tape_lets_nothing_succeed closes .bounded source .unlimited
  refine ⟨rfl, first, ?_, rfl, comment, ?_, unresolved, ?_, by decide, ?_, ?_⟩
  · exact ((stops 0 2 (by decide)).2.2 1 .read rfl first).2
  · exact (completes 0 1 (by decide)).2.1 rfl comment
  · exact (reports 0 1 (by decide)).1 _ unresolved
  · exact (refuses (-1) 0 0).1 (by decide) (by decide)
  · exact (refuses (-Word.limit - 1) 0 0).2 (by decide)

/-- A size below all words is not said to be negative. Nor does every failure of the source get out
that is neither the end of the input nor one of the system: a fault of its own is reported. -/
theorem not_failures_without_cells_alike :
    (¬∀ (program : Program) (size : Int), size < 0 → ∃ room, ∀ fuel policy source sink,
      executeSized room fuel program size policy source sink = .error .negative) ∧
    ¬∀ (program : Program) (i : Nat), program.isBalanced = true → program.First i .read →
      ∀ source : Source, (∀ value, source.read.1 ≠ .value value) →
        source.read.1 ≠ .endOfInput → (∀ reason, source.read.1 ≠ .failed reason) →
          ∀ room fuel policy sink x,
            executeSized room fuel program 0 policy source sink = .ok (some x) →
              ∃ e, x.outcome = .escaped e := by
  constructor
  · intro refuses
    obtain ⟨room, refuses⟩ := refuses (Program.ofString "") (-Word.limit - 1) (by decide)
    have refused := refuses 0 .bounded (.ofBytes #[]) .unlimited
    have outside : executeSized room 0 (Program.ofString "") (-Word.limit - 1) .bounded
        (.ofBytes #[]) .unlimited = .error .outOfRange :=
      executeSized_eq_error_iff.2 (Tape.cellsOfInt_eq_outOfRange_iff.2 (Or.inl (by decide)))
    rw [outside] at refused
    cases refused
  · intro escapes
    have first : (Program.ofString ",").First 0 .read := ⟨rfl, nofun⟩
    let source := Source.ofReadings #[.reported (.other "closed")]
    have reading : source.read.1 = .reported (.other "closed") := rfl
    have ended : ∃ x, executeSized 0 1 (Program.ofString ",") 0 .bounded source .unlimited =
        .ok (some x) ∧ x.outcome = .failed (.foreign (.other "closed")) := ⟨_, rfl, rfl⟩
    obtain ⟨x, sized, failed⟩ := ended
    have escapes_source := escapes (Program.ofString ",") 0 rfl first source
    rw [reading] at escapes_source
    obtain ⟨e, escaped⟩ := escapes_source nofun nofun nofun 0 1 _ _ x sized
    cases failed.symm.trans escaped

end ByteTape

import ByteTape.Proofs.Relocation
import ByteTape.Proofs.Simulation
import ByteTape.Proofs.Uncommented

set_option autoImplicit false

namespace ByteTape

/-- The program without its comments. -/
def Program.withoutComments (p : Program) : Program :=
  ofList (uncommented p.code.toList)

def Machine.withoutComments (m : Machine) : Machine :=
  { m with program := m.program.withoutComments, ip := codeBefore m.program.code.toList m.ip }

/-- The outcome of a program in which everything at a position `i` is at `place i` instead. -/
def Outcome.relocate (place : Nat → Nat) : Outcome → Outcome
  | completed text => .completed text
  | failed f => .failed (f.relocate place)
  | escaped e => .escaped e

theorem Outcome.ofStop_relocate (place : Nat → Nat) (output : Array UInt8)
    (e : Option StepError) :
    ofStop output (e.map (·.relocate place)) = (ofStop output e).relocate place := by
  cases e with
  | none => rfl
  | some e => cases e <;> rfl

theorem Program.jumps_withoutComments (p : Program) :
    p.withoutComments.jumps = JumpTable.ofCode (uncommented p.code.toList) :=
  jumps_ofList _

theorem Program.jumps_withoutComments_cases (p : Program) :
    ((∃ table, p.jumps = .ok table) ∧ ∃ table, p.withoutComments.jumps = .ok table) ∨
    ∃ e, p.jumps = .error e ∧
      p.withoutComments.jumps = .error ⟨codeBefore p.code.toList e.position, e.bracket⟩ := by
  rw [jumps_withoutComments, p.jumps_eq]
  exact JumpTable.ofCode_uncommented p.code.toList

theorem Program.exists_jumps_withoutComments (p : Program) {table : JumpTable}
    (resolved : p.jumps = .ok table) : ∃ table', p.withoutComments.jumps = .ok table' := by
  rcases p.jumps_withoutComments_cases with ⟨-, balanced⟩ | ⟨e, unresolved, -⟩
  · exact balanced
  · rw [resolved] at unresolved
    cases unresolved

namespace Machine

variable {m : Machine} {table : JumpTable} {c : Char}

theorem fetch?_withoutComments (fetched : m.program.fetch? m.ip = some c)
    (code : Instruction.isCode c = true) :
    m.withoutComments.program.fetch? m.withoutComments.ip = some c := by
  rw [Program.fetch?_eq_getElem?] at fetched
  exact (Program.fetch?_ofList _ _).trans (getElem?_uncommented fetched code)

theorem done_withoutComments (done : m.done = true) : m.withoutComments.done = true := by
  simp only [Machine.done, decide_eq_true_eq, ← Program.length_code] at done
  simp only [Machine.done, decide_eq_true_eq, withoutComments, Program.withoutComments,
    Program.size_ofList, codeBefore_of_length_le done, Nat.le_refl]

theorem not_done_of_fetch? (fetched : m.program.fetch? m.ip = some c) : m.done = false := by
  have below := lt_size_of_fetch? fetched
  simpa only [Machine.done, decide_eq_false_iff_not, Nat.not_le] using below

theorem exists_fetch?_of_not_done (undone : m.done = false) :
    ∃ c, m.program.fetch? m.ip = some c := by
  simp only [Machine.done, decide_eq_false_iff_not, Nat.not_le] at undone
  exact ⟨_, Array.getElem?_eq_getElem undone⟩

theorem landing_withoutComments (resolved : m.program.jumps = .ok table) (jumping : m.Jumps) :
    ∃ ip, m.landing = .ok ip ∧
      m.withoutComments.landing = .ok (codeBefore m.program.code.toList ip) := by
  obtain ⟨table', resolved'⟩ := m.program.exists_jumps_withoutComments resolved
  have corresponds (i j : Nat) (spans : Spans m.program.code.toList i j) :
      Spans m.program.withoutComments.code.toList (codeBefore m.program.code.toList i)
        (codeBefore m.program.code.toList j) := by
    rw [Program.withoutComments, Program.toList_code_ofList]
    exact spans.uncommented
  obtain ⟨partner, spans, lands, lands'⟩ :=
    landing_resettle resolved resolved' corresponds jumping
  have next : codeBefore m.program.code.toList (partner + 1) =
      codeBefore m.program.code.toList partner + 1 := by
    rcases spans with spans | spans
    · exact codeBefore_succ_of_code spans.getElem?_closing isCode_closing
    · exact codeBefore_succ_of_code spans.getElem?_opening isCode_opening
  refine ⟨partner + 1, lands, ?_⟩
  rw [next]
  exact lands'

/-- At an instruction of a balanced program it does not matter whether there are comments. -/
theorem alike_withoutComments (resolved : m.program.jumps = .ok table)
    (fetched : m.program.fetch? m.ip = some c) (code : Instruction.isCode c = true) :
    Alike (codeBefore m.program.code.toList) withoutComments m m.withoutComments := by
  have next : codeBefore m.program.code.toList (m.ip + 1) =
      codeBefore m.program.code.toList m.ip + 1 := by
    rw [Program.fetch?_eq_getElem?] at fetched
    exact codeBefore_succ_of_code fetched code
  have alike : Alike (codeBefore m.program.code.toList)
      (resettle m.program.withoutComments (codeBefore m.program.code.toList)) m
      m.withoutComments :=
    alike_resettle ((fetch?_withoutComments fetched code).trans fetched.symm) next
      (landing_withoutComments resolved)
  exact { alike with }

end Machine

namespace Config

variable {c d : Config} {program : Program} {table : JumpTable}

theorem step_of_comment {ch : Char} (fetched : c.machine.program.fetch? c.machine.ip = some ch)
    (comment : Instruction.isCode ch = false) :
    c.step = (c.onMachine fun m => { m with ip := m.ip + 1 }, none) := by
  have unwritten : Instruction.ofChar? ch = none := by simpa [Instruction.isCode] using comment
  simp only [step, fetched, unwritten, skip, onMachine]

def left (c : Config) : Nat :=
  c.machine.program.size - c.machine.ip

/-- `c` runs the program, and `d` does the same without comments. -/
structure Uncommented (program : Program) (c d : Config) : Prop where
  program_eq : c.machine.program = program
  eq_onMachine : d = c.onMachine Machine.withoutComments

def EndsUncommented (program : Program) (c : Config) (e : Option StepError) (d : Config)
    (e' : Option StepError) : Prop :=
  Uncommented program c d ∧ e' = e.map (·.relocate (codeBefore program.code.toList))

/-- The run with comments follows the one without: it takes steps of its own over the comments. -/
theorem Uncommented.follows (resolved : program.jumps = .ok table)
    (running : Uncommented program c d) :
    Follows (Uncommented program) left (EndsUncommented program) c d := by
  obtain ⟨rfl, rfl⟩ := running
  have kept : c.step.1.machine.program = c.machine.program :=
    (StepsTo.of_step c.machine c.source c.sink).program_eq
  cases done : c.machine.done with
  | true => exact .finished done (Machine.done_withoutComments done) ⟨⟨rfl, rfl⟩, rfl⟩
  | false =>
    obtain ⟨ch, fetched⟩ := Machine.exists_fetch?_of_not_done done
    cases code : Instruction.isCode ch with
    | false =>
      refine .waits done (step_of_comment fetched code) ⟨rfl, ?_⟩ ?_
      · rw [Program.fetch?_eq_getElem?] at fetched
        simp only [onMachine, Machine.withoutComments, codeBefore_succ_of_comment fetched code]
      · have below := Machine.lt_size_of_fetch? fetched
        simp only [left, onMachine]
        omega
    | true =>
      have step := step_onMachine (Machine.alike_withoutComments resolved fetched code)
      have done' : (c.onMachine Machine.withoutComments).machine.done = false :=
        Machine.not_done_of_fetch? (Machine.fetch?_withoutComments fetched code)
      rcases stepped : c.step with ⟨next, e⟩
      rw [stepped] at step kept
      cases e with
      | none => exact .goes done done' stepped step ⟨kept, rfl⟩
      | some e => exact .fails done done' stepped step ⟨⟨kept, rfl⟩, rfl⟩

end Config

section Execute

variable {program : Program} {cells : Nat} {policy : PointerPolicy} {source : Source}
  {sink : Sink} {x y : Execution}

/-- What an execution comes to in a program that has the same instructions without comments. -/
def Execution.withoutComments (program : Program) (x : Execution) : Execution where
  outcome := x.outcome.relocate (codeBefore program.code.toList)
  final := { x.final with machine := { x.final.machine with
    program := program.withoutComments
    ip := codeBefore program.code.toList x.final.machine.ip } }

theorem Execution.eq_withoutComments_iff : y = x.withoutComments program ↔
    y.outcome = x.outcome.relocate (codeBefore program.code.toList) ∧
      y.final.machine = { x.final.machine with
        program := program.withoutComments
        ip := codeBefore program.code.toList x.final.machine.ip } ∧
      y.final.source = x.final.source ∧ y.final.sink = x.final.sink := by
  rcases y with ⟨outcome, m, source, sink⟩
  simp only [withoutComments, Execution.mk.injEq, Config.mk.injEq]

theorem Config.EndsUncommented.ofStop_eq {c d : Config} {e e' : Option StepError}
    (same : EndsUncommented program c e d e') :
    Execution.ofStop d e' = (Execution.ofStop c e).withoutComments program := by
  obtain ⟨⟨rfl, rfl⟩, rfl⟩ := same
  rw [Execution.ofStop_eq, Execution.ofStop_eq, Execution.withoutComments,
    ← Outcome.ofStop_relocate]
  rfl

theorem exists_execute_withoutComments_iff :
    (∃ fuel, execute fuel program.withoutComments cells policy source sink = some y) ↔
      ∃ fuel x, execute fuel program cells policy source sink = some x ∧
        y = x.withoutComments program := by
  have start : Config.Uncommented program ⟨.fresh program cells policy, source, sink⟩
      ⟨.fresh program.withoutComments cells policy, source, sink⟩ := ⟨rfl, rfl⟩
  rcases program.jumps_withoutComments_cases with
    ⟨⟨table, resolved⟩, ⟨table', resolved'⟩⟩ | ⟨e, unresolved, unresolved'⟩
  · have follows c d := Config.Uncommented.follows (c := c) (d := d) resolved
    apply exists_execute_iff_of_ends cells policy source sink resolved resolved'
    · intro c e ends
      obtain ⟨d, e', ends', same⟩ := Config.exists_ends_of_follows follows start ends
      exact ⟨d, e', ends', same.ofStop_eq⟩
    · intro d e' ends'
      obtain ⟨c, e, ends, same⟩ := Config.exists_ends_of_followed follows start ends'
      exact ⟨c, e, ends, same.ofStop_eq⟩
  · constructor
    · rintro ⟨fuel, executed⟩
      rw [execute_of_unbalanced cells policy source sink unresolved', Option.some.injEq] at executed
      exact ⟨0, _, execute_of_unbalanced cells policy source sink unresolved 0, executed.symm⟩
    · rintro ⟨fuel, x, executed, rfl⟩
      rw [execute_of_unbalanced cells policy source sink unresolved, Option.some.injEq] at executed
      subst executed
      exact ⟨0, execute_of_unbalanced cells policy source sink unresolved' 0⟩

end Execute

theorem Program.load_eq_withoutComments (text : String) :
    load text = (ofString text).withoutComments := by
  rw [load_eq, withoutComments, ofString, toList_code_ofList]

theorem Program.isBalanced_withoutComments (p : Program) :
    p.withoutComments.isBalanced = p.isBalanced := by
  unfold isBalanced
  rcases p.jumps_withoutComments_cases with
    ⟨⟨table, resolved⟩, ⟨table', resolved'⟩⟩ | ⟨e, unresolved, unresolved'⟩
  · rw [resolved, resolved']
  · rw [unresolved, unresolved']

/-- Comments do not matter. A loaded text is balanced if it is so as it stands, it gets its tape on
the same terms, and on a tape of any length it runs to an end if and only if the text does as it
stands. The end is then the same, but that the positions in the program, in errors and at the end,
count instructions only. A fault that a device reports on its own account is no such error: it is
the very same. -/
theorem comments_change_no_run (text : String) (policy : PointerPolicy) (source : Source)
    (sink : Sink) :
    let whole := Program.ofString text
    let loaded := Program.load text
    let place := codeBefore text.toList
    loaded.isBalanced = whole.isBalanced ∧
    (∀ room fuel size e, executeSized room fuel loaded size policy source sink = .error e ↔
      executeSized room fuel whole size policy source sink = .error e) ∧
    ∀ cells y, (∃ fuel, execute fuel loaded cells policy source sink = some y) ↔
      ∃ fuel x, execute fuel whole cells policy source sink = some x ∧
        y.outcome = x.outcome.relocate place ∧
        y.final.machine = { x.final.machine with
          program := loaded, ip := place x.final.machine.ip } ∧
        y.final.source = x.final.source ∧ y.final.sink = x.final.sink := by
  intro whole loaded place
  have code : whole.code.toList = text.toList := Program.toList_code_ofList text.toList
  have load : loaded = whole.withoutComments := Program.load_eq_withoutComments text
  refine ⟨by rw [load, Program.isBalanced_withoutComments], ?_, ?_⟩
  · intro room fuel size e
    rw [executeSized_eq_error_iff, executeSized_eq_error_iff]
  · intro cells y
    simp only [load, exists_execute_withoutComments_iff, Execution.eq_withoutComments_iff, code]
    rfl

end ByteTape

import Mathlib.Data.Nat.Count
import ByteTape.Proofs.Comments
import ByteTape.Proofs.Diagnosis
import ByteTape.Proofs.Locality

set_option autoImplicit false

namespace ByteTape

/-- The program with `filler` in the place of each of its brackets. -/
def Program.withoutBrackets (filler : Char) (p : Program) : Program :=
  ofList (p.code.toList.map fun c => if c = '[' ∨ c = ']' then filler else c)

def Machine.withoutBrackets (filler : Char) (m : Machine) : Machine :=
  { m with program := m.program.withoutBrackets filler }

theorem Program.fetch?_withoutBrackets (filler : Char) (p : Program) (i : Nat) :
    (p.withoutBrackets filler).fetch? i =
      (p.fetch? i).map fun c => if c = '[' ∨ c = ']' then filler else c := by
  rw [withoutBrackets, fetch?_ofList, List.getElem?_map, fetch?_eq_getElem?]

namespace Machine

variable {m : Machine} {filler : Char}

/-- Where there is no bracket the filler makes no difference. -/
theorem alike_withoutBrackets (noOpening : m.instruction? ≠ some .openLoop)
    (noClosing : m.instruction? ≠ some .closeLoop) :
    Alike id (withoutBrackets filler) m (m.withoutBrackets filler) where
  fetch?_eq := by
    simp only [withoutBrackets, Program.fetch?_withoutBrackets]
    cases fetched : m.program.fetch? m.ip with
    | none => rfl
    | some c =>
      have plain : ¬(c = '[' ∨ c = ']') := by
        rintro (rfl | rfl)
        · exact noOpening (instruction?_of_fetch? fetched)
        · exact noClosing (instruction?_of_fetch? fetched)
      rw [Option.map_some, if_neg plain]
  ip_eq := rfl
  cell?_eq := rfl
  next_eq := rfl
  alter_eq change := rfl
  write_eq value := rfl
  target_eq delta moving := by
    have same : (m.withoutBrackets filler).target delta = m.target delta := rfl
    rw [same]
    cases m.target delta with
    | error e => exact Or.inl ⟨e, rfl, by rw [StepError.relocate_id]⟩
    | ok pointer => exact Or.inr ⟨pointer, pointer, rfl, rfl, rfl⟩
  landing_eq jumping := by
    rcases jumping.instruction? with opening | closing
    · exact absurd opening noOpening
    · exact absurd closing noClosing

end Machine

namespace Config

variable {c : Config} {filler : Char} {e : BracketError}

theorem step_of_passes (passing : c.machine.Passes) :
    c.step = (c.onMachine fun m => { m with ip := m.ip + 1 }, none) := by
  obtain ⟨value, cell, ⟨opening, nonzero⟩ | ⟨closing, zero⟩⟩ := passing
  · rw [step_of_instruction? opening]
    simp [perform, jump, Machine.branch, cell, nonzero, onMachine]
  · rw [step_of_instruction? closing]
    simp [perform, jump, Machine.branch, cell, zero, onMachine]

theorem step_of_unresolved (unresolved : c.machine.program.jumps = .error e)
    (jumping : c.machine.Jumps) : c.step = (c, some (.fault (.unbalanced e))) := by
  obtain ⟨value, cell, ⟨opening, zero⟩ | ⟨closing, nonzero⟩⟩ := jumping
  · rw [step_of_instruction? opening]
    simp [perform, jump, Machine.branch, Machine.landing, cell, zero, unresolved]
  · rw [step_of_instruction? closing]
    simp [perform, jump, Machine.branch, Machine.landing, cell, nonzero, unresolved]

/-- A bracket that does not jump is as good as a comment. -/
theorem step_withoutBrackets (comment : Instruction.isCode filler = false)
    (onTape : c.machine.pointer < c.machine.tape.size) (stays : ¬c.machine.Jumps) :
    (c.onMachine (.withoutBrackets filler)).step =
      (c.step.1.onMachine (.withoutBrackets filler), c.step.2) := by
  by_cases bracket : c.machine.instruction? = some .openLoop ∨
      c.machine.instruction? = some .closeLoop
  · have filled : (c.onMachine (.withoutBrackets filler)).machine.program.fetch?
        (c.onMachine (.withoutBrackets filler)).machine.ip = some filler := by
      simp only [onMachine, Machine.withoutBrackets, Program.fetch?_withoutBrackets]
      rcases bracket with opening | closing
      · simp [Machine.fetch?_of_instruction? opening, Instruction.toChar]
      · simp [Machine.fetch?_of_instruction? closing, Instruction.toChar]
    rw [step_of_passes (Machine.passes_of_bracket onTape bracket stays),
      step_of_comment filled comment]
    rfl
  · rw [not_or] at bracket
    exact step_onMachine_of_id (Machine.alike_withoutBrackets bracket.1 bracket.2)

theorem after_of_unresolved (unresolved : c.machine.program.jumps = .error e)
    (jumping : c.machine.Jumps) (tries : Nat) : c.after tries = c := by
  induction tries with
  | zero => rfl
  | succ tries ih => rw [after, ih, step_of_unresolved unresolved jumping]

theorem ip_after_of_unresolved (unresolved : c.machine.program.jumps = .error e) (n : Nat) :
    (c.after n).machine.ip =
      c.machine.ip + Nat.count (fun k => (c.after k).step.2 = none) n := by
  induction n with
  | zero => rfl
  | succ n ih =>
    have kept : (c.after n).machine.program.jumps = .error e := by rwa [program_after]
    rw [Nat.count_succ, ← Nat.add_assoc, ← ih]
    rcases stepped : (c.after n).step with ⟨next, error⟩
    rw [after_succ_of_step stepped]
    cases error with
    | some f => simpa using congrArg Machine.ip (machine_of_error stepped)
    | none =>
      have succeeds : (c.after n).step.2 = none := by rw [stepped]
      have straight : ¬(c.after n).machine.Jumps := by
        intro jumping
        simp [step_of_unresolved kept jumping] at succeeds
      have moved := (altered_of_success succeeds).next straight
      rw [stepped] at moved
      simpa using moved

theorem Proceeds.count_eq {n : Nat} (proceeds : c.Proceeds n) :
    Nat.count (fun k => (c.after k).step.2 = none) n = n := by
  rw [Nat.count_iff_forall]
  intro k below
  exact (proceeds k below).2

/-- Up to the first bracket that jumps, the brackets make no difference. -/
theorem after_withoutBrackets (comment : Instruction.isCode filler = false)
    (onTape : c.machine.pointer < c.machine.tape.size) {n : Nat}
    (stays : ∀ k, k < n → ¬(c.after k).machine.Jumps) :
    (c.onMachine (.withoutBrackets filler)).after n =
        (c.after n).onMachine (.withoutBrackets filler) ∧
      ∀ k, k < n →
        ((c.onMachine (.withoutBrackets filler)).after k).step.2 = (c.after k).step.2 := by
  have step {k : Nat} (below : k < n) :=
    step_withoutBrackets comment (onTape_after onTape k) (stays k below)
  have same {m : Nat} (le : m ≤ n) : (c.onMachine (.withoutBrackets filler)).after m =
      (c.after m).onMachine (.withoutBrackets filler) :=
    after_onMachine fun k below => step (by omega)
  refine ⟨same (Nat.le_refl n), ?_⟩
  intro k below
  rw [same (by omega), step below]

/-- From its first position, an unbalanced program is done after as many steps as it has characters,
if none of them fails and none is at a bracket that jumps; and in no other way. -/
theorem proceeds_to_done_iff (unresolved : c.machine.program.jumps = .error e)
    (start : c.machine.ip = 0) (n : Nat) :
    c.Proceeds n ∧ (c.after n).machine.done = true ↔
      n = c.machine.program.size ∧
        ∀ k, k < n → ¬(c.after k).machine.Jumps ∧ (c.after k).step.2 = none := by
  have position {k : Nat} (proceeds : c.Proceeds k) : (c.after k).machine.ip = k := by
    rw [ip_after_of_unresolved unresolved, start, proceeds.count_eq, Nat.zero_add]
  have done_iff {k : Nat} (proceeds : c.Proceeds k) :
      (c.after k).machine.done = true ↔ c.machine.program.size ≤ k := by
    rw [Machine.done, decide_eq_true_iff, position proceeds, program_after]
  constructor
  · rintro ⟨proceeds, done⟩
    have enough := (done_iff proceeds).1 done
    constructor
    · by_contra other
      have undone := (proceeds c.machine.program.size (by omega)).1
      have finished := (done_iff (proceeds.of_le enough)).2 (Nat.le_refl _)
      simp [undone] at finished
    · intro k below
      have succeeds := (proceeds k below).2
      refine ⟨?_, succeeds⟩
      intro jumping
      have kept : (c.after k).machine.program.jumps = .error e := by rwa [program_after]
      simp [step_of_unresolved kept jumping] at succeeds
  · rintro ⟨rfl, succeeds⟩
    have proceeds {k : Nat} (le : k ≤ c.machine.program.size) : c.Proceeds k := by
      induction k with
      | zero => simp [Proceeds]
      | succ k ih =>
        have before := ih (by omega)
        have undone : (c.after k).machine.done = false := by
          rw [Bool.eq_false_iff, ne_eq, done_iff before]
          omega
        exact before.succ undone (Prod.ext rfl (succeeds k (by omega)).2)
    exact ⟨proceeds (Nat.le_refl _), (done_iff (proceeds (Nat.le_refl _))).2 (Nat.le_refl _)⟩

end Config

/-- The steps of a program that is not balanced are those of the program without its brackets, up to
the first bracket that jumps. There every step fails with the report of the whole program's
bracket that has no partner, and changes nothing. So the position counts the steps that have
succeeded, and the program is done after as many steps as it has characters, unless it meets such a
bracket or fails otherwise. An execution reports the same bracket before it does anything, once it
has got its tape. -/
theorem brackets_are_looked_up_late {program : Program} {e : BracketError}
    (unresolved : program.jumps = .error e) {filler : Char}
    (comment : Instruction.isCode filler = false) {cells : Nat} (positive : 0 < cells)
    (policy : PointerPolicy) (source : Source) (sink : Sink) :
    let start := Config.fresh program cells policy source sink
    let plain := Config.fresh (program.withoutBrackets filler) cells policy source sink
    (∀ n, (∀ k, k < n → ¬(start.after k).machine.Jumps) →
      plain.after n = (start.after n).onMachine (.withoutBrackets filler) ∧
      ∀ k, k < n → (plain.after k).step.2 = (start.after k).step.2) ∧
    (∀ n, (start.after n).machine.Jumps →
      (∀ tries, start.after (n + tries) = start.after n) ∧
      ∀ source sink, Config.step ⟨(start.after n).machine, source, sink⟩ =
        (⟨(start.after n).machine, source, sink⟩, some (.fault (.unbalanced e)))) ∧
    (∀ n, (start.after n).machine.ip =
      Nat.count (fun k => (start.after k).step.2 = none) n) ∧
    (∀ n, start.Proceeds n ∧ (start.after n).machine.done = true ↔
      n = program.size ∧
        ∀ k, k < n → ¬(start.after k).machine.Jumps ∧ (plain.after k).step.2 = none) ∧
    ∀ room fuel,
      let sized := executeSized room fuel program cells policy source sink
      ((cells : Int) < Word.limit → cells ≤ room →
        sized = .ok (some ⟨.failed (.unbalanced e), start⟩)) ∧
      ((cells : Int) < Word.limit → room < cells → sized = .error .outOfMemory) ∧
      (Word.limit ≤ cells → sized = .error .outOfRange) := by
  intro start plain
  have onTape : start.machine.pointer < start.machine.tape.size := by
    simpa [start, Config.fresh, Machine.fresh] using positive
  have alike {n : Nat} (stays : ∀ k, k < n → ¬(start.after k).machine.Jumps) :
      plain.after n = (start.after n).onMachine (.withoutBrackets filler) ∧
      ∀ k, k < n → (plain.after k).step.2 = (start.after k).step.2 :=
    Config.after_withoutBrackets (c := start) comment onTape stays
  refine ⟨fun n => alike, ?_, ?_, ?_, ?_⟩
  · intro n jumping
    have kept : (start.after n).machine.program.jumps = .error e := by
      rw [Config.program_after]
      exact unresolved
    constructor
    · intro tries
      rw [Config.after_add, Config.after_of_unresolved kept jumping]
    · intro source sink
      exact Config.step_of_unresolved (c := ⟨(start.after n).machine, source, sink⟩) kept jumping
  · intro n
    have position := Config.ip_after_of_unresolved (c := start) unresolved n
    rwa [show start.machine.ip = 0 from rfl, Nat.zero_add] at position
  · intro n
    rw [Config.proceeds_to_done_iff (c := start) unresolved rfl]
    apply and_congr_right
    intro size
    constructor
    · intro succeeds k below
      have errors := (alike fun k below => (succeeds k below).1).2 k below
      exact ⟨(succeeds k below).1, errors.trans (succeeds k below).2⟩
    · intro succeeds k below
      have errors := (alike fun k below => (succeeds k below).1).2 k below
      exact ⟨(succeeds k below).1, errors.symm.trans (succeeds k below).2⟩
  · intro room fuel
    exact executeSized_of_unbalanced unresolved room fuel cells policy source sink

def Config.closedTwice : Config :=
  .fresh (Program.ofString "+[,]]") 1 .bounded (.ofBytes #[3]) .unlimited

theorem brackets_are_looked_up_late_elsewhere :
    (Program.ofString "+[,]]").jumps = .error ⟨4, .closing⟩ ∧ Instruction.isCode ' ' = false ∧
      0 < 1 ∧ (Config.closedTwice.after 3).machine.Jumps ∧
      Config.closedTwice.after (3 + 2) = Config.closedTwice.after 3 ∧
      (Config.closedTwice.after 3).machine.ip = 3 ∧
      (Config.closedTwice.after 3).step.2 = some (.fault (.unbalanced ⟨4, .closing⟩)) := by
  have unresolved : (Program.ofString "+[,]]").jumps = .error ⟨4, .closing⟩ := rfl
  have comment : Instruction.isCode ' ' = false := rfl
  have positive : 0 < 1 := by decide
  have cell : (Config.closedTwice.after 3).machine.cell? = some 3 := rfl
  have closing : (Config.closedTwice.after 3).machine.instruction? = some .closeLoop := rfl
  have jumping : (Config.closedTwice.after 3).machine.Jumps :=
    ⟨3, cell, Or.inr ⟨closing, by decide⟩⟩
  have late := brackets_are_looked_up_late unresolved comment positive .bounded (.ofBytes #[3])
    .unlimited
  obtain ⟨stays, fails⟩ := late.2.1 3 jumping
  have failed := fails (Config.closedTwice.after 3).source (Config.closedTwice.after 3).sink
  exact ⟨unresolved, comment, positive, jumping, stays 2, rfl, congrArg Prod.snd failed⟩

/-- A stray bracket is not reported where no tape can be asked for, whatever memory has room for. -/
theorem not_unbalanced_always_reported :
    ¬∀ (program : Program) (e : BracketError), program.jumps = .error e →
      ∀ (size : Int), 1 ≤ size → ∃ room, ∀ fuel policy source sink, ∃ x,
        executeSized room fuel program size policy source sink = .ok (some x) ∧
          x.outcome = .failed (.unbalanced e) := by
  intro reports
  have unresolved : (Program.ofString "]").jumps = .error ⟨0, .closing⟩ := rfl
  obtain ⟨room, reports⟩ := reports _ _ unresolved Word.limit (by decide)
  obtain ⟨x, executed, -⟩ := reports 0 .bounded (.ofBytes #[]) .unlimited
  rw [executeSized_of_limit_le (Int.le_refl _)] at executed
  cases executed

end ByteTape

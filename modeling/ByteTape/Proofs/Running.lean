import ByteTape.Execution

set_option autoImplicit false

namespace ByteTape

namespace Config

variable {c d next : Config} {e : StepError}

theorem run_of_done (done : c.machine.done = true) (fuel : Nat) :
    c.run fuel = some (c, none) := by
  cases fuel <;> simp [run, done]

theorem run_zero_of_not_done (undone : c.machine.done = false) : c.run 0 = none := by
  simp [run, undone]

theorem run_succ_of_step (undone : c.machine.done = false) (steps : c.step = (next, none))
    (fuel : Nat) : c.run (fuel + 1) = next.run fuel := by
  simp [run, undone, steps]

theorem run_succ_of_error (undone : c.machine.done = false) (fails : c.step = (next, some e))
    (fuel : Nat) : c.run (fuel + 1) = some (next, some e) := by
  simp [run, undone, fails]

theorem run_eq_of_step_eq (undone : c.machine.done = false) (undone' : d.machine.done = false)
    (same : c.step = d.step) (fuel : Nat) : c.run fuel = d.run fuel := by
  cases fuel with
  | zero => rw [run_zero_of_not_done undone, run_zero_of_not_done undone']
  | succ fuel => simp [run, undone, undone', same]

/-- A run that has ended did nothing because all was done, or began with a step: one that failed, or
one after which a run with less fuel ended the same way. -/
theorem run_cases {fuel : Nat} {e : Option StepError} (ended : c.run fuel = some (d, e)) :
    (c.machine.done = true ∧ d = c ∧ e = none) ∨
      (c.machine.done = false ∧ ∃ less, fuel = less + 1 ∧
        ((∃ f, c.step = (d, some f) ∧ e = some f) ∨
          ∃ next, c.step = (next, none) ∧ next.run less = some (d, e))) := by
  cases done : c.machine.done with
  | true =>
    rw [run_of_done done, Option.some.injEq, Prod.mk.injEq] at ended
    exact Or.inl ⟨rfl, ended.1.symm, ended.2.symm⟩
  | false =>
    refine Or.inr ⟨rfl, ?_⟩
    cases fuel with
    | zero => simp [run_zero_of_not_done done] at ended
    | succ less =>
      refine ⟨less, rfl, ?_⟩
      rcases steps : c.step with ⟨next, error⟩
      cases error with
      | none =>
        rw [run_succ_of_step done steps] at ended
        exact Or.inr ⟨next, rfl, ended⟩
      | some f =>
        rw [run_succ_of_error done steps, Option.some.injEq, Prod.mk.injEq] at ended
        exact Or.inl ⟨f, by rw [ended.1], ended.2.symm⟩

theorem run_succ_of_run {fuel : Nat} {e : Option StepError} (ended : c.run fuel = some (d, e)) :
    c.run (fuel + 1) = some (d, e) := by
  induction fuel generalizing c with
  | zero =>
    rcases run_cases ended with ⟨done, rfl, rfl⟩ | ⟨-, less, positive, -⟩
    · exact run_of_done done 1
    · omega
  | succ fuel ih =>
    rcases run_cases ended with
      ⟨done, rfl, rfl⟩ | ⟨undone, less, same, ⟨f, fails, rfl⟩ | ⟨next, steps, ended⟩⟩
    · exact run_of_done done (fuel + 2)
    · exact run_succ_of_error undone fails (fuel + 1)
    · have same : fuel = less := by omega
      subst same
      rw [run_succ_of_step undone steps]
      exact ih ended

/-- Fuel that is left over does not change the end of a run. -/
theorem run_of_le {fuel more : Nat} {e : Option StepError} (ended : c.run fuel = some (d, e))
    (enough : fuel ≤ more) : c.run more = some (d, e) := by
  induction enough with
  | refl => exact ended
  | step _ ih => exact run_succ_of_run ih

/-- The run from `c` ends in `d`, by the error `e` if there is one. -/
def Ends (c d : Config) (e : Option StepError) : Prop :=
  ∃ fuel, c.run fuel = some (d, e)

theorem Ends.unique {d' : Config} {e e' : Option StepError} (one : c.Ends d e)
    (two : c.Ends d' e') : d = d' ∧ e = e' := by
  obtain ⟨fuel, one⟩ := one
  obtain ⟨fuel', two⟩ := two
  have same := (run_of_le one (Nat.le_max_left fuel fuel')).symm.trans
    (run_of_le two (Nat.le_max_right fuel fuel'))
  simpa using same

theorem ends_of_done (done : c.machine.done = true) : c.Ends c none :=
  ⟨0, run_of_done done 0⟩

theorem ends_of_error (undone : c.machine.done = false) (fails : c.step = (next, some e)) :
    c.Ends next (some e) :=
  ⟨1, run_succ_of_error undone fails 0⟩

theorem ends_iff_of_step {e : Option StepError} (undone : c.machine.done = false)
    (steps : c.step = (next, none)) : c.Ends d e ↔ next.Ends d e := by
  constructor
  · intro ends
    rcases ends with ⟨fuel, ended⟩
    cases fuel with
    | zero => simp [run_zero_of_not_done undone] at ended
    | succ fuel => exact ⟨fuel, by rwa [run_succ_of_step undone steps] at ended⟩
  · intro ends
    rcases ends with ⟨fuel, ended⟩
    exact ⟨fuel + 1, by rwa [run_succ_of_step undone steps]⟩

/-- What successful steps keep holds when the program is done, and before the step that fails. -/
theorem run_keeps {P : Config → Prop}
    (kept : ∀ c next, P c → c.machine.done = false → c.step = (next, none) → P next)
    {fuel : Nat} {e : Option StepError} (holds : P c) (ended : c.run fuel = some (d, e)) :
    (e = none ∧ P d ∧ d.machine.done = true) ∨
      ∃ last f, e = some f ∧ P last ∧ last.machine.done = false ∧ last.step = (d, some f) := by
  induction fuel generalizing c with
  | zero =>
    rcases run_cases ended with ⟨done, rfl, rfl⟩ | ⟨-, less, positive, -⟩
    · exact Or.inl ⟨rfl, holds, done⟩
    · omega
  | succ fuel ih =>
    rcases run_cases ended with
      ⟨done, rfl, rfl⟩ | ⟨undone, less, same, ⟨f, fails, rfl⟩ | ⟨next, steps, ended⟩⟩
    · exact Or.inl ⟨rfl, holds, done⟩
    · exact Or.inr ⟨c, f, rfl, holds, undone, fails⟩
    · have same : fuel = less := by omega
      subst same
      exact ih (kept c next holds undone steps) ended

end Config

/-- How a run ends that has written `output` and stops, by the error `e` or because the program is
over. -/
def Outcome.ofStop (output : Array UInt8) : Option StepError → Outcome
  | none => .completed (outputText output)
  | some (.fault f) => .failed f
  | some (.escape e) => .escaped e

theorem Outcome.ofStop_eq_completed {output : Array UInt8} {e : Option StepError} {text : String}
    (completes : ofStop output e = .completed text) : e = none ∧ text = outputText output := by
  cases e with
  | none => exact ⟨rfl, (Outcome.completed.inj completes).symm⟩
  | some e => cases e <;> cases completes

namespace Execution

@[simp]
theorem outcome_ofStop (d : Config) (e : Option StepError) :
    (ofStop d e).outcome = .ofStop d.machine.output e := by
  cases e with
  | none => rfl
  | some e => cases e <;> rfl

@[simp]
theorem final_ofStop (d : Config) (e : Option StepError) : (ofStop d e).final = d := by
  cases e with
  | none => rfl
  | some e => cases e <;> rfl

theorem ofStop_eq (d : Config) (e : Option StepError) :
    ofStop d e = ⟨.ofStop d.machine.output e, d⟩ := by
  cases e with
  | none => rfl
  | some e => cases e <;> rfl

end Execution

section Execute

variable {program : Program} (cells : Nat) (policy : PointerPolicy) (source : Source)
  (sink : Sink)

theorem execute_of_unbalanced {e : BracketError} (unresolved : program.jumps = .error e)
    (fuel : Nat) : execute fuel program cells policy source sink =
      some ⟨.failed (.unbalanced e), ⟨.fresh program cells policy, source, sink⟩⟩ := by
  simp [execute, Config.execute, Machine.fresh, unresolved]

theorem execute_of_balanced {table : JumpTable} (resolved : program.jumps = .ok table)
    (fuel : Nat) : execute fuel program cells policy source sink =
      (Config.run fuel ⟨.fresh program cells policy, source, sink⟩).map
        fun (d, e) => .ofStop d e := by
  simp [execute, Config.execute, Machine.fresh, resolved]

/-- The executions of a balanced program are the ends of its run. -/
theorem exists_execute_iff_ends {table : JumpTable} (resolved : program.jumps = .ok table)
    {x : Execution} :
    (∃ fuel, execute fuel program cells policy source sink = some x) ↔
      ∃ e, Config.Ends ⟨.fresh program cells policy, source, sink⟩ x.final e ∧
        x.outcome = .ofStop x.final.machine.output e := by
  constructor
  · rintro ⟨fuel, executed⟩
    rw [execute_of_balanced cells policy source sink resolved, Option.map_eq_some_iff] at executed
    obtain ⟨⟨d, e⟩, ended, rfl⟩ := executed
    exact ⟨e, ⟨fuel, by rw [ended, Execution.final_ofStop]⟩, by simp⟩
  · rintro ⟨e, ⟨fuel, ended⟩, outcome⟩
    refine ⟨fuel, ?_⟩
    simp only [execute_of_balanced cells policy source sink resolved, ended, Option.map_some,
      Execution.ofStop_eq, ← outcome]

/-- An execution comes to one end only, whatever the fuel. -/
theorem execute_unique {policy : PointerPolicy} {source : Source} {sink : Sink} {cells : Nat}
    {fuel fuel' : Nat} {x y : Execution}
    (one : execute fuel program cells policy source sink = some x)
    (two : execute fuel' program cells policy source sink = some y) : x = y := by
  cases resolved : program.jumps with
  | error e =>
    rw [execute_of_unbalanced cells policy source sink resolved] at one two
    exact Option.some.inj (one.symm.trans two)
  | ok table =>
    obtain ⟨e, ends, outcome⟩ := (exists_execute_iff_ends cells policy source sink resolved).1
      ⟨fuel, one⟩
    obtain ⟨e', ends', outcome'⟩ := (exists_execute_iff_ends cells policy source sink resolved).1
      ⟨fuel', two⟩
    obtain ⟨final, rfl⟩ := ends.unique ends'
    rw [← final] at outcome'
    calc x = ⟨.ofStop x.final.machine.output e, x.final⟩ := by rw [← outcome]
      _ = ⟨y.outcome, y.final⟩ := by rw [outcome', final]

/-- Two balanced programs whose runs end alike have the same executions, up to what `become` makes
of them. -/
theorem exists_execute_iff_of_ends {other : Program} {table table' : JumpTable}
    (resolved : program.jumps = .ok table) (resolved' : other.jumps = .ok table')
    {become : Execution → Execution}
    (forth : ∀ c e, Config.Ends ⟨.fresh program cells policy, source, sink⟩ c e →
      ∃ d e', Config.Ends ⟨.fresh other cells policy, source, sink⟩ d e' ∧
        Execution.ofStop d e' = become (.ofStop c e))
    (back : ∀ d e', Config.Ends ⟨.fresh other cells policy, source, sink⟩ d e' →
      ∃ c e, Config.Ends ⟨.fresh program cells policy, source, sink⟩ c e ∧
        Execution.ofStop d e' = become (.ofStop c e)) {y : Execution} :
    (∃ fuel, execute fuel other cells policy source sink = some y) ↔
      ∃ fuel x, execute fuel program cells policy source sink = some x ∧ y = become x := by
  constructor
  · intro executed
    obtain ⟨e', ends', outcome'⟩ :=
      (exists_execute_iff_ends cells policy source sink resolved').1 executed
    obtain ⟨c, e, ends, same⟩ := back y.final e' ends'
    obtain ⟨fuel, executed⟩ := (exists_execute_iff_ends cells policy source sink
      (x := .ofStop c e) resolved).2 ⟨e, by rwa [Execution.final_ofStop], by simp⟩
    refine ⟨fuel, _, executed, ?_⟩
    rw [← same, Execution.ofStop_eq, ← outcome']
  · rintro ⟨fuel, x, executed, rfl⟩
    obtain ⟨e, ends, outcome⟩ :=
      (exists_execute_iff_ends cells policy source sink resolved).1 ⟨fuel, executed⟩
    obtain ⟨d, e', ends', same⟩ := forth x.final e ends
    rw [Execution.ofStop_eq x.final, ← outcome] at same
    rw [← same]
    exact (exists_execute_iff_ends cells policy source sink resolved').2
      ⟨e', by rwa [Execution.final_ofStop], by simp⟩

theorem executeSized_eq_error_iff {room fuel : Nat} {size : Int} {policy : PointerPolicy}
    {source : Source} {sink : Sink} {e : TapeError} :
    executeSized room fuel program size policy source sink = .error e ↔
      Tape.cellsOfInt room size = .error e := by
  rw [executeSized_eq_map]
  cases Tape.cellsOfInt room size with
  | error e => simp only [Except.map, Except.error.injEq]
  | ok cells => simp only [Except.map, reduceCtorEq]

theorem executeSized_of_room_lt {room cells fuel : Nat} {policy : PointerPolicy}
    {source : Source} {sink : Sink} (word : (cells : Int) < Word.limit) (large : room < cells) :
    executeSized room fuel program cells policy source sink = .error .outOfMemory :=
  executeSized_eq_error_iff.2
    (Tape.cellsOfInt_eq_outOfMemory_iff.2 ⟨Int.ofNat_lt.2 large, word⟩)

theorem executeSized_of_limit_le {room fuel : Nat} {size : Int} {policy : PointerPolicy}
    {source : Source} {sink : Sink} (beyond : Word.limit ≤ size) :
    executeSized room fuel program size policy source sink = .error .outOfRange :=
  executeSized_eq_error_iff.2 (Tape.cellsOfInt_eq_outOfRange_iff.2 (Or.inr beyond))

theorem execute_of_executeSized {room cells fuel : Nat} {policy : PointerPolicy}
    {source : Source} {sink : Sink} {x : Execution}
    (executed : executeSized room fuel program cells policy source sink = .ok (some x)) :
    execute fuel program cells policy source sink = some x := by
  rw [executeSized_eq_map] at executed
  cases made : Tape.cellsOfInt room cells with
  | error e =>
    rw [made] at executed
    cases executed
  | ok made' =>
    obtain ⟨same, -⟩ := Tape.cellsOfInt_eq_ok_iff.1 made
    obtain rfl : cells = made' := by omega
    rw [made] at executed
    exact Except.ok.inj executed

end Execute

end ByteTape

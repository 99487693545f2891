import ByteTape.Proofs.Insertion
import ByteTape.Proofs.LazyBrackets
import ByteTape.Proofs.Structured
import Mathlib.Data.Set.Insert

set_option autoImplicit false

namespace ByteTape

/-- The machine is on its tape, and its cell is zero if it is at the beginning of the program or
directly behind a loop. -/
structure Machine.ZeroAfterLoops (program : Program) (m : Machine) : Prop where
  program_eq : m.program = program
  onTape : m.pointer < m.tape.size
  zero : m.ip = 0 ∨ m.program.fetch? (m.ip - 1) = some ']' → m.cell? = some 0

namespace Machine.ZeroAfterLoops

variable {m : Machine} {program : Program} {source : Source} {sink : Sink} {c : Config}
  {e : Option StepError}

theorem fresh (program : Program) {cells : Nat} (positive : 0 < cells) (policy : PointerPolicy) :
    (Machine.fresh program cells policy).ZeroAfterLoops program where
  program_eq := rfl
  onTape := by simpa [Machine.fresh] using positive
  zero := by simp [Machine.fresh, cell?, positive]

/-- The machine comes to the place behind a loop by looking at the cell in one of the loop's
brackets, and goes on to it only if the cell is zero. -/
theorem of_stepsTo (zero : m.ZeroAfterLoops program) (steps : StepsTo m source sink c e) :
    c.machine.ZeroAfterLoops program := by
  refine ⟨steps.program_eq.trans zero.program_eq, steps.onTape zero.onTape, ?_⟩
  cases e with
  | some e =>
    rw [steps.machine_eq]
    exact zero.zero
  | none =>
    intro after
    rw [steps.program_eq] at after
    by_cases jumping : m.Jumps
    · obtain ⟨table, partner, resolved, found, position⟩ := steps.ip_jump jumping
      have kept := steps.cell?_eq_of_bracket jumping.instruction?
      rw [m.program.jumps_eq] at resolved
      obtain ⟨value, cell, ⟨opening, rfl⟩ | ⟨closing, nonzero⟩⟩ := jumping
      · exact kept.trans cell
      · -- the machine goes back into the loop
        have fetched := fetch?_of_instruction? closing
        rw [Program.fetch?_eq_getElem?] at fetched
        have spans := JumpTable.spans_of_closing resolved fetched found
        simp [position, Program.fetch?_eq_getElem?, spans.getElem?_opening] at after
    · rw [steps.ip_next jumping, Nat.add_sub_cancel] at after
      have closing : m.instruction? = some .closeLoop :=
        instruction?_of_fetch? (after.resolve_left (Nat.succ_ne_zero _))
      rw [steps.cell?_eq_of_bracket (Or.inr closing)]
      obtain ⟨value, cell, ⟨opening, -⟩ | ⟨-, rfl⟩⟩ :=
        passes_of_bracket zero.onTape (Or.inr closing) jumping
      · simp [closing] at opening
      · exact cell

end Machine.ZeroAfterLoops

namespace Insertion

variable {a b d : List Char}

/-- A loop with the body `b` that is put in between `a` and `d`. -/
def ofLoop (a b d : List Char) (whole : Balanced (a ++ d)) (inside : Balanced b) : Insertion where
  front := a
  text := '[' :: (b ++ [']'])
  back := d
  whole := whole
  piece := .loop inside .nil

theorem spans_ofLoop (whole : Balanced (a ++ d)) (inside : Balanced b) :
    Spans (ofLoop a b d whole inside).long.code.toList a.length (a.length + b.length + 1) :=
  ⟨a, b, d, by simp [ofLoop, long], inside, rfl, rfl⟩

theorem step_ahead_ofLoop (whole : Balanced (a ++ d)) (inside : Balanced b) {c : Config}
    (cell : c.machine.cell? = some 0) (border : c.machine.ip = a.length) :
    (c.onMachine (ofLoop a b d whole inside).ahead).step =
      (c.onMachine (ofLoop a b d whole inside).behind, none) := by
  obtain ⟨table, resolved⟩ := (ofLoop a b d whole inside).exists_jumps_long
  have step := Config.step_of_spans (c := c.onMachine (ofLoop a b d whole inside).ahead) resolved
    (spans_ofLoop whole inside) cell (Or.inl (ip_ahead_border border))
  have goal : (ofLoop a b d whole inside).place a.length = a.length + b.length + 1 + 1 := by
    rw [place, ofLoop, moved_of_le (Nat.le_refl _)]
    simp [Nat.add_assoc]
  rw [step, if_pos rfl, ← goal]
  simp only [Config.onMachine, ahead, behind, Machine.resettle, border]

/-- At the beginning of a program, or behind a loop, a machine passes over a loop at once. -/
theorem passable_ofLoop (whole : Balanced (a ++ d)) (inside : Balanced b)
    (after : a = [] ∨ a.getLast? = some ']') :
    (ofLoop a b d whole inside).Passable {a.length}
      (Machine.ZeroAfterLoops (ofLoop a b d whole inside).short) where
  program_eq m zero := zero.program_eq
  kept m source sink c e zero steps := zero.of_stepsTo steps
  climbs := by
    intro c zero border
    have cell : c.machine.cell? = some 0 := by
      apply zero.zero
      rw [zero.program_eq, border]
      rcases after with rfl | closing
      · exact Or.inl rfl
      · have last := List.getLast?_eq_getElem?.symm.trans closing
        have bound := (List.getElem?_eq_some_iff.1 last).1
        rw [short, Program.fetch?_ofList]
        exact Or.inr ((List.getElem?_append_left bound).trans last)
    have undone : ((ofLoop a b d whole inside).ahead c.machine).done = false :=
      undone_ahead_border border (Nat.succ_pos _)
    have start := ip_ahead_border border
    have later : ((ofLoop a b d whole inside).ahead c.machine).ip <
        ((ofLoop a b d whole inside).behind c.machine).ip := by
      rw [start, ip_behind_border border]
      exact Nat.lt_add_of_pos_right (Nat.succ_pos _)
    exact .step undone (step_ahead_ofLoop whole inside cell border) start later (.here _)

theorem Reaches.ip_ofLoop {whole : Balanced (a ++ d)} {inside : Balanced b} {P : Config → Prop}
    {c c' : Config} (reaches : (ofLoop a b d whole inside).Reaches {a.length} P c c') :
    c.machine.ip ≤ a.length ∨ a.length + b.length + 2 ≤ c.machine.ip := by
  have position := reaches.ip_cases
  simp only [ofLoop, Set.mem_singleton_iff, List.length_cons, List.length_append,
    List.length_nil] at position
  omega

end Insertion

/-- A loop at the beginning of a program, or directly behind another loop, is dead. With it the
program gets its tape on the same terms, and runs to an end if and only if it does so without it.
The end is then the same, but that the positions behind the loop are moved by its length. However
far it runs, the machine never is in the loop, but for its opening bracket. -/
theorem loops_after_loops_are_dead (a b d : String) (whole : Balanced (a ++ d).toList)
    (inside : Balanced b.toList) (after : a = "" ∨ a.toList.getLast? = some ']') {cells : Nat}
    (positive : 0 < cells) (policy : PointerPolicy) (source : Source) (sink : Sink) :
    let long := Program.ofString (a ++ "[" ++ b ++ "]" ++ d)
    let short := Program.ofString (a ++ d)
    let place (i : Nat) := if i < a.length then i else i + (b.length + 2)
    (∀ room fuel size e, executeSized room fuel long size policy source sink = .error e ↔
      executeSized room fuel short size policy source sink = .error e) ∧
    (∀ y, (∃ fuel, execute fuel long cells policy source sink = some y) ↔
      ∃ fuel x, execute fuel short cells policy source sink = some x ∧
        y.outcome = x.outcome.relocate place ∧
        y.final.machine = { x.final.machine with
          program := long, ip := place x.final.machine.ip } ∧
        y.final.source = x.final.source ∧ y.final.sink = x.final.sink) ∧
    ∀ n, let reached := (Config.fresh long cells policy source sink).after n
      reached.machine.ip ≤ a.length ∨ a.length + b.length + 2 ≤ reached.machine.ip := by
  intro long short place
  rw [String.toList_append] at whole
  have long_eq : long = (Insertion.ofLoop a.toList b.toList d.toList whole inside).long := by
    simp [long, Program.ofString, Insertion.long, Insertion.ofLoop]
  have short_eq : short = (Insertion.ofLoop a.toList b.toList d.toList whole inside).short := by
    simp [short, Program.ofString, Insertion.short, Insertion.ofLoop]
  have place_eq : place = (Insertion.ofLoop a.toList b.toList d.toList whole inside).place := by
    funext i
    simp [place, Insertion.place, Insertion.ofLoop, moved, Nat.add_assoc, ← String.length_toList]
  have passable := Insertion.passable_ofLoop whole inside (by simpa using after)
  have start := Machine.ZeroAfterLoops.fresh
    (Insertion.ofLoop a.toList b.toList d.toList whole inside).short positive policy
  refine ⟨?_, ?_, ?_⟩
  · intro room fuel size e
    rw [executeSized_eq_error_iff, executeSized_eq_error_iff]
  · intro y
    simp only [long_eq, short_eq, place_eq, passable.exists_execute_iff start,
      Insertion.eq_lengthen_iff]
  · intro n
    have fresh := passable.reaches_fresh start source sink
    obtain ⟨c, reaches⟩ := passable.exists_reaches_after fresh n
    have outside := reaches.ip_ofLoop
    rw [String.length_toList, String.length_toList, ← long_eq] at outside
    exact outside

theorem loops_after_loops_are_dead_clearing :
    Balanced ("[-]" ++ "<").toList ∧ Balanced "+.".toList ∧ "[-]".toList.getLast? = some ']' ∧
      0 < 1 ∧ ∃ fuel y, execute fuel (Program.ofString ("[-]" ++ "[" ++ "+." ++ "]" ++ "<")) 1
        .bounded (.ofBytes #[]) .unlimited = some y ∧
        y.outcome = .failed (.outOfTape (-1) 1 7) ∧ y.final.machine.output = #[] := by
  have whole : Balanced ("[-]" ++ "<").toList := JumpTable.exists_ofCode_iff_balanced.1 ⟨_, rfl⟩
  have inside : Balanced "+.".toList := JumpTable.exists_ofCode_iff_balanced.1 ⟨_, rfl⟩
  have last : "[-]".toList.getLast? = some ']' := rfl
  have positive : 0 < 1 := by decide
  have dead := loops_after_loops_are_dead "[-]" "+." "<" whole inside (Or.inr last) positive
    .bounded (.ofBytes #[]) .unlimited
  have ended : ∃ x, execute 10 (Program.ofString ("[-]" ++ "<")) 1 .bounded (.ofBytes #[])
      .unlimited = some x ∧ x.outcome = .failed (.outOfTape (-1) 1 3) ∧
        x.final.machine.output = #[] := ⟨_, rfl, rfl, rfl⟩
  obtain ⟨x, executed, outcome, output⟩ := ended
  obtain ⟨fuel, executed'⟩ := (dead.2.1 ⟨x.outcome.relocate _, { x.final with machine := _ }⟩).2
    ⟨10, x, executed, rfl, rfl, rfl, rfl⟩
  refine ⟨whole, inside, last, positive, fuel, _, executed', ?_, output⟩
  rw [outcome]
  rfl

end ByteTape

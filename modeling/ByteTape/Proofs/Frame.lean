import ByteTape.Proofs.Reachable
import ByteTape.Proofs.TapeEnds

set_option autoImplicit false

namespace ByteTape

namespace Machine

/-- The same machine with more cells to the left and to the right of its tape. -/
def frame (left right : Array UInt8) (m : Machine) : Machine :=
  { m with tape := left ++ m.tape ++ right, pointer := left.size + m.pointer }

variable {m : Machine} {left right : Array UInt8}

theorem cell?_frame (onTape : m.pointer < m.tape.size) : (m.frame left right).cell? = m.cell? := by
  have inLeft : ¬left.size + m.pointer < left.size := by omega
  have inside : left.size + m.pointer < (left ++ m.tape).size := by
    rw [Array.size_append]
    omega
  simp only [cell?, frame]
  rw [Array.getElem?_append_left inside, Array.getElem?_append_right (by omega)]
  congr 1
  omega

theorem modify_frame (onTape : m.pointer < m.tape.size) (change : UInt8 → UInt8) :
    (left ++ m.tape ++ right).modify (left.size + m.pointer) change =
      left ++ m.tape.modify m.pointer change ++ right := by
  apply Array.ext_getElem?
  intro i
  grind

theorem target_frame {delta : Int} {pointer : Nat} (bounded : m.policy = .bounded)
    (goes : m.target delta = .ok pointer) :
    (m.frame left right).target delta = .ok (left.size + pointer) := by
  have bounded' : (m.frame left right).policy = .bounded := bounded
  rw [target_eq_ok_iff_of_bounded bounded] at goes
  rw [target_eq_ok_iff_of_bounded bounded']
  simp only [frame, Array.size_append]
  omega

theorem alike_frame (bounded : m.policy = .bounded) (onTape : m.pointer < m.tape.size)
    (stays : ∀ delta e, m.Moves delta → m.target delta ≠ .error e) :
    Alike id (frame left right) m (m.frame left right) where
  fetch?_eq := rfl
  ip_eq := rfl
  cell?_eq := cell?_frame onTape
  next_eq := rfl
  alter_eq change := by simp only [frame, modify_frame onTape change]
  write_eq value := rfl
  target_eq delta moving := by
    cases target : m.target delta with
    | error e => exact absurd target (stays delta e moving)
    | ok pointer => exact Or.inr ⟨_, _, rfl, target_frame bounded target, rfl⟩
  landing_eq jumping := landing_cases rfl fun ip => rfl

theorem frame_fresh (program : Program) (cells more : Nat) (policy : PointerPolicy) :
    (fresh program cells policy).frame #[] (.replicate more 0) =
      fresh program (cells + more) policy := by
  simp [fresh, frame]

end Machine

namespace Config

variable {c : Config}

theorem step_frame (bounded : c.machine.policy = .bounded)
    (onTape : c.machine.pointer < c.machine.tape.size) (stays : ¬c.LeavesTape)
    (left right : Array UInt8) :
    (c.onMachine (.frame left right)).step =
      (c.step.1.onMachine (.frame left right), c.step.2) := by
  apply step_onMachine_of_id
  apply Machine.alike_frame bounded onTape
  intro delta e moving fails
  exact stays (leavesTape_of_target_error onTape moving fails)

theorem step_after_frame (bounded : c.machine.policy = .bounded)
    (onTape : c.machine.pointer < c.machine.tape.size) {n : Nat} (stays : ¬(c.after n).LeavesTape)
    (left right : Array UInt8) :
    ((c.after n).onMachine (.frame left right)).step =
      ((c.after n).step.1.onMachine (.frame left right), (c.after n).step.2) := by
  apply step_frame
  · rw [policy_after, bounded]
  · exact onTape_after onTape n
  · exact stays

/-- A run that does not end because it tries to leave its tape ends alike on a longer one. -/
theorem ends_frame {d : Config} {e : Option StepError} (bounded : c.machine.policy = .bounded)
    (onTape : c.machine.pointer < c.machine.tape.size) (left right : Array UInt8)
    (ends : c.Ends d e) (stays : ∀ f, e = some f → ¬f.Outside) :
    (c.onMachine (.frame left right)).Ends (d.onMachine (.frame left right)) e := by
  obtain ⟨n, proceeds, stops⟩ := ends_iff_exists_stops.1 ends
  have done_eq (m : Machine) : (m.frame left right).done = m.done := rfl
  apply ends_onMachine done_eq proceeds stops
  intro k le undone
  apply step_after_frame bounded onTape
  rintro ⟨f, fails, outside⟩
  by_cases below : k < n
  · have succeeds := (proceeds k below).2
    simp [succeeds] at fails
  · have last : k = n := by omega
    subst last
    cases stops with
    | finished done => simp [undone] at done
    | fails undone step =>
      rw [step, Option.some.injEq] at fails
      exact stays f (by rw [fails]) outside

end Config

/-- On a tape of some length below the limit of a word, a run that does not end with the fault of a
pointer outside of the tape ends alike on every longer tape, of which the further cells stay
zero. -/
theorem execute_of_longer {program : Program} {cells larger : Nat} (positive : 0 < cells)
    (fits : (cells : Int) < Word.limit) (longer : cells ≤ larger) {source : Source} {sink : Sink}
    {fuel : Nat} {x : Execution}
    (executed : execute fuel program cells .bounded source sink = some x)
    (stays : ∀ pointer n ip, x.outcome ≠ .failed (.outOfTape pointer n ip)) :
    ∃ fuel', execute fuel' program larger .bounded source sink =
      some ⟨x.outcome, x.final.onMachine (.frame #[] (.replicate (larger - cells) 0))⟩ := by
  have written : x.outcome ≠ .escaped .unwritable := by
    intro escaped
    exact fromDevices_of_execute positive (writable_of_lt_limit fits) executed escaped
  cases resolved : program.jumps with
  | error e =>
    rw [execute_of_unbalanced cells .bounded source sink resolved, Option.some.injEq] at executed
    subst executed
    refine ⟨0, ?_⟩
    rw [execute_of_unbalanced larger .bounded source sink resolved]
    simp only [Config.onMachine, Machine.frame_fresh, Nat.add_sub_cancel' longer]
  | ok table =>
    obtain ⟨e, ends, outcome⟩ := (exists_execute_iff_ends cells .bounded source sink resolved).1
      ⟨fuel, executed⟩
    rw [outcome] at stays written
    have onTape : (Machine.fresh program cells .bounded).pointer <
        (Machine.fresh program cells .bounded).tape.size := by
      rw [Machine.size_tape_fresh]
      exact positive
    have inside (f : StepError) (fails : e = some f) : ¬f.Outside := by
      subst fails
      rintro (⟨pointer, n, ip, rfl⟩ | rfl)
      · exact stays pointer n ip rfl
      · exact written rfl
    apply (exists_execute_iff_ends larger .bounded source sink resolved).2
    refine ⟨e, ?_, outcome⟩
    have framed := Config.ends_frame rfl onTape #[] (.replicate (larger - cells) 0) ends inside
    simp only [Config.onMachine, Machine.frame_fresh, Nat.add_sub_cancel' longer] at framed
    exact framed

/-- A machine that may not leave its tape does not see more cells on either side of it: as long as
no step leads out of the shorter tape, all steps do the same on the longer one, with its further
cells untouched. So does a whole execution that does not end at an end of its tape, on every longer
tape that there can be: one that memory has room for, and whose length fits into a word. -/
theorem bounded_runs_frame :
    (∀ c : Config, c.machine.policy = .bounded → c.machine.pointer < c.machine.tape.size →
      ∀ (left right : Array UInt8) (n : Nat), (∀ k, k < n → ¬(c.after k).LeavesTape) →
        (c.onMachine (.frame left right)).after n = (c.after n).onMachine (.frame left right) ∧
        ∀ k, k < n →
          ((c.onMachine (.frame left right)).after k).step.2 = (c.after k).step.2) ∧
    ∀ (program : Program) (cells larger : Nat), 0 < cells → (cells : Int) < Word.limit →
      cells ≤ larger → ∀ (source : Source) (sink : Sink) (fuel : Nat) (x : Execution),
        execute fuel program cells .bounded source sink = some x →
        (∀ pointer n ip, x.outcome ≠ .failed (.outOfTape pointer n ip)) →
        let framed : Execution :=
          ⟨x.outcome, x.final.onMachine (.frame #[] (.replicate (larger - cells) 0))⟩
        (∃ fuel', execute fuel' program larger .bounded source sink = some framed) ∧
        ∀ room,
          let sized fuel := executeSized room fuel program larger .bounded source sink
          ((larger : Int) < Word.limit → larger ≤ room → ∃ fuel', sized fuel' = .ok (some framed)) ∧
          ((larger : Int) < Word.limit → room < larger →
            ∀ fuel', sized fuel' = .error .outOfMemory) ∧
          (Word.limit ≤ larger → ∀ fuel', sized fuel' = .error .outOfRange) := by
  constructor
  · intro c bounded onTape left right n stays
    have framed {m : Nat} (le : m ≤ n) :
        (c.onMachine (.frame left right)).after m = (c.after m).onMachine (.frame left right) := by
      apply Config.after_onMachine
      intro k below
      exact Config.step_after_frame bounded onTape (stays k (by omega)) left right
    refine ⟨framed (Nat.le_refl n), ?_⟩
    intro k below
    rw [framed (by omega), Config.step_after_frame bounded onTape (stays k below) left right]
  · intro program cells larger positive fits longer source sink fuel x executed stays framed
    obtain ⟨fuel', executed'⟩ := execute_of_longer positive fits longer executed stays
    refine ⟨⟨fuel', executed'⟩, ?_⟩
    intro room sized
    refine ⟨?_, fun word large fuel => executeSized_of_room_lt word large,
      fun beyond fuel => executeSized_of_limit_le beyond⟩
    intro word enough
    refine ⟨fuel', ?_⟩
    rw [← executed']
    exact executeSized_natCast word enough fuel' program .bounded source sink

def Config.rightAndBack : Config :=
  ⟨{ program := Program.ofString ">+<", tape := #[5, 255] }, .ofBytes #[], .unlimited⟩

theorem bounded_runs_frame_right_and_back :
    (∀ k, k < 3 → ¬(Config.rightAndBack.after k).LeavesTape) ∧
    ((Config.rightAndBack.onMachine (.frame #[1] #[2])).after 3).machine.tape = #[1, 5, 0, 2] ∧
    ∃ fuel x, executeSized 4 fuel (Program.ofString ">+<") (4 : Nat) .bounded (.ofBytes #[])
        .unlimited = .ok (some x) ∧ x.final.machine.tape = #[0, 1, 0, 0] := by
  have stays : ∀ k, k < 3 → ¬(Config.rightAndBack.after k).LeavesTape := by
    rintro k below ⟨e, fails, -⟩
    have succeeds : (Config.rightAndBack.after k).step.2 = none := by
      rcases k with - | - | - | k
      · rfl
      · rfl
      · rfl
      · omega
    simp [succeeds] at fails
  obtain ⟨stepwise, whole⟩ := bounded_runs_frame
  have framed := (stepwise Config.rightAndBack rfl (by decide) #[1] #[2] 3 stays).1
  have ended : ∃ x, execute 3 (Program.ofString ">+<") 2 .bounded (.ofBytes #[]) .unlimited =
      some x ∧ x.outcome = .completed (outputText #[]) ∧ x.final.machine.tape = #[0, 1] :=
    ⟨_, rfl, rfl, rfl⟩
  obtain ⟨x, executed, outcome, tape⟩ := ended
  have inside : ∀ pointer n ip, x.outcome ≠ .failed (.outOfTape pointer n ip) := by
    simp [outcome]
  obtain ⟨fuel, executed'⟩ := ((whole (Program.ofString ">+<") 2 4 (by decide) (by decide)
    (by decide) (.ofBytes #[]) .unlimited 3 x executed inside).2 4).1 (by decide) (Nat.le_refl 4)
  refine ⟨stays, ?_, fuel, _, executed', ?_⟩
  · rw [framed]
    rfl
  · simp [Config.onMachine, Machine.frame, tape]

end ByteTape

import ByteTape.Proofs.Likeness

set_option autoImplicit false

namespace ByteTape

namespace Config

variable {c d next : Config} {e : Option StepError}

theorem after_succ_of_step {f : Config} {n : Nat} (step : (c.after n).step = (f, e)) :
    c.after (n + 1) = f := by
  simp only [after, step]

/-- None of the first `n` steps fails, and the program is not done before them. -/
def Proceeds (c : Config) (n : Nat) : Prop :=
  ∀ k, k < n → (c.after k).machine.done = false ∧ (c.after k).step.2 = none

/-- A run from `c` is over at once and leaves `d`, because all is done or because the next step
fails by `e`. -/
inductive Stops (c : Config) : Config → Option StepError → Prop
  | finished (done : c.machine.done = true) : Stops c c none
  | fails {d : Config} {f : StepError} (undone : c.machine.done = false)
      (step : c.step = (d, some f)) : Stops c d (some f)

theorem Stops.machine_eq (stops : c.Stops d e) : d.machine = c.machine := by
  cases stops with
  | finished done => rfl
  | fails undone step => exact machine_of_error step

theorem Proceeds.of_le {n m : Nat} (proceeds : c.Proceeds n) (less : m ≤ n) : c.Proceeds m := by
  intro k below
  exact proceeds k (by omega)

theorem Proceeds.succ {n : Nat} (proceeds : c.Proceeds n)
    (undone : (c.after n).machine.done = false) (steps : (c.after n).step = (next, none)) :
    c.Proceeds (n + 1) := by
  intro k below
  by_cases earlier : k < n
  · exact proceeds k earlier
  · have latest : k = n := by omega
    subst latest
    exact ⟨undone, by rw [steps]⟩

theorem after_succ_of_first (step : c.step = (next, e)) (n : Nat) :
    c.after (n + 1) = next.after n := by
  rw [Nat.add_comm, after_add, after_succ_of_step (n := 0) step]

theorem Proceeds.cons {n : Nat} (undone : c.machine.done = false) (step : c.step = (next, none))
    (proceeds : next.Proceeds n) : c.Proceeds (n + 1) := by
  intro k below
  cases k with
  | zero => exact ⟨undone, congrArg Prod.snd step⟩
  | succ k =>
    rw [after_succ_of_first step]
    exact proceeds k (by omega)

theorem Proceeds.ends_iff {n : Nat} (proceeds : c.Proceeds n) :
    c.Ends d e ↔ (c.after n).Ends d e := by
  induction n with
  | zero => exact Iff.rfl
  | succ n ih =>
    obtain ⟨undone, succeeds⟩ := proceeds n (by omega)
    have step : (c.after n).step = (c.after (n + 1), none) := Prod.ext rfl succeeds
    rw [ih (proceeds.of_le (by omega)), ends_iff_of_step undone step]

theorem Stops.ends (stops : c.Stops d e) : c.Ends d e := by
  cases stops with
  | finished done => exact ends_of_done done
  | fails undone step => exact ends_of_error undone step

theorem ends_iff_exists_stops :
    c.Ends d e ↔ ∃ n, c.Proceeds n ∧ (c.after n).Stops d e := by
  constructor
  · rintro ⟨fuel, ended⟩
    have start : ∃ n, c.Proceeds n ∧ c.after n = c := ⟨0, by simp [Proceeds], rfl⟩
    have kept (x next : Config) (reached : ∃ n, c.Proceeds n ∧ c.after n = x)
        (undone : x.machine.done = false) (steps : x.step = (next, none)) :
        ∃ n, c.Proceeds n ∧ c.after n = next := by
      obtain ⟨n, proceeds, rfl⟩ := reached
      exact ⟨n + 1, proceeds.succ undone steps, after_succ_of_step steps⟩
    rcases run_keeps kept start ended with
      ⟨rfl, ⟨n, proceeds, rfl⟩, done⟩ | ⟨last, f, rfl, ⟨n, proceeds, rfl⟩, undone, fails⟩
    · exact ⟨n, proceeds, .finished done⟩
    · exact ⟨n, proceeds, .fails undone fails⟩
  · rintro ⟨n, proceeds, stops⟩
    exact proceeds.ends_iff.2 stops.ends

section OnMachine

variable {f : Machine → Machine} {n : Nat}

/-- Steps before which it does not matter whether `f` is applied make a run before which it does
not matter, either. -/
theorem after_onMachine
    (same : ∀ k, k < n →
      ((c.after k).onMachine f).step = ((c.after k).step.1.onMachine f, (c.after k).step.2)) :
    (c.onMachine f).after n = (c.after n).onMachine f := by
  induction n with
  | zero => rfl
  | succ n ih =>
    simp only [after]
    rw [ih fun k below => same k (by omega), same n (by omega)]

theorem ends_onMachine (done_eq : ∀ m, (f m).done = m.done) (proceeds : c.Proceeds n)
    (stops : (c.after n).Stops d e)
    (same : ∀ k, k ≤ n → (c.after k).machine.done = false →
      ((c.after k).onMachine f).step = ((c.after k).step.1.onMachine f, (c.after k).step.2)) :
    (c.onMachine f).Ends (d.onMachine f) e := by
  have before {k : Nat} (le : k ≤ n) : (c.onMachine f).after k = (c.after k).onMachine f := by
    apply after_onMachine
    intro j below
    exact same j (by omega) (proceeds j (by omega)).1
  apply ends_iff_exists_stops.2
  refine ⟨n, ?_, ?_⟩
  · intro k below
    obtain ⟨undone, succeeds⟩ := proceeds k below
    rw [before (by omega), same k (by omega) undone]
    exact ⟨(done_eq _).trans undone, succeeds⟩
  · rw [before (Nat.le_refl n)]
    cases stops with
    | finished done => exact .finished ((done_eq _).trans done)
    | fails undone step =>
      apply Stops.fails ((done_eq _).trans undone)
      rw [same n (Nat.le_refl n) undone, step]

end OnMachine

/-- What two related configurations do next. Both are over, both take a step and stay related, both
fail, or the first takes a step of its own and is nearer to what it does together with the second;
`Same` says how their ends are related. -/
inductive Follows (R : Config → Config → Prop) (rank : Config → Nat)
    (Same : Config → Option StepError → Config → Option StepError → Prop) (c d : Config) : Prop
  | finished (done : c.machine.done = true) (done' : d.machine.done = true)
      (same : Same c none d none)
  | waits {next : Config} (undone : c.machine.done = false) (step : c.step = (next, none))
      (related : R next d) (nearer : rank next < rank c)
  | goes {next next' : Config} (undone : c.machine.done = false)
      (undone' : d.machine.done = false) (step : c.step = (next, none))
      (step' : d.step = (next', none)) (related : R next next')
  | fails {last last' : Config} {f f' : StepError} (undone : c.machine.done = false)
      (undone' : d.machine.done = false) (step : c.step = (last, some f))
      (step' : d.step = (last', some f')) (same : Same last (some f) last' (some f'))

section Follows

variable {R : Config → Config → Prop} {rank : Config → Nat}
  {Same : Config → Option StepError → Config → Option StepError → Prop} {c' d' : Config}
  {e' : Option StepError}

theorem exists_fuel_of_undone {fuel : Nat} (undone : c.machine.done = false)
    (ended : c.run fuel = some (d, e)) : ∃ less, fuel = less + 1 := by
  cases fuel with
  | zero => simp [run_zero_of_not_done undone] at ended
  | succ less => exact ⟨less, rfl⟩

theorem exists_ends_of_follows (simulates : ∀ c d, R c d → Follows R rank Same c d)
    (related : R c d) (ends : c.Ends c' e) : ∃ d' e', d.Ends d' e' ∧ Same c' e d' e' := by
  obtain ⟨fuel, ended⟩ := ends
  induction fuel using Nat.strongRecOn generalizing c d with
  | ind fuel ih =>
    cases simulates c d related with
    | finished done done' same =>
      rw [run_of_done done, Option.some.injEq, Prod.mk.injEq] at ended
      obtain ⟨rfl, rfl⟩ := ended
      exact ⟨d, none, ends_of_done done', same⟩
    | waits undone step related nearer =>
      obtain ⟨less, rfl⟩ := exists_fuel_of_undone undone ended
      rw [run_succ_of_step undone step] at ended
      exact ih less (by omega) related ended
    | goes undone undone' step step' related =>
      obtain ⟨less, rfl⟩ := exists_fuel_of_undone undone ended
      rw [run_succ_of_step undone step] at ended
      obtain ⟨d', e', ends', same⟩ := ih less (by omega) related ended
      exact ⟨d', e', (ends_iff_of_step undone' step').2 ends', same⟩
    | fails undone undone' step step' same =>
      obtain ⟨less, rfl⟩ := exists_fuel_of_undone undone ended
      rw [run_succ_of_error undone step, Option.some.injEq, Prod.mk.injEq] at ended
      obtain ⟨rfl, rfl⟩ := ended
      exact ⟨_, _, ends_of_error undone' step', same⟩

/-- If the run that `c` follows ends, then so does the one from `c`. The rank bounds the steps that
it takes alone. -/
theorem exists_ends_of_followed (simulates : ∀ c d, R c d → Follows R rank Same c d)
    (related : R c d) (ends : d.Ends d' e') : ∃ c' e, c.Ends c' e ∧ Same c' e d' e' := by
  obtain ⟨fuel, ended⟩ := ends
  induction fuel using Nat.strongRecOn generalizing c d with
  | ind fuel ih =>
    induction near : rank c using Nat.strongRecOn generalizing c with
    | ind r ihRank =>
      subst near
      cases simulates c d related with
      | finished done done' same =>
        rw [run_of_done done', Option.some.injEq, Prod.mk.injEq] at ended
        obtain ⟨rfl, rfl⟩ := ended
        exact ⟨c, none, ends_of_done done, same⟩
      | waits undone step related nearer =>
        obtain ⟨c', e, ends, same⟩ := ihRank _ nearer related rfl
        exact ⟨c', e, (ends_iff_of_step undone step).2 ends, same⟩
      | goes undone undone' step step' related =>
        obtain ⟨less, rfl⟩ := exists_fuel_of_undone undone' ended
        rw [run_succ_of_step undone' step'] at ended
        obtain ⟨c', e, ends, same⟩ := ih less (by omega) related ended
        exact ⟨c', e, (ends_iff_of_step undone step).2 ends, same⟩
      | fails undone undone' step step' same =>
        obtain ⟨less, rfl⟩ := exists_fuel_of_undone undone' ended
        rw [run_succ_of_error undone' step', Option.some.injEq, Prod.mk.injEq] at ended
        obtain ⟨rfl, rfl⟩ := ended
        exact ⟨_, _, ends_of_error undone step, same⟩

end Follows

end Config

end ByteTape

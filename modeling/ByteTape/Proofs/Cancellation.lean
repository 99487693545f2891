import ByteTape.Proofs.Diagnosis
import ByteTape.Proofs.Insertion
import ByteTape.Proofs.StraightText

set_option autoImplicit false

namespace ByteTape

/-- A straight text that adds nothing to any cell and brings the pointer back. -/
structure Neutral (text : List Char) : Prop where
  straight : Straight text
  drift_eq : drift text = 0
  gain_eq : ∀ cells p cell, gain cells p text cell = 0

/-- Two characters do nothing together if they undo each other's moves and changes, and either do
not move or do not change anything. -/
theorem Neutral.pair {x y : Char} (straight : Straight [x, y]) (back : stride x + stride y = 0)
    (restores : increase x + increase y = 0) (apart : stride x = 0 ∨ increase x = 0) :
    Neutral [x, y] where
  straight := straight
  drift_eq := by
    rw [drift_cons, drift_singleton]
    exact back
  gain_eq := by
    intro cells p cell
    rw [← List.singleton_append, gain_append, gain_singleton, gain_singleton, drift_singleton]
    rcases apart with still | unchanged
    · rw [still, Int.add_zero]
      split
      · exact restores
      · rfl
    · rw [unchanged, show increase y = 0 by omega, ite_self, ite_self, Int.add_zero]

namespace Config

variable {c d x : Config} {e : Option StepError} {stops : Set Nat} {p : Int} {text : List Char}

theorem Climbs.ends_iff (climbs : Climbs stops c d) : c.Ends x e ↔ d.Ends x e := by
  induction climbs with
  | here => exact Iff.rfl
  | step undone step _ _ _ ih => exact (ends_iff_of_step undone step).trans ih

theorem climbs_of_straight (reached : c.machine.AtStraightText p text) :
    Climbs Set.univ c (c.onMachine (.pass p text)) := by
  have rest {n k : Nat} (split : n + k = text.length) :
      Climbs Set.univ (c.onMachine (.pass p (text.take n))) (c.onMachine (.pass p text)) := by
    induction k generalizing n with
    | zero =>
      rw [List.take_of_length_le (by omega)]
      exact .here _
    | succ k ih =>
      have below : n < text.length := by omega
      have fetched : (c.onMachine (.pass p (text.take n))).machine.program.fetch?
          (c.onMachine (.pass p (text.take n))).machine.ip = some text[n] := by
        simp only [onMachine, Machine.pass, List.length_take, Nat.min_eq_left (Nat.le_of_lt below)]
        exact (reached.stands n below).trans (List.getElem?_eq_getElem below)
      have undone := Machine.not_done_of_fetch? fetched
      refine .step undone (step_pass_take reached below) trivial ?_ (ih (by omega))
      simp only [onMachine, Machine.pass, List.length_take]
      omega
  have start := rest (n := 0) (Nat.zero_add _)
  rw [List.take_zero, onMachine, Machine.pass_nil reached.pointer_eq] at start
  exact start

end Config

namespace Insertion

variable {ins : Insertion} {m : Machine} {c d x : Config} {e : Option StepError}
  {stops : Set Nat}

theorem atStraightText_ahead (neutral : Neutral ins.text) (onTape : m.pointer < m.tape.size)
    (border : m.ip = ins.front.length) (stays : m.StaysOnTape m.pointer ins.text) :
    (ins.ahead m).AtStraightText m.pointer ins.text where
  positive := Nat.zero_lt_of_lt onTape
  pointer_eq := by
    have around : (m.pointer : Int) % m.tape.size = m.pointer :=
      Int.emod_eq_of_lt (by omega) (by omega)
    simp only [ahead, Machine.resettle, around, Int.toNat_natCast]
  stands := by
    intro k below
    rw [ip_ahead_border border]
    simp only [ahead, Machine.resettle, long, Program.fetch?_ofList]
    rw [List.getElem?_append_right (by omega), Nat.add_sub_cancel_left,
      List.getElem?_append_left below]
  straight := neutral.straight
  stays := stays

/-- A text that does nothing is climbed through if the pointer stays on the tape. -/
theorem climbs_of_neutral (neutral : Neutral ins.text)
    (onTape : d.machine.pointer < d.machine.tape.size)
    (border : d.machine.ip = ins.front.length)
    (stays : d.machine.StaysOnTape d.machine.pointer ins.text) :
    Config.Climbs Set.univ (d.onMachine ins.ahead) (d.onMachine ins.behind) := by
  have reached := atStraightText_ahead neutral onTape border stays
  have climbs := Config.climbs_of_straight (c := d.onMachine ins.ahead) reached
  have through : (ins.ahead d.machine).pass d.machine.pointer ins.text = ins.behind d.machine := by
    have position := ip_behind_border border
    simp only [Machine.pass, neutral.drift_eq, Int.add_zero, reached.pointer_eq,
      Tape.plus_eq_self (neutral.gain_eq _ _), ip_ahead_border border, ← position]
    rfl
  rwa [Config.onMachine, Config.onMachine, through] at climbs

/-- As long as the shorter program goes on and each of its visits to the border can be passed, the
longer one ends where it ends from the place that corresponds. -/
theorem ends_ahead_iff (program_eq : d.machine.program = ins.short) {n : Nat}
    (proceeds : d.Proceeds n)
    (climbs : ∀ k, k < n → (d.after k).machine.ip = ins.front.length →
      Config.Climbs stops ((d.after k).onMachine ins.ahead) ((d.after k).onMachine ins.behind)) :
    (d.onMachine ins.ahead).Ends x e ↔ ((d.after n).onMachine ins.ahead).Ends x e := by
  induction n with
  | zero => exact Iff.rfl
  | succ n ih =>
    obtain ⟨undone, succeeds⟩ := proceeds n (by omega)
    have same : (d.after n).machine.program = ins.short :=
      (Config.program_after d n).trans program_eq
    have stepped : (d.after n).step = (d.after (n + 1), none) := Prod.ext rfl succeeds
    have step := step_behind same
    rw [stepped] at step
    have passed := reaches_ahead (P := fun _ => True) trivial (climbs n (by omega))
    rw [ih (proceeds.of_le (by omega)) fun k below => climbs k (by omega),
      passed.climbs.ends_iff]
    exact Config.ends_iff_of_step ((done_behind same).trans undone) step

end Insertion

/-- Two characters that bring the pointer back keep it on the tape if the first one does. -/
theorem Machine.staysOnTape_pair {m : Machine} {x y : Char} (onTape : m.pointer < m.tape.size)
    (back : stride x + stride y = 0) (inside : m.policy = .bounded →
      0 ≤ m.pointer + stride x ∧ m.pointer + stride x < m.tape.size) :
    m.StaysOnTape m.pointer [x, y] := by
  intro bounded n le
  rcases n with - | - | - | n
  · simpa using onTape
  · simpa only [Nat.zero_add, List.take_succ_cons, List.take_zero, drift_singleton]
      using inside bounded
  · simpa [drift_cons, back] using onTape
  · simp at le

theorem Config.step_of_leaving {c : Config} {goal : Int} (bounded : c.machine.policy = .bounded)
    (onTape : c.machine.pointer < c.machine.tape.size) (leaving : c.machine.Leaving goal) :
    c.step = (c, some (.outOfTape goal c.machine.tape.size c.machine.ip)) := by
  rcases leaving with ⟨fetched, last, rfl⟩ | ⟨fetched, first, rfl⟩
  · have instruction := Machine.instruction?_of_fetch? (i := .right) fetched
    apply step_of_target_error (Or.inl ⟨instruction, rfl⟩)
    rw [Machine.target_one onTape, if_neg (by omega), bounded]
  · have instruction := Machine.instruction?_of_fetch? (i := .left) fetched
    apply step_of_target_error (Or.inr ⟨instruction, rfl⟩)
    rw [Machine.target_neg_one onTape, first, bounded]

/-- On the same tape with the same devices, `long` runs to an end if and only if `short` does, and
to the same end, but that the positions are moved by `place`. -/
def Program.RunsAlike (place : Nat → Nat) (long short : Program) (cells : Nat)
    (policy : PointerPolicy) (source : Source) (sink : Sink) : Prop :=
  ∀ y, (∃ fuel, execute fuel long cells policy source sink = some y) ↔
    ∃ fuel x, execute fuel short cells policy source sink = some x ∧
      y.outcome = x.outcome.relocate place ∧
      y.final.machine = { x.final.machine with
        program := long, ip := place x.final.machine.ip } ∧
      y.final.source = x.final.source ∧ y.final.sink = x.final.sink

/-- The execution fails because the pointer would leave the tape at one of the `more` characters
from position `border` on. -/
def Execution.LeavesTapeWithin (border more : Nat) (x : Execution) : Prop :=
  ∃ goal cells ip, x.outcome = .failed (.outOfTape goal cells ip) ∧ border ≤ ip ∧
    ip < border + more

namespace Insertion

variable {ins : Insertion} {m : Machine} {x y : Char} {cells : Nat}
  {policy : PointerPolicy} {source : Source} {sink : Sink} {stops : Set Nat}

theorem ahead_border (border : m.ip = ins.front.length) :
    ins.ahead m = { m with program := ins.long } := by
  rw [ahead, Machine.resettle, border, entered_border, ← border]

theorem fetch?_ahead_border (pair : ins.text = [x, y]) (border : m.ip = ins.front.length) :
    (ins.ahead m).program.fetch? (ins.ahead m).ip = some x := by
  rw [ip_ahead_border border]
  simp [ahead, Machine.resettle, long, pair]

/-- The pointer that cannot go through the pair leaves the tape at its first character. -/
theorem leaving_ahead (pair : ins.text = [x, y]) (back : stride x + stride y = 0)
    (onTape : m.pointer < m.tape.size) (border : m.ip = ins.front.length)
    (leaves : ¬m.StaysOnTape m.pointer ins.text) :
    m.policy = .bounded ∧ ∃ goal, (ins.ahead m).Leaving goal := by
  have fetched := fetch?_ahead_border pair border
  rw [pair] at leaves
  have outside : ¬(m.policy = .bounded →
      0 ≤ m.pointer + stride x ∧ m.pointer + stride x < m.tape.size) :=
    fun inside => leaves (Machine.staysOnTape_pair onTape back inside)
  rw [Classical.not_imp] at outside
  obtain ⟨bounded, outside⟩ := outside
  refine ⟨bounded, ?_⟩
  by_cases right : x = '>'
  · subst right
    have last : m.pointer + 1 = m.tape.size := by
      simp only [stride] at outside
      omega
    exact ⟨_, Or.inl ⟨fetched, last, rfl⟩⟩
  · by_cases left : x = '<'
    · subst left
      have first : m.pointer = 0 := by
        simp only [stride] at outside
        omega
      exact ⟨_, Or.inr ⟨fetched, first, rfl⟩⟩
    · rw [stride_of_ne right left] at outside
      omega

/-- The run of the shorter program gets through the pair, or it comes to the border with the pointer
at the end of a tape that the pair would leave; then the longer program fails there. -/
theorem traversed_or_leaves (neutral : Neutral ins.text) (pair : ins.text = [x, y])
    (positive : 0 < cells) (policy : PointerPolicy) (source : Source) (sink : Sink) :
    let start := Config.fresh ins.short cells policy source sink
    ins.Traversed Set.univ start ∨
      policy = .bounded ∧ ∃ n goal, start.Proceeds n ∧
        (start.after n).machine.ip = ins.front.length ∧
        (ins.ahead (start.after n).machine).Leaving goal ∧
        (Config.fresh ins.long cells policy source sink).Ends
          ((start.after n).onMachine ins.ahead)
          (some (.outOfTape goal cells ins.front.length)) := by
  intro start
  have onTape (n : Nat) : (start.after n).machine.pointer < (start.after n).machine.tape.size := by
    apply Config.onTape_after
    simpa [start, Config.fresh, Machine.fresh] using positive
  let Blocked (n : Nat) := start.Proceeds n ∧ (start.after n).machine.ip = ins.front.length ∧
    ¬(start.after n).machine.StaysOnTape (start.after n).machine.pointer ins.text
  have climbs {n : Nat} (free : ¬Blocked n) (proceeds : start.Proceeds n)
      (border : (start.after n).machine.ip = ins.front.length) :
      Config.Climbs Set.univ ((start.after n).onMachine ins.ahead)
        ((start.after n).onMachine ins.behind) := by
    apply climbs_of_neutral neutral (onTape n) border
    exact Decidable.byContradiction fun leaves => free ⟨proceeds, border, leaves⟩
  by_cases first : ∃ n, Blocked n ∧ ∀ k, k < n → ¬Blocked k
  · right
    obtain ⟨n, ⟨proceeds, border, leaves⟩, free⟩ := first
    have back : stride x + stride y = 0 := by
      rw [← drift_singleton y, ← drift_cons, ← pair]
      exact neutral.drift_eq
    obtain ⟨bounded, goal, leaving⟩ := leaving_ahead pair back (onTape n) border leaves
    refine ⟨(Config.policy_after start n).symm.trans bounded, n, goal, proceeds, border, leaving,
      ?_⟩
    have stuck := Config.step_of_leaving (c := (start.after n).onMachine ins.ahead) bounded
      (onTape n) leaving
    have size : ((start.after n).onMachine ins.ahead).machine.tape.size = cells :=
      (Config.size_tape_after start n).trans (Machine.size_tape_fresh _ _ _)
    have position : ((start.after n).onMachine ins.ahead).machine.ip = ins.front.length :=
      ip_ahead_border border
    rw [size, position] at stuck
    have undone : ((start.after n).onMachine ins.ahead).machine.done = false :=
      undone_ahead_border border (by simp [pair])
    have begins : Config.fresh ins.long cells policy source sink = start.onMachine ins.ahead := by
      rw [Config.fresh, ← ahead_fresh]
      rfl
    rw [begins, ends_ahead_iff rfl proceeds fun k below border =>
      climbs (free k below) (proceeds.of_le (by omega)) border]
    exact Config.ends_of_error undone stuck
  · left
    have never (n : Nat) : ¬Blocked n := by
      induction n using Nat.strongRecOn with
      | ind n ih => exact fun blocked => first ⟨n, blocked, ih⟩
    exact ⟨rfl, fun n => climbs (never n)⟩

theorem Traversed.runsAlike
    (traversed : ins.Traversed stops (Config.fresh ins.short cells policy source sink)) :
    Program.RunsAlike ins.place ins.long ins.short cells policy source sink := by
  intro y
  rw [Config.fresh] at traversed
  simp only [traversed.exists_execute_iff, eq_lengthen_iff]

theorem Traversed.not_leavesTapeWithin
    (traversed : ins.Traversed stops (Config.fresh ins.short cells policy source sink))
    {fuel : Nat} {y : Execution}
    (executed : execute fuel ins.long cells policy source sink = some y) :
    ¬y.LeavesTapeWithin ins.front.length ins.text.length := by
  rintro ⟨goal, size, ip, fails, behind, before⟩
  obtain ⟨-, x, -, outcome, -⟩ := (traversed.runsAlike y).1 ⟨fuel, executed⟩
  rw [fails] at outcome
  cases ended : x.outcome with
  | completed text => simp [ended, Outcome.relocate] at outcome
  | escaped e => simp [ended, Outcome.relocate] at outcome
  | failed f =>
    cases f with
    | unbalanced e => simp [ended, Outcome.relocate, Fault.relocate] at outcome
    | input ip e => simp [ended, Outcome.relocate, Fault.relocate] at outcome
    | foreign fault => simp [ended, Outcome.relocate, Fault.relocate] at outcome
    | outOfTape goal' size' ip' =>
      simp only [ended, Outcome.relocate, Fault.relocate, Outcome.failed.injEq,
        Fault.outOfTape.injEq] at outcome
      have position := outcome.2.2
      simp only [place, moved] at position
      split at position <;> omega

theorem traversed_of_still (neutral : Neutral ins.text) (pair : ins.text = [x, y])
    (noRight : x ≠ '>') (noLeft : x ≠ '<') (positive : 0 < cells) (policy : PointerPolicy)
    (source : Source) (sink : Sink) :
    ins.Traversed Set.univ (Config.fresh ins.short cells policy source sink) := by
  refine (traversed_or_leaves neutral pair positive policy source sink).resolve_right ?_
  rintro ⟨-, n, goal, -, border, leaving, -⟩
  have fetched := fetch?_ahead_border pair border
  rcases leaving with ⟨right, -⟩ | ⟨left, -⟩
  · exact noRight (Option.some.inj (fetched.symm.trans right))
  · exact noLeft (Option.some.inj (fetched.symm.trans left))

theorem traversed_of_wrap (neutral : Neutral ins.text) (pair : ins.text = [x, y])
    (positive : 0 < cells) (source : Source) (sink : Sink) :
    ins.Traversed Set.univ (Config.fresh ins.short cells .wrap source sink) := by
  refine (traversed_or_leaves neutral pair positive .wrap source sink).resolve_right ?_
  rintro ⟨bounded, -⟩
  cases bounded

/-- On a tape of some length below the limit of a word, the longer program reports where it leaves
the tape if it does not get through the pair. -/
theorem traversed_or_execute (neutral : Neutral ins.text) (pair : ins.text = [x, y])
    (positive : 0 < cells) (fits : (cells : Int) < Word.limit) (policy : PointerPolicy)
    (source : Source) (sink : Sink) :
    let start := Config.fresh ins.short cells policy source sink
    ins.Traversed Set.univ start ∨ ∃ (n : Nat) (goal : Int) (fuel : Nat), start.Proceeds n ∧
      (start.after n).machine.ip = ins.front.length ∧
      (x = '>' ∧ (start.after n).machine.pointer + 1 = cells ∧ goal = cells ∨
        x = '<' ∧ (start.after n).machine.pointer = 0 ∧ goal = -1) ∧
      execute fuel ins.long cells policy source sink =
        some ⟨.failed (.outOfTape goal cells ins.front.length),
          (start.after n).onMachine ins.ahead⟩ := by
  intro start
  rcases traversed_or_leaves neutral pair positive policy source sink with
    traversed | ⟨-, n, goal, proceeds, border, leaving, ends⟩
  · exact Or.inl traversed
  · right
    have size : (start.after n).machine.tape.size = cells :=
      (Config.size_tape_after start n).trans (Machine.size_tape_fresh _ _ _)
    have edge : x = '>' ∧ (start.after n).machine.pointer + 1 = cells ∧ goal = cells ∨
        x = '<' ∧ (start.after n).machine.pointer = 0 ∧ goal = -1 := by
      rw [Machine.Leaving, fetch?_ahead_border pair border, Option.some.injEq, Option.some.injEq]
        at leaving
      rw [← size]
      exact leaving
    have written : Text.Writable goal := by
      rcases edge with ⟨-, -, rfl⟩ | ⟨-, -, rfl⟩
      · exact writable_of_lt_limit fits
      · decide
    rw [StepError.outOfTape_of_writable written] at ends
    obtain ⟨table, resolved⟩ := ins.exists_jumps_long
    obtain ⟨fuel, executed⟩ := (exists_execute_iff_ends cells policy source sink resolved
      (x := ⟨.failed (.outOfTape goal cells ins.front.length),
        (start.after n).onMachine ins.ahead⟩)).2 ⟨_, ends, rfl⟩
    exact ⟨n, goal, fuel, proceeds, border, edge, executed⟩

theorem runsAlike_of_not_leaves (neutral : Neutral ins.text) (pair : ins.text = [x, y])
    (positive : 0 < cells) (fits : (cells : Int) < Word.limit)
    (stays : ∀ fuel z, execute fuel ins.long cells policy source sink = some z →
      ¬z.LeavesTapeWithin ins.front.length 2) :
    Program.RunsAlike ins.place ins.long ins.short cells policy source sink := by
  rcases traversed_or_execute neutral pair positive fits policy source sink with
    traversed | ⟨n, goal, fuel, -, -, -, executed⟩
  · exact traversed.runsAlike
  · have leaves : Execution.LeavesTapeWithin ins.front.length 2
        ⟨.failed (.outOfTape goal cells ins.front.length),
          ((Config.fresh ins.short cells policy source sink).after n).onMachine ins.ahead⟩ :=
      ⟨_, _, _, rfl, Nat.le_refl _, by omega⟩
    exact absurd leaves (stays fuel _ executed)

/-- A run that leaves the tape in the pair does so at its first character, which it has come to as
the shorter program comes to the border. -/
theorem exists_border_of_leaves (neutral : Neutral ins.text) (pair : ins.text = [x, y])
    (positive : 0 < cells) (fits : (cells : Int) < Word.limit) {fuel : Nat} {z : Execution}
    (executed : execute fuel ins.long cells policy source sink = some z)
    (leaves : z.LeavesTapeWithin ins.front.length 2) :
    let start := Config.fresh ins.short cells policy source sink
    ∃ (goal : Int) (n : Nat), z.outcome = .failed (.outOfTape goal cells ins.front.length) ∧
      (x = '>' ∧ z.final.machine.pointer + 1 = cells ∧ goal = cells ∨
        x = '<' ∧ z.final.machine.pointer = 0 ∧ goal = -1) ∧
      start.Proceeds n ∧ (start.after n).machine.ip = ins.front.length ∧
      z.final = (start.after n).onMachine fun m => { m with program := ins.long } := by
  intro start
  rcases traversed_or_execute neutral pair positive fits policy source sink with
    traversed | ⟨n, goal, fuel', proceeds, border, edge, executed'⟩
  · have length : ins.text.length = 2 := by simp [pair]
    rw [← length] at leaves
    exact absurd leaves (traversed.not_leavesTapeWithin executed)
  · obtain rfl := execute_unique executed executed'
    refine ⟨goal, n, rfl, edge, proceeds, border, ?_⟩
    simp only [Config.onMachine, ahead_border border]
    rfl

/-- The insertion of a text that is nothing but two characters which undo each other. -/
theorem exists_ofPair {a d pair : String} (whole : Balanced (a ++ d).toList)
    (spelled : pair.toList = [x, y]) (neutral : Neutral [x, y]) :
    ∃ ins : Insertion, Neutral ins.text ∧ ins.text = [x, y] ∧ ins.front.length = a.length ∧
      ins.long = Program.ofString (a ++ pair ++ d) ∧ ins.short = Program.ofString (a ++ d) ∧
      ins.place = fun i => if i < a.length then i else i + 2 := by
  rw [String.toList_append] at whole
  refine ⟨⟨a.toList, [x, y], d.toList, whole, neutral.straight.balanced⟩, neutral, rfl,
    String.length_toList, ?_, ?_, ?_⟩
  · simp [long, Program.ofString, spelled]
  · simp [short, Program.ofString]
  · funext i
    rw [place, moved, String.length_toList]
    rfl

end Insertion

theorem neutral_plus_minus : Neutral ['+', '-'] :=
  .pair (by simp [Straight]) rfl rfl (Or.inl rfl)

theorem neutral_minus_plus : Neutral ['-', '+'] :=
  .pair (by simp [Straight]) rfl rfl (Or.inl rfl)

theorem neutral_right_left : Neutral ['>', '<'] :=
  .pair (by simp [Straight]) rfl rfl (Or.inr rfl)

theorem neutral_left_right : Neutral ['<', '>'] :=
  .pair (by simp [Straight]) rfl rfl (Or.inr rfl)

theorem exists_neutral_of_changes {pair : String} (member : pair ∈ ["+-", "-+"]) :
    ∃ x y, pair.toList = [x, y] ∧ Neutral [x, y] ∧ x ≠ '>' ∧ x ≠ '<' := by
  rw [List.mem_cons, List.mem_singleton] at member
  rcases member with rfl | rfl
  · exact ⟨_, _, rfl, neutral_plus_minus, by decide, by decide⟩
  · exact ⟨_, _, rfl, neutral_minus_plus, by decide, by decide⟩

theorem exists_neutral_of_moves {pair : String} (member : pair ∈ ["><", "<>"]) :
    ∃ x y, pair.toList = [x, y] ∧ Neutral [x, y] ∧
      (pair = "><" ∧ x = '>' ∨ pair = "<>" ∧ x = '<') := by
  rw [List.mem_cons, List.mem_singleton] at member
  rcases member with rfl | rfl
  · exact ⟨_, _, rfl, neutral_right_left, Or.inl ⟨rfl, rfl⟩⟩
  · exact ⟨_, _, rfl, neutral_left_right, Or.inr ⟨rfl, rfl⟩⟩

/-- Instructions that undo each other can be put in anywhere. With them a balanced program gets its
tape on the same terms, and runs to an end if and only if it does so without them. The end is then
the same, but that the positions from there on are moved by two. For moves on a tape that may not be
left this holds of every run that does not fail at one of the two; and a run fails there only at the
first one, when it has come there with the pointer at the end of the tape. -/
theorem inverse_instructions_cancel (a d : String) (whole : Balanced (a ++ d).toList) {cells : Nat}
    (positive : 0 < cells) (source : Source) (sink : Sink) :
    let short := Program.ofString (a ++ d)
    let long (pair : String) := Program.ofString (a ++ pair ++ d)
    let place (i : Nat) := if i < a.length then i else i + 2
    (∀ pair policy room fuel size e,
      executeSized room fuel (long pair) size policy source sink = .error e ↔
        executeSized room fuel short size policy source sink = .error e) ∧
    (∀ pair ∈ ["+-", "-+"], ∀ policy,
      Program.RunsAlike place (long pair) short cells policy source sink) ∧
    (∀ pair ∈ ["><", "<>"],
      Program.RunsAlike place (long pair) short cells .wrap source sink) ∧
    ∀ pair ∈ ["><", "<>"], (cells : Int) < Word.limit →
      ((∀ fuel y, execute fuel (long pair) cells .bounded source sink = some y →
          ¬y.LeavesTapeWithin a.length 2) →
        Program.RunsAlike place (long pair) short cells .bounded source sink) ∧
      ∀ fuel y, execute fuel (long pair) cells .bounded source sink = some y →
        y.LeavesTapeWithin a.length 2 →
          (pair = "><" ∧ y.outcome = .failed (.outOfTape cells cells a.length) ∧
              y.final.machine.pointer + 1 = cells ∨
            pair = "<>" ∧ y.outcome = .failed (.outOfTape (-1) cells a.length) ∧
              y.final.machine.pointer = 0) ∧
          let start := Config.fresh short cells .bounded source sink
          ∃ n, start.Proceeds n ∧ (start.after n).machine.ip = a.length ∧
            y.final = (start.after n).onMachine fun m => { m with program := long pair } := by
  intro short long place
  refine ⟨?_, ?_, ?_, ?_⟩
  · intro pair policy room fuel size e
    rw [executeSized_eq_error_iff, executeSized_eq_error_iff]
  · intro pair member policy
    obtain ⟨x, y, spelled, neutral, noRight, noLeft⟩ := exists_neutral_of_changes member
    obtain ⟨ins, neutral, text, -, long_eq, short_eq, place_eq⟩ :=
      Insertion.exists_ofPair whole spelled neutral
    simp only [long, short, place, ← long_eq, ← short_eq, ← place_eq]
    exact (Insertion.traversed_of_still neutral text noRight noLeft positive policy source
      sink).runsAlike
  · intro pair member
    obtain ⟨x, y, spelled, neutral, -⟩ := exists_neutral_of_moves member
    obtain ⟨ins, neutral, text, -, long_eq, short_eq, place_eq⟩ :=
      Insertion.exists_ofPair whole spelled neutral
    simp only [long, short, place, ← long_eq, ← short_eq, ← place_eq]
    exact (Insertion.traversed_of_wrap neutral text positive source sink).runsAlike
  · intro pair member fits
    obtain ⟨x, y, spelled, neutral, first⟩ := exists_neutral_of_moves member
    obtain ⟨ins, neutral, text, front, long_eq, short_eq, place_eq⟩ :=
      Insertion.exists_ofPair whole spelled neutral
    simp only [long, short, place, ← long_eq, ← short_eq, ← place_eq, ← front]
    constructor
    · intro stays
      exact Insertion.runsAlike_of_not_leaves neutral text positive fits stays
    · intro fuel y executed leaves
      obtain ⟨goal, n, failed, edge, reached⟩ :=
        Insertion.exists_border_of_leaves neutral text positive fits executed leaves
      refine ⟨?_, n, reached⟩
      rcases edge with ⟨rfl, last, rfl⟩ | ⟨rfl, leftmost, rfl⟩
      · exact Or.inl ⟨by simpa using first, failed, last⟩
      · exact Or.inr ⟨by simpa using first, failed, leftmost⟩

/-- In a loop that goes to the last of two cells and back, the two changes and one of the two pairs
of moves do nothing, and the other one leaves the tape. -/
theorem inverse_instructions_cancel_in_loop :
    Balanced ("+[>" ++ "<-]").toList ∧ 0 < 2 ∧ ((2 : Nat) : Int) < Word.limit ∧
      (∀ pair ∈ ["+-", "<>"], ∃ fuel y, execute fuel (Program.ofString ("+[>" ++ pair ++ "<-]")) 2
        .bounded (.ofBytes #[]) .unlimited = some y ∧ y.outcome = .completed (outputText #[]) ∧
        y.final.machine.ip = 8) ∧
      ∃ y, execute 4 (Program.ofString ("+[>" ++ "><" ++ "<-]")) 2 .bounded (.ofBytes #[])
        .unlimited = some y ∧ y.LeavesTapeWithin 3 2 ∧ y.final.machine.pointer + 1 = 2 := by
  have whole : Balanced ("+[>" ++ "<-]").toList := JumpTable.exists_ofCode_iff_balanced.1 ⟨_, rfl⟩
  have positive : 0 < 2 := by decide
  have fits : ((2 : Nat) : Int) < Word.limit := by decide
  obtain ⟨-, changes, -, moves⟩ := inverse_instructions_cancel "+[>" "<-]" whole positive
    (.ofBytes #[]) .unlimited
  have ended : ∃ x, execute 6 (Program.ofString ("+[>" ++ "<-]")) 2 .bounded (.ofBytes #[])
      .unlimited = some x ∧ x.outcome = .completed (outputText #[]) ∧
        x.final.machine.ip = 6 := ⟨_, rfl, rfl, rfl⟩
  obtain ⟨x, executed, completed, position⟩ := ended
  refine ⟨whole, positive, fits, ?_, ?_⟩
  · intro pair member
    have alike : Program.RunsAlike (fun i => if i < "+[>".length then i else i + 2)
        (Program.ofString ("+[>" ++ pair ++ "<-]")) (Program.ofString ("+[>" ++ "<-]")) 2 .bounded
        (.ofBytes #[]) .unlimited := by
      rw [List.mem_cons, List.mem_singleton] at member
      rcases member with rfl | rfl
      · exact changes "+-" (by simp) .bounded
      · apply (moves "<>" (by simp) fits).1
        rintro fuel y executed ⟨goal, cells, ip, fails, -⟩
        have ended : ∃ x, execute 8 (Program.ofString ("+[>" ++ "<>" ++ "<-]")) 2 .bounded
            (.ofBytes #[]) .unlimited = some x ∧ x.outcome = .completed (outputText #[]) :=
          ⟨_, rfl, rfl⟩
        obtain ⟨x, executed', completed⟩ := ended
        obtain rfl := execute_unique executed executed'
        rw [completed] at fails
        cases fails
    obtain ⟨fuel, executed'⟩ := (alike ⟨x.outcome.relocate _, { x.final with machine := _ }⟩).2
      ⟨6, x, executed, rfl, rfl, rfl, rfl⟩
    refine ⟨fuel, _, executed', ?_, ?_⟩
    · rw [completed]
      rfl
    · show (if x.final.machine.ip < "+[>".length then _ else _) = 8
      rw [position]
      rfl
  · have ended : ∃ y, execute 4 (Program.ofString ("+[>" ++ "><" ++ "<-]")) 2 .bounded
        (.ofBytes #[]) .unlimited = some y ∧ y.outcome = .failed (.outOfTape 2 2 3) := ⟨_, rfl, rfl⟩
    obtain ⟨y, executed, fails⟩ := ended
    have leaves : y.LeavesTapeWithin 3 2 := ⟨2, 2, 3, fails, by decide, by decide⟩
    rcases ((moves "><" (by simp) fits).2 4 y executed leaves).1 with ⟨-, -, last⟩ | ⟨other, -⟩
    · exact ⟨y, executed, leaves, last⟩
    · simp at other

end ByteTape

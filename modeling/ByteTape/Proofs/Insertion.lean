import ByteTape.Proofs.Comments
import Mathlib.Data.Set.Defs

set_option autoImplicit false

namespace ByteTape

/-- Where the character at position `i` gets when `more` characters are put in before the one at
position `border`. -/
def moved (border more i : Nat) : Nat :=
  if i < border then i else i + more

/-- Where the machine gets that goes on to position `i`. At the border it comes to the characters
that have been put in. -/
def entered (border more i : Nat) : Nat :=
  if i ≤ border then i else i + more

section Text

variable {a b x : List Char} {i j : Nat}

theorem moved_of_lt {border : Nat} (before : i < border) (more : Nat) : moved border more i = i :=
  if_pos before

theorem moved_of_le {border : Nat} (behind : border ≤ i) (more : Nat) :
    moved border more i = i + more :=
  if_neg (Nat.not_lt.2 behind)

theorem entered_succ (border more i : Nat) :
    entered border more (i + 1) = moved border more i + 1 := by
  simp only [entered, moved]
  split
  · rw [if_pos (by omega)]
  · rw [if_neg (by omega)]
    omega

theorem entered_border (border more : Nat) : entered border more border = border :=
  if_pos (Nat.le_refl border)

theorem entered_of_ne {border : Nat} (other : i ≠ border) (more : Nat) :
    entered border more i = moved border more i := by
  simp only [entered, moved]
  split
  · rw [if_pos (by omega)]
  · rw [if_neg (by omega)]

theorem getElem?_moved (a x b : List Char) (i : Nat) :
    (a ++ (x ++ b))[moved a.length x.length i]? = (a ++ b)[i]? := by
  unfold moved
  split
  · next inside => rw [List.getElem?_append_left inside, List.getElem?_append_left inside]
  · next behind =>
    rw [← List.append_assoc, List.getElem?_append_right (by simp; omega),
      List.getElem?_append_right (by omega), List.length_append]
    congr 1
    omega

namespace Balanced

theorem insert (whole : Balanced (a ++ b)) (piece : Balanced x) : Balanced (a ++ (x ++ b)) := by
  generalize split : a ++ b = code at whole
  induction whole generalizing a b with
  | nil =>
    obtain ⟨rfl, rfl⟩ := List.append_eq_nil_iff.1 split
    simpa using piece
  | @plain c rest noOpening noClosing after ih =>
    cases a with
    | nil =>
      rw [List.nil_append] at split ⊢
      rw [split]
      exact piece.append (.plain noOpening noClosing after)
    | cons d a =>
      simp only [List.cons_append, List.cons.injEq] at split
      obtain ⟨rfl, split⟩ := split
      exact .plain noOpening noClosing (ih split)
  | @loop body rest inside after ihBody ihRest =>
    cases a with
    | nil =>
      rw [List.nil_append] at split ⊢
      rw [split]
      exact piece.append (.loop inside after)
    | cons d a =>
      simp only [List.cons_append, List.cons.injEq] at split
      obtain ⟨rfl, split⟩ := split
      rcases List.append_eq_append_iff.1 split with ⟨z, rfl, rfl⟩ | ⟨z, rfl, closing⟩
      · -- into the body
        have body := ihBody rfl
        simpa using Balanced.loop body after
      · cases z with
        | nil =>
          -- at the end of the body
          rw [List.nil_append] at closing
          have body := ihBody (List.append_nil body)
          rw [← closing]
          simpa using Balanced.loop body after
        | cons e z =>
          simp only [List.cons_append, List.cons.injEq] at closing
          obtain ⟨rfl, rfl⟩ := closing
          simpa using Balanced.loop inside (ihRest rfl)

end Balanced

theorem Spans.insert (spans : Spans (a ++ b) i j) (piece : Balanced x) :
    Spans (a ++ (x ++ b)) (moved a.length x.length i) (moved a.length x.length j) := by
  obtain ⟨before, inside, after, code, balanced, rfl, rfl⟩ := spans
  rcases List.append_eq_append_iff.1 code with ⟨z, rfl, rfl⟩ | ⟨z, rfl, opening⟩
  · -- both brackets come behind the insertion
    rw [moved_of_le (by simp), moved_of_le (by simp; omega)]
    refine ⟨a ++ (x ++ z), inside, after, by simp, balanced, ?_, ?_⟩
    · simp only [List.length_append]
      omega
    · simp only [List.length_append]
      omega
  · cases z with
    | nil =>
      rw [List.nil_append] at opening
      rw [moved_of_le (by simp), moved_of_le (by simp; omega)]
      refine ⟨before ++ x, inside, after, by simp [← opening], balanced, ?_, ?_⟩
      · simp only [List.length_append]
      · simp only [List.length_append]
        omega
    | cons e z =>
      simp only [List.cons_append, List.cons.injEq] at opening
      obtain ⟨rfl, opening⟩ := opening
      rw [moved_of_lt (by simp)]
      rcases List.append_eq_append_iff.1 opening with ⟨y, rfl, closing⟩ | ⟨y, rfl, rfl⟩
      · cases y with
        | nil =>
          rw [List.nil_append] at closing
          rw [moved_of_le (by simp; omega)]
          refine ⟨before, inside ++ x, after, by simp [← closing], balanced.append piece, ?_, ?_⟩
          · rfl
          · simp only [List.length_append]
            omega
        | cons e y =>
          simp only [List.cons_append, List.cons.injEq] at closing
          obtain ⟨rfl, rfl⟩ := closing
          rw [moved_of_lt (by simp; omega)]
          exact ⟨before, inside, y ++ (x ++ b), by simp, balanced, rfl, rfl⟩
      · -- the insertion is between the brackets
        rw [moved_of_le (by simp; omega)]
        refine ⟨before, z ++ (x ++ y), after, by simp, balanced.insert piece, rfl, ?_⟩
        simp only [List.length_append]
        omega

end Text

/-- A balanced text that is put into a balanced program, between `front` and `back`. -/
structure Insertion where
  front : List Char
  text : List Char
  back : List Char
  whole : Balanced (front ++ back)
  piece : Balanced text

namespace Insertion

def short (ins : Insertion) : Program :=
  .ofList (ins.front ++ ins.back)

def long (ins : Insertion) : Program :=
  .ofList (ins.front ++ (ins.text ++ ins.back))

def place (ins : Insertion) : Nat → Nat :=
  moved ins.front.length ins.text.length

/-- The same machine in the longer program, behind the text if it is at the border. -/
def behind (ins : Insertion) (m : Machine) : Machine :=
  m.resettle ins.long ins.place

/-- The same machine in the longer program, before the text if it is at the border. -/
def ahead (ins : Insertion) (m : Machine) : Machine :=
  m.resettle ins.long (entered ins.front.length ins.text.length)

variable {ins : Insertion} {m : Machine}

theorem exists_jumps_short (ins : Insertion) : ∃ table, ins.short.jumps = .ok table := by
  rw [short, Program.jumps_ofList]
  exact JumpTable.exists_ofCode_iff_balanced.2 ins.whole

theorem exists_jumps_long (ins : Insertion) : ∃ table, ins.long.jumps = .ok table := by
  rw [long, Program.jumps_ofList]
  exact JumpTable.exists_ofCode_iff_balanced.2 (ins.whole.insert ins.piece)

theorem ahead_of_ne (elsewhere : m.ip ≠ ins.front.length) : ins.ahead m = ins.behind m := by
  simp only [ahead, behind, place, Machine.resettle, entered_of_ne elsewhere]

theorem ip_ahead_border (border : m.ip = ins.front.length) :
    (ins.ahead m).ip = ins.front.length := by
  simp only [ahead, Machine.resettle, border, entered_border]

theorem ip_behind_border (border : m.ip = ins.front.length) :
    (ins.behind m).ip = ins.front.length + ins.text.length := by
  simp only [behind, Machine.resettle, border, place, moved_of_le (Nat.le_refl _)]

theorem undone_ahead_border (border : m.ip = ins.front.length) (some : 0 < ins.text.length) :
    (ins.ahead m).done = false := by
  rw [Machine.done, ip_ahead_border border]
  simp only [ahead, Machine.resettle, long, Program.size_ofList, List.length_append,
    decide_eq_false_iff_not]
  omega

theorem done_behind (program_eq : m.program = ins.short) : (ins.behind m).done = m.done := by
  simp only [Machine.done, behind, Machine.resettle, program_eq, place, moved, long, short,
    Program.size_ofList, List.length_append]
  split
  · rw [decide_eq_false (by omega), decide_eq_false (by omega)]
  · rw [decide_eq_decide]
    omega

/-- A machine of the longer program does what it does in the shorter one, and comes before the text
when that comes to the border. -/
theorem alike_behind (program_eq : m.program = ins.short) :
    Machine.Alike ins.place ins.ahead m (ins.behind m) := by
  apply Machine.alike_resettle
  · rw [program_eq, long, short, Program.fetch?_ofList, Program.fetch?_ofList]
    exact getElem?_moved _ _ _ _
  · exact entered_succ _ _ _
  · intro jumping
    obtain ⟨table, resolved⟩ := ins.exists_jumps_short
    obtain ⟨table', resolved'⟩ := ins.exists_jumps_long
    rw [← program_eq] at resolved
    have corresponds (i j : Nat) (spans : Spans m.program.code.toList i j) :
        Spans ins.long.code.toList (ins.place i) (ins.place j) := by
      rw [program_eq, short, Program.toList_code_ofList] at spans
      rw [long, Program.toList_code_ofList]
      exact spans.insert ins.piece
    obtain ⟨partner, -, lands, lands'⟩ :=
      Machine.landing_resettle resolved resolved' corresponds jumping
    refine ⟨partner + 1, lands, ?_⟩
    rw [entered_succ]
    exact lands'

end Insertion

namespace Config

/-- Steps that succeed lead from `c` to `d`, each from a position among `stops` to a later one. -/
inductive Climbs (stops : Set Nat) : Config → Config → Prop
  | here (c : Config) : Climbs stops c c
  | step {c next d : Config} (undone : c.machine.done = false) (step : c.step = (next, none))
      (stop : c.machine.ip ∈ stops) (later : c.machine.ip < next.machine.ip)
      (after : Climbs stops next d) : Climbs stops c d

end Config

namespace Insertion

/-- The text does nothing to machines of which `P` holds, and `P` holds as long as they run: from
the border the machine climbs through the text, and is then the same but for its position. -/
structure Passable (ins : Insertion) (stops : Set Nat) (P : Machine → Prop) : Prop where
  program_eq : ∀ m, P m → m.program = ins.short
  kept : ∀ m source sink c e, P m → StepsTo m source sink c e → P c.machine
  climbs : ∀ d : Config, P d.machine → d.machine.ip = ins.front.length →
    Config.Climbs stops (d.onMachine ins.ahead) (d.onMachine ins.behind)

/-- The run of the shorter program from `d` gets through the text: whenever it comes to the border,
the machine of the longer program climbs through the text, and is then the same but for its
position. -/
structure Traversed (ins : Insertion) (stops : Set Nat) (d : Config) : Prop where
  program_eq : d.machine.program = ins.short
  climbs : ∀ n, d.Proceeds n → (d.after n).machine.ip = ins.front.length →
    Config.Climbs stops ((d.after n).onMachine ins.ahead) ((d.after n).onMachine ins.behind)

/-- `c` runs the longer program, and climbs to the place where `d` is in the shorter one. -/
structure Reaches (ins : Insertion) (stops : Set Nat) (P : Config → Prop) (c d : Config) :
    Prop where
  holds : P d
  climbs : Config.Climbs stops c (d.onMachine ins.behind)

/-- The run of the longer program ends alike. -/
def EndsAlike (ins : Insertion) (c : Config) (e : Option StepError) (d : Config)
    (e' : Option StepError) : Prop :=
  c = d.onMachine ins.behind ∧ e = e'.map (·.relocate ins.place)

section Steps

variable {ins : Insertion} {stops : Set Nat} {c d next : Config}

theorem reaches_ahead {P : Config → Prop} (holds : P d)
    (climbs : d.machine.ip = ins.front.length →
      Config.Climbs stops (d.onMachine ins.ahead) (d.onMachine ins.behind)) :
    ins.Reaches stops P (d.onMachine ins.ahead) d := by
  refine ⟨holds, ?_⟩
  by_cases border : d.machine.ip = ins.front.length
  · exact climbs border
  · rw [Config.onMachine, ahead_of_ne border]
    exact .here _

theorem step_behind (program_eq : d.machine.program = ins.short) :
    (d.onMachine ins.behind).step =
      Config.transfer ins.place ins.ahead (ins.behind d.machine) d.step :=
  (alike_behind program_eq).step

theorem Traversed.of_step (traversed : ins.Traversed stops d) (undone : d.machine.done = false)
    (step : d.step = (next, none)) : ins.Traversed stops next where
  program_eq := by
    have steps := StepsTo.of_step d.machine d.source d.sink
    rw [step] at steps
    exact steps.program_eq.trans traversed.program_eq
  climbs := by
    intro n proceeds border
    rw [← Config.after_succ_of_first step n] at border ⊢
    exact traversed.climbs (n + 1) (.cons undone step proceeds) border

theorem Traversed.reaches_ahead (traversed : ins.Traversed stops d) :
    ins.Reaches stops (ins.Traversed stops) (d.onMachine ins.ahead) d :=
  Insertion.reaches_ahead traversed (traversed.climbs 0 (by simp [Config.Proceeds]))

/-- The run of the longer program follows the one of the shorter: it takes steps of its own in the
text. -/
theorem Traversed.follows (reaches : ins.Reaches stops (ins.Traversed stops) c d) :
    Config.Follows (ins.Reaches stops (ins.Traversed stops)) Config.left ins.EndsAlike c d := by
  obtain ⟨traversed, climbs⟩ := reaches
  cases climbs with
  | @step _ next _ undone step stop later after =>
    -- each step in the text leaves less of the program
    refine .waits undone step ⟨traversed, after⟩ ?_
    have steps := StepsTo.of_step c.machine c.source c.sink
    rw [step] at steps
    have kept : next.machine.program = c.machine.program := steps.program_eq
    have inside := of_decide_eq_false undone
    simp only [Config.left, kept]
    omega
  | here =>
    have step := step_behind traversed.program_eq
    have done_eq := done_behind traversed.program_eq
    cases done : d.machine.done with
    | true => exact .finished (done_eq.trans done) done ⟨rfl, rfl⟩
    | false =>
      rcases stepped : d.step with ⟨next, e⟩
      rw [stepped] at step
      cases e with
      | none =>
        exact .goes (done_eq.trans done) done step stepped
          (traversed.of_step done stepped).reaches_ahead
      | some e =>
        refine .fails (done_eq.trans done) done step stepped ⟨?_, rfl⟩
        simp only [Config.onMachine, Config.machine_of_error stepped]

end Steps

namespace Passable

variable {ins : Insertion} {stops : Set Nat} {P : Machine → Prop} {c d : Config}

theorem holds_after (passable : ins.Passable stops P) (holds : P d.machine) (n : Nat) :
    P (d.after n).machine := by
  induction n with
  | zero => exact holds
  | succ n ih => exact passable.kept _ _ _ _ _ ih (StepsTo.of_step _ _ _)

theorem traversed (passable : ins.Passable stops P) (holds : P d.machine) :
    ins.Traversed stops d where
  program_eq := passable.program_eq _ holds
  climbs n _ border := passable.climbs _ (passable.holds_after holds n) border

theorem exists_reaches_step (passable : ins.Passable stops P)
    (reaches : ins.Reaches stops (fun d => P d.machine) c d) :
    ∃ d', ins.Reaches stops (fun d => P d.machine) c.step.1 d' := by
  obtain ⟨holds, climbs⟩ := reaches
  cases climbs with
  | step undone step stop later after =>
    rw [step]
    exact ⟨d, holds, after⟩
  | here =>
    have step := step_behind (passable.program_eq _ holds)
    have kept := passable.holds_after holds 1
    simp only [Config.after] at kept
    rcases stepped : d.step with ⟨next, e⟩
    rw [stepped] at step kept
    rw [step]
    cases e with
    | none =>
      exact ⟨next, Insertion.reaches_ahead kept (passable.climbs next kept)⟩
    | some e =>
      -- the devices may have been used
      refine ⟨next, kept, ?_⟩
      simp only [Config.transfer, Config.onMachine, Config.machine_of_error stepped]
      exact .here _

/-- Wherever the longer program gets, it is on its way to a place of the shorter one. -/
theorem exists_reaches_after (passable : ins.Passable stops P)
    (reaches : ins.Reaches stops (fun d => P d.machine) c d) (n : Nat) :
    ∃ d', ins.Reaches stops (fun d => P d.machine) (c.after n) d' := by
  induction n with
  | zero => exact ⟨d, reaches⟩
  | succ n ih =>
    obtain ⟨d', reaches⟩ := ih
    exact passable.exists_reaches_step reaches

end Passable

theorem Reaches.ip_cases {ins : Insertion} {stops : Set Nat} {P : Config → Prop} {c d : Config}
    (reaches : ins.Reaches stops P c d) :
    c.machine.ip ∈ stops ∨ c.machine.ip < ins.front.length ∨
      ins.front.length + ins.text.length ≤ c.machine.ip := by
  cases reaches.climbs with
  | step _ _ stop => exact Or.inl stop
  | here =>
    refine Or.inr ?_
    simp only [Config.onMachine, behind, Machine.resettle, place, moved]
    split <;> omega

section Execute

variable {ins : Insertion} {stops : Set Nat} {P : Machine → Prop} {cells : Nat}
  {policy : PointerPolicy} {source : Source} {sink : Sink}

/-- What an execution comes to in the longer program. -/
def lengthen (ins : Insertion) (x : Execution) : Execution where
  outcome := x.outcome.relocate ins.place
  final := x.final.onMachine ins.behind

theorem eq_lengthen_iff {x y : Execution} : y = ins.lengthen x ↔
    y.outcome = x.outcome.relocate ins.place ∧
      y.final.machine = { x.final.machine with
        program := ins.long
        ip := ins.place x.final.machine.ip } ∧
      y.final.source = x.final.source ∧ y.final.sink = x.final.sink := by
  rcases y with ⟨outcome, m, source, sink⟩
  simp only [lengthen, Config.onMachine, behind, Machine.resettle, Execution.mk.injEq,
    Config.mk.injEq]

theorem EndsAlike.ofStop_eq {c d : Config} {e e' : Option StepError}
    (same : ins.EndsAlike c e d e') : Execution.ofStop c e = ins.lengthen (.ofStop d e') := by
  obtain ⟨rfl, rfl⟩ := same
  rw [Execution.ofStop_eq, Execution.ofStop_eq, lengthen, ← Outcome.ofStop_relocate]
  rfl

theorem ahead_fresh (ins : Insertion) (cells : Nat) (policy : PointerPolicy) :
    ins.ahead (.fresh ins.short cells policy) = .fresh ins.long cells policy := by
  simp only [ahead, Machine.resettle, Machine.fresh, entered, Nat.zero_le, ↓reduceIte]

theorem Passable.reaches_fresh (passable : ins.Passable stops P)
    (holds : P (.fresh ins.short cells policy)) (source : Source) (sink : Sink) :
    ins.Reaches stops (fun d => P d.machine) ⟨.fresh ins.long cells policy, source, sink⟩
      ⟨.fresh ins.short cells policy, source, sink⟩ := by
  rw [← ahead_fresh]
  exact Insertion.reaches_ahead (d := ⟨.fresh ins.short cells policy, source, sink⟩) holds
    (passable.climbs _ holds)

/-- If the run gets through the text, then the executions of the longer program are those of the
shorter, in their places. -/
theorem Traversed.exists_execute_iff
    (traversed : ins.Traversed stops ⟨.fresh ins.short cells policy, source, sink⟩)
    {y : Execution} :
    (∃ fuel, execute fuel ins.long cells policy source sink = some y) ↔
      ∃ fuel x, execute fuel ins.short cells policy source sink = some x ∧
        y = ins.lengthen x := by
  obtain ⟨table, resolved⟩ := ins.exists_jumps_short
  obtain ⟨table', resolved'⟩ := ins.exists_jumps_long
  have start : ins.Reaches stops (ins.Traversed stops)
      ⟨.fresh ins.long cells policy, source, sink⟩
      ⟨.fresh ins.short cells policy, source, sink⟩ := by
    rw [← ahead_fresh]
    exact traversed.reaches_ahead
  have follows (c d : Config) (reaches : ins.Reaches stops (ins.Traversed stops) c d) :=
    Traversed.follows reaches
  apply exists_execute_iff_of_ends cells policy source sink resolved resolved'
  · intro d e' ends'
    obtain ⟨c, e, ends, same⟩ := Config.exists_ends_of_followed follows start ends'
    exact ⟨c, e, ends, same.ofStop_eq⟩
  · intro c e ends
    obtain ⟨d, e', ends', same⟩ := Config.exists_ends_of_follows follows start ends
    exact ⟨d, e', ends', same.ofStop_eq⟩

theorem Passable.exists_execute_iff (passable : ins.Passable stops P)
    (holds : P (.fresh ins.short cells policy)) {y : Execution} :
    (∃ fuel, execute fuel ins.long cells policy source sink = some y) ↔
      ∃ fuel x, execute fuel ins.short cells policy source sink = some x ∧
        y = ins.lengthen x :=
  (passable.traversed (d := ⟨.fresh ins.short cells policy, source, sink⟩)
    holds).exists_execute_iff

end Execute

end Insertion

end ByteTape

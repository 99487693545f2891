import ByteTape.Proofs.Stepping
import ByteTape.Proofs.Running

set_option autoImplicit false

namespace ByteTape

namespace Source

/-- The source has these bytes left, and nothing after them. -/
def Holds (s : Source) (bytes : List UInt8) : Prop :=
  ∀ i, s.unread i = (bytes[i]?.map fun b => Reading.value b.toNat).getD .endOfInput

variable {s : Source} {bytes : List UInt8} {b : UInt8}

theorem holds_ofBytes (bytes : List UInt8) : (ofBytes bytes.toArray).Holds bytes := by
  intro i
  simp [unread, ofBytes]

theorem Holds.unread_zero_nil (holds : s.Holds []) : s.unread 0 = .endOfInput :=
  holds 0

theorem Holds.unread_zero_cons (holds : s.Holds (b :: bytes)) : s.unread 0 = .value b.toNat :=
  holds 0

theorem Holds.read (holds : s.Holds bytes) : s.read.2.Holds bytes.tail := by
  intro i
  rw [unread_read, holds (i + 1), List.getElem?_tail]

end Source

namespace Config

def connect (c : Config) (s : Source) : Config :=
  { c with source := s }

def feed (c : Config) (bytes : List UInt8) : Config :=
  c.connect (.ofBytes bytes.toArray)

/-- What `n` steps lead to. A step that fails counts, and the next one is made all the same. -/
def after (c : Config) : Nat → Config
  | 0 => c
  | n + 1 => (c.after n).step.1

/-- The next step fails for want of input. -/
def LacksInput (c : Config) : Prop :=
  ∃ ip reason, c.step.2 = some (.fault (.input ip reason))

/-- All is the same in `d` as in `c`, but `d` has `ys` left when `c` has nothing left to read. With
no `ys` the two have the same left to read, too. -/
structure Extends (ys : List UInt8) (c d : Config) : Prop where
  machine_eq : d.machine = c.machine
  sink_eq : d.sink = c.sink
  unread : ∃ rest, c.source.Holds rest ∧ d.source.Holds (rest ++ ys)

variable {c d : Config} {s : Source} {xs ys rest : List UInt8}

theorem after_add (c : Config) (n m : Nat) : c.after (n + m) = (c.after n).after m := by
  induction m with
  | zero => rfl
  | succ m ih => exact congrArg (fun d : Config => d.step.1) ih

theorem step_connect (idle : c.machine.instruction? ≠ some .read) (s : Source) :
    (c.connect s).step = (c.step.1.connect s, c.step.2) := by
  by_cases writing : c.machine.instruction? = some .write
  · have writing' : (c.connect s).machine.instruction? = some .write := writing
    rw [step_of_instruction? writing, step_of_instruction? writing']
    simp only [connect, perform, emit]
    split
    · rfl
    · split <;> rfl
  · have sink : c.step.1.sink = c.sink := congrArg (fun result => result.1.sink)
      (step_of_idle idle writing c.source c.source c.sink c.sink)
    simp only [connect, sink]
    exact step_of_idle idle writing c.source s c.sink c.sink

theorem source_step (idle : c.machine.instruction? ≠ some .read) :
    c.step.1.source = c.source := by
  have same : c.step = (c.step.1.connect c.source, c.step.2) := step_connect idle c.source
  rw [same]
  rfl

/-- A reading step takes one answer, and depends on no other. -/
theorem step_connect_of_reads (reading : c.machine.instruction? = some .read)
    (same : s.unread 0 = c.source.unread 0) :
    (c.connect s).step = (c.step.1.connect s.read.2, c.step.2) := by
  have reading' : (c.connect s).machine.instruction? = some .read := reading
  rw [step_of_instruction? reading, step_of_instruction? reading']
  rcases c with ⟨m, source, sink⟩
  simp only [connect, perform, accept]
  rw [source.read_eq, s.read_eq, same]
  cases source.unread 0 with
  | value n =>
    simp only [alter]
    split <;> rfl
  | endOfInput | failed reason | reported fault | raised text => rfl

theorem source_step_of_reads (reading : c.machine.instruction? = some .read) :
    c.step.1.source = c.source.read.2 := by
  have same : c.step = (c.step.1.connect c.source.read.2, c.step.2) :=
    step_connect_of_reads reading rfl
  rw [same]
  rfl

theorem step_of_reads_nothing (reading : c.machine.instruction? = some .read)
    (nothing : c.source.unread 0 = .endOfInput) :
    c.step = (c.connect c.source.read.2, some (.fault (.input c.machine.ip .exhausted))) := by
  rw [step_of_instruction? reading]
  simp only [perform, accept]
  rw [c.source.read_eq, nothing]
  rfl

theorem LacksInput.reads (lacks : c.LacksInput) :
    c.machine.instruction? = some .read ∧ ∀ n, c.source.unread 0 ≠ .value n := by
  obtain ⟨ip, reason, fails⟩ := lacks
  have steps := StepsTo.of_step c.machine c.source c.sink
  rw [fails] at steps
  exact steps.reads_of_input

/-- A source of bytes fails only when all of them have been read. -/
theorem LacksInput.eq_nil (lacks : c.LacksInput) (holds : c.source.Holds rest) : rest = [] := by
  cases rest with
  | nil => rfl
  | cons b rest => exact absurd holds.unread_zero_cons (lacks.reads.2 _)

theorem lacksInput_of_reads_nothing (reading : c.machine.instruction? = some .read)
    (nothing : c.source.Holds []) : c.LacksInput := by
  have fails := step_of_reads_nothing reading nothing.unread_zero_nil
  exact ⟨c.machine.ip, .exhausted, by rw [fails]⟩

/-- Once a source of bytes is exhausted, trying again and again changes nothing. -/
theorem LacksInput.after (lacks : c.LacksInput) (nothing : c.source.Holds []) (n : Nat) :
    (c.after n).machine = c.machine ∧ (c.after n).sink = c.sink ∧
      (c.after n).source.Holds [] ∧
      (c.after n).step.2 = some (.fault (.input c.machine.ip .exhausted)) := by
  have reading {d : Config} (same : d.machine = c.machine) :
      d.machine.instruction? = some .read := by
    rw [same]
    exact lacks.reads.1
  have kept : (c.after n).machine = c.machine ∧ (c.after n).sink = c.sink ∧
      (c.after n).source.Holds [] := by
    induction n with
    | zero => exact ⟨rfl, rfl, nothing⟩
    | succ n ih =>
      obtain ⟨machine, sink, nothing⟩ := ih
      have fails := step_of_reads_nothing (reading machine) nothing.unread_zero_nil
      simp only [Config.after, fails]
      exact ⟨machine, sink, nothing.read⟩
  obtain ⟨machine, sink, nothing⟩ := kept
  refine ⟨machine, sink, nothing, ?_⟩
  rw [step_of_reads_nothing (reading machine) nothing.unread_zero_nil, machine]

namespace Extends

theorem feed_append (c : Config) (xs ys : List UInt8) :
    Extends ys (c.feed xs) (c.feed (xs ++ ys)) where
  machine_eq := rfl
  sink_eq := rfl
  unread := ⟨xs, Source.holds_ofBytes xs, Source.holds_ofBytes (xs ++ ys)⟩

theorem eq_connect (longer : Extends ys c d) : d = c.connect d.source := by
  rcases d with ⟨m, source, sink⟩
  obtain ⟨rfl, rfl, -⟩ := longer
  rfl

/-- A step does the same with more input, unless it fails for want of any. -/
theorem step (longer : Extends ys c d) (fed : ys = [] ∨ ¬c.LacksInput) :
    Extends ys c.step.1 d.step.1 ∧ d.step.2 = c.step.2 := by
  obtain ⟨rest, holds, more⟩ := longer.unread
  rw [longer.eq_connect]
  by_cases reading : c.machine.instruction? = some .read
  · have tail : (rest ++ ys).tail = rest.tail ++ ys ∧
        d.source.unread 0 = c.source.unread 0 := by
      cases rest with
      | nil =>
        rcases fed with rfl | fed
        · exact ⟨rfl, more.unread_zero_nil.trans holds.unread_zero_nil.symm⟩
        · exact absurd (lacksInput_of_reads_nothing reading holds) fed
      | cons b rest =>
        exact ⟨rfl, more.unread_zero_cons.trans holds.unread_zero_cons.symm⟩
    rw [step_connect_of_reads reading tail.2]
    refine ⟨⟨rfl, rfl, rest.tail, ?_, ?_⟩, rfl⟩
    · rw [source_step_of_reads reading]
      exact holds.read
    · rw [← tail.1]
      exact more.read
  · rw [step_connect reading]
    refine ⟨⟨rfl, rfl, rest, ?_, more⟩, rfl⟩
    rw [source_step reading]
    exact holds

/-- So does every number of steps before the first that fails for want of input. -/
theorem after (longer : Extends ys c d) {n : Nat}
    (fed : ∀ k, k < n → ys = [] ∨ ¬(c.after k).LacksInput) :
    Extends ys (c.after n) (d.after n) ∧
      ∀ k, k < n → (d.after k).step.2 = (c.after k).step.2 := by
  induction n with
  | zero => exact ⟨longer, by omega⟩
  | succ n ih =>
    have before := ih fun k below => fed k (by omega)
    have last := before.1.step (fed n (by omega))
    refine ⟨last.1, ?_⟩
    intro k below
    by_cases earlier : k < n
    · exact before.2 k earlier
    · have latest : k = n := by omega
      rw [latest]
      exact last.2

theorem run (longer : Extends ys c d) {fuel : Nat} {final : Config}
    (completes : c.run fuel = some (final, none)) :
    ∃ final', d.run fuel = some (final', none) ∧ Extends ys final final' := by
  induction fuel generalizing c d with
  | zero =>
    rcases run_cases completes with ⟨done, rfl, -⟩ | ⟨-, less, positive, -⟩
    · exact ⟨d, run_of_done (by rwa [longer.machine_eq]) 0, longer⟩
    · omega
  | succ fuel ih =>
    rcases run_cases completes with
      ⟨done, rfl, -⟩ | ⟨undone, less, same, ⟨f, fails, impossible⟩ | ⟨next, steps, completes⟩⟩
    · exact ⟨d, run_of_done (by rwa [longer.machine_eq]) (fuel + 1), longer⟩
    · contradiction
    · have same : fuel = less := by omega
      subst same
      have fed : ¬c.LacksInput := by
        intro lacks
        rcases lacks with ⟨ip, reason, fails⟩
        simp [steps] at fails
      have both := longer.step (Or.inr fed)
      rw [steps] at both
      rcases steps' : d.step with ⟨next', error⟩
      rw [steps'] at both
      obtain ⟨longer', rfl⟩ := both
      obtain ⟨final', completes', longer''⟩ := ih longer' completes
      have undone' : d.machine.done = false := by rwa [longer.machine_eq]
      exact ⟨final', by rwa [run_succ_of_step undone' steps'], longer''⟩

end Extends

/-- Up to its first failure for want of input a run does what it does with `ys` after its input, and
so does all of a run that completes. When it fails for want of input it has read all there was, and
from there, however often it tries in vain, a new source of `ys` makes it go on as if `ys` had been
in its input from the start. -/
theorem feed_causal_and_resumable (c : Config) (xs ys : List UInt8) :
    (∀ n, (∀ k, k < n → ¬((c.feed xs).after k).LacksInput) →
      Extends ys ((c.feed xs).after n) ((c.feed (xs ++ ys)).after n) ∧
      ∀ k, k < n → ((c.feed (xs ++ ys)).after k).step.2 = ((c.feed xs).after k).step.2) ∧
    (∀ fuel final, (c.feed xs).run fuel = some (final, none) →
      ∃ final', (c.feed (xs ++ ys)).run fuel = some (final', none) ∧ Extends ys final final') ∧
    ∀ n, (∀ k, k < n → ¬((c.feed xs).after k).LacksInput) → ((c.feed xs).after n).LacksInput →
      ∀ tries,
        ((c.feed xs).after (n + tries)).step.2 =
          some (.fault (.input ((c.feed xs).after n).machine.ip .exhausted)) ∧
        ((c.feed xs).after (n + tries)).source.Holds [] ∧
        ((c.feed xs).after (n + tries)).machine = ((c.feed xs).after n).machine ∧
        ∀ m,
          Extends [] ((((c.feed xs).after (n + tries)).feed ys).after m)
            ((c.feed (xs ++ ys)).after (n + m)) ∧
          ((c.feed (xs ++ ys)).after (n + m)).step.2 =
            ((((c.feed xs).after (n + tries)).feed ys).after m).step.2 := by
  have longer := Extends.feed_append c xs ys
  refine ⟨?_, ?_, ?_⟩
  · intro n fed
    exact longer.after fun k below => Or.inr (fed k below)
  · intro fuel final completes
    exact longer.run completes
  · intro n fed lacks tries
    have before := (longer.after fun k below => Or.inr (fed k below)).1
    obtain ⟨rest, holds, more⟩ := before.unread
    have empty : rest = [] := lacks.eq_nil holds
    subst empty
    rw [after_add]
    obtain ⟨machine, sink, nothing, fails⟩ := lacks.after holds tries
    refine ⟨fails, nothing, machine, ?_⟩
    intro m
    -- with a source of `ys` instead of the exhausted one, the two are alike in all
    have alike : Extends [] ((((c.feed xs).after n).after tries).feed ys)
        ((c.feed (xs ++ ys)).after n) := by
      refine ⟨before.machine_eq.trans machine.symm, before.sink_eq.trans sink.symm, ys,
        Source.holds_ofBytes ys, ?_⟩
      rw [List.append_nil]
      exact more
    have both := alike.after (n := m + 1) fun _ _ => Or.inl rfl
    have earlier := alike.after (n := m) fun _ _ => Or.inl rfl
    rw [after_add]
    exact ⟨earlier.1, both.2 m (by omega)⟩

def twoEchoes : Config :=
  ⟨.fresh (Program.ofString ",.,.") 1 .bounded, .ofBytes #[], .unlimited⟩

theorem feed_causal_and_resumable_echo :
    ((twoEchoes.feed [65]).after 2).LacksInput ∧
      ((((twoEchoes.feed [65]).after (2 + 1)).feed [66]).after 2).machine =
        ((twoEchoes.feed [65, 66]).after (2 + 2)).machine ∧
      ((twoEchoes.feed [65, 66]).after (2 + 2)).machine.output = #[65, 66] := by
  have fed : ∀ k, k < 2 → ¬((twoEchoes.feed [65]).after k).LacksInput := by
    intro k below lacks
    obtain ⟨ip, reason, fails⟩ := lacks
    have succeeds : ((twoEchoes.feed [65]).after k).step.2 = none := by
      rcases k with - | - | k
      · rfl
      · rfl
      · omega
    rw [succeeds] at fails
    contradiction
  have lacks : ((twoEchoes.feed [65]).after 2).LacksInput := ⟨2, .exhausted, rfl⟩
  have resumed := (feed_causal_and_resumable twoEchoes [65] [66]).2.2 2 fed lacks 1
  have alike := (resumed.2.2.2 2).1
  exact ⟨lacks, alike.machine_eq.symm, rfl⟩

end Config

end ByteTape

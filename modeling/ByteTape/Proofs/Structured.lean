import ByteTape.Block.Meaning
import ByteTape.Proofs.BracketTable
import ByteTape.Proofs.Likeness

set_option autoImplicit false

namespace ByteTape

namespace Store

variable {program : Program} {policy : PointerPolicy} {ip : Nat} {s t : Store}

def config (program : Program) (policy : PointerPolicy) (ip : Nat) (s : Store) : Config where
  machine := {
    program := program, tape := s.tape, policy := policy, pointer := s.pointer, ip := ip,
    output := s.output }
  source := s.source
  sink := s.sink

@[simp]
theorem ofConfig_config : ofConfig (s.config program policy ip) = s := rfl

/-- The pointer points to a cell. -/
def OnTape (s : Store) : Prop :=
  s.pointer < s.tape.size

/-- Where the machine is when the instruction at `ip` has had its result. -/
def advance (program : Program) (policy : PointerPolicy) (ip : Nat) :
    Store × Option StepError → Config × Option StepError
  | (t, none) => (t.config program policy (ip + 1), none)
  | (t, some e) => (t.config program policy ip, some e)

theorem getElem?_cell (onTape : s.OnTape) : s.tape[s.pointer]? = some s.cell := by
  unfold OnTape at onTape
  simp [cell, onTape]

theorem shift_one_config (onTape : s.OnTape) :
    (s.config program policy ip).shift 1 = advance program policy ip (s.right policy ip) := by
  have target := Machine.target_one (m := (s.config program policy ip).machine) onTape
  simp only [config] at target
  simp only [Config.shift, config, target, right]
  by_cases inside : s.pointer + 1 < s.tape.size
  · simp [inside, advance, config]
  · cases policy <;> simp [inside, advance, config]

theorem shift_neg_one_config (onTape : s.OnTape) :
    (s.config program policy ip).shift (-1) = advance program policy ip (s.left policy ip) := by
  have target := Machine.target_neg_one (m := (s.config program policy ip).machine) onTape
  simp only [config] at target
  simp only [Config.shift, config, target, left]
  cases here : s.pointer with
  | zero => cases policy <;> simp [advance, config, here]
  | succ pointer => simp [advance, config]

theorem alter_config (onTape : s.OnTape) (f : UInt8 → UInt8) :
    (s.config program policy ip).alter f =
      advance program policy ip (s.setCell (f s.cell), none) := by
  have modified : s.tape.modify s.pointer f = s.tape.setIfInBounds s.pointer (f s.cell) := by
    apply Array.ext_getElem?
    intro i
    rw [Array.getElem?_modify, Array.getElem?_setIfInBounds]
    by_cases here : s.pointer = i
    · subst here
      have bound : s.pointer < s.tape.size := onTape
      simp only [↓reduceIte, bound, getElem?_cell onTape, Option.map_some]
    · simp only [here, ↓reduceIte]
  unfold OnTape at onTape
  simp [Config.alter, config, advance, setCell, onTape, modified]

theorem emit_config (onTape : s.OnTape) :
    (s.config program policy ip).emit = advance program policy ip s.write := by
  have cell := getElem?_cell onTape
  simp only [Config.emit, config, Machine.cell?, cell, write]
  rcases s.sink.write s.cell with ⟨sink, refusal⟩
  cases refusal <;> simp [advance, config]

theorem accept_config (onTape : s.OnTape) :
    (s.config program policy ip).accept = advance program policy ip (s.read ip) := by
  simp only [Config.accept, config, read]
  rcases s.source.read with ⟨reading, source⟩
  cases reading with
  | value n => exact alter_config (s := { s with source := source }) onTape _
  | endOfInput => rfl
  | failed reason => rfl
  | reported fault => rfl
  | raised text => rfl

theorem step_config_of_plain (policy : PointerPolicy) {c : Char}
    (found : program.fetch? ip = some c) (noOpening : c ≠ '[') (noClosing : c ≠ ']')
    (onTape : s.OnTape) :
    (s.config program policy ip).step = advance program policy ip (s.obey policy ip c) := by
  have fetched : (s.config program policy ip).machine.program.fetch?
      (s.config program policy ip).machine.ip = some c := found
  simp only [Config.step, fetched, obey]
  cases written : Instruction.ofChar? c with
  | none => rfl
  | some instruction =>
    cases instruction with
    | right => exact shift_one_config onTape
    | left => exact shift_neg_one_config onTape
    | increment => exact alter_config onTape _
    | decrement => exact alter_config onTape _
    | write => exact emit_config onTape
    | read => exact accept_config onTape
    | openLoop => exact absurd (Instruction.toChar_of_ofChar? written).symm noOpening
    | closeLoop => exact absurd (Instruction.toChar_of_ofChar? written).symm noClosing

theorem onTape_obey (policy : PointerPolicy) {c : Char} (found : program.fetch? ip = some c)
    (noOpening : c ≠ '[') (noClosing : c ≠ ']') (onTape : s.OnTape) :
    (s.obey policy ip c).1.OnTape := by
  have steps := StepsTo.of_step (s.config program policy ip).machine s.source s.sink
  have step : Config.step ⟨(s.config program policy ip).machine, s.source, s.sink⟩ = _ :=
    step_config_of_plain policy found noOpening noClosing onTape
  rw [step] at steps
  have kept := steps.onTape onTape
  rcases acts : s.obey policy ip c with ⟨t, error⟩
  rw [acts] at kept
  cases error with
  | none => exact kept
  | some e => exact kept

/-- The two brackets of a loop lead to the same place: into the loop if the cell is not zero, and
past the loop if it is. -/
theorem step_config_of_spans (policy : PointerPolicy) {i j : Nat} {table : JumpTable}
    (accepted : program.jumps = .ok table) (spans : Spans program.code.toList i j)
    (onTape : s.OnTape) {k : Nat} (bracket : k = i ∨ k = j) :
    (s.config program policy k).step =
      (s.config program policy (if s.cell = 0 then j + 1 else i + 1), none) := by
  have cell := getElem?_cell onTape
  have opening := spans.getElem?_opening
  have closing := spans.getElem?_closing
  rw [← Program.fetch?_eq_getElem?] at opening closing
  rw [program.jumps_eq] at accepted
  have forward := (JumpTable.partner?_eq_some_iff accepted).2 (Or.inl spans)
  have backward := (JumpTable.partner?_eq_some_iff accepted).2 (Or.inr spans)
  rcases bracket with rfl | rfl
  · by_cases zero : s.cell = 0
    · simp [Config.step, config, opening, Instruction.ofChar?, Config.perform,
        Config.jump, Machine.branch, Machine.cell?, cell, zero, Machine.landing,
        program.jumps_eq, accepted, forward]
    · simp [Config.step, config, opening, Instruction.ofChar?, Config.perform,
        Config.jump, Machine.branch, Machine.cell?, cell, zero]
  · by_cases zero : s.cell = 0
    · simp [Config.step, config, closing, Instruction.ofChar?, Config.perform,
        Config.jump, Machine.branch, Machine.cell?, cell, zero]
    · simp [Config.step, config, closing, Instruction.ofChar?, Config.perform,
        Config.jump, Machine.branch, Machine.cell?, cell, zero, Machine.landing,
        program.jumps_eq, accepted, backward]

theorem done_config (policy : PointerPolicy) (s : Store) (found : ip < program.size) :
    (s.config program policy ip).machine.done = false :=
  decide_eq_false (Nat.not_le.2 found)

theorem done_config_of_spans (policy : PointerPolicy) (s : Store) {i j k : Nat}
    (spans : Spans program.code.toList i j) (bracket : k = i ∨ k = j) :
    (s.config program policy k).machine.done = false := by
  have forward := spans.lt
  have bound := spans.lt_length
  rw [Program.length_code] at bound
  apply done_config
  omega

theorem ends_config_of_spans (policy : PointerPolicy) {i j k : Nat} {table : JumpTable}
    (accepted : program.jumps = .ok table) (spans : Spans program.code.toList i j)
    (onTape : s.OnTape) (bracket : k = i ∨ k = j) (d : Config) (e : Option StepError) :
    (s.config program policy k).Ends d e ↔
      (s.config program policy (if s.cell = 0 then j + 1 else i + 1)).Ends d e :=
  Config.ends_iff_of_step (done_config_of_spans policy s spans bracket)
    (step_config_of_spans policy accepted spans onTape bracket)

/-- What a run from `s` at `ip` comes to: without an error it goes on as one from `t` at `next`, and
with an error it ends in `t`. -/
def Leads (program : Program) (policy : PointerPolicy) (ip next : Nat) (s t : Store) :
    Option StepError → Prop
  | none => t.OnTape ∧ ∀ d e,
    (s.config program policy ip).Ends d e ↔ (t.config program policy next).Ends d e
  | some e => ∃ k, (s.config program policy ip).Ends (t.config program policy k) (some e)

theorem Leads.of_ends_iff {i j next : Nat} {u : Store} {e : Option StepError}
    (same : ∀ d e, (s.config program policy i).Ends d e ↔ (t.config program policy j).Ends d e)
    (leads : Leads program policy j next t u e) : Leads program policy i next s u e := by
  cases e with
  | none => exact ⟨leads.1, fun d e => (same d e).trans (leads.2 d e)⟩
  | some e =>
    obtain ⟨k, ends⟩ := leads
    exact ⟨k, (same _ _).2 ends⟩

end Store

/-- At either bracket of a loop the machine leaves the loop if its cell is zero, and goes to the
beginning of the body if it is not. -/
theorem Config.step_of_spans {c : Config} {value : UInt8} {i j : Nat} {table : JumpTable}
    (resolved : c.machine.program.jumps = .ok table)
    (spans : Spans c.machine.program.code.toList i j) (cell : c.machine.cell? = some value)
    (bracket : c.machine.ip = i ∨ c.machine.ip = j) :
    c.step = (c.onMachine fun m => { m with ip := if value = 0 then j + 1 else i + 1 }, none) := by
  have here : (Store.ofConfig c).cell = value := by
    rw [Store.cell, Store.ofConfig, ← Machine.cell?, cell]
    rfl
  have step := Store.step_config_of_spans (s := .ofConfig c) c.machine.policy resolved spans
    (Array.getElem?_eq_some_iff.1 cell).1 bracket
  rw [here] at step
  exact step

namespace Block

variable {program : Program} {policy : PointerPolicy} {table : JumpTable} {ip : Nat}

/-- The text of the block stands in the program from position `ip` on. -/
def StandsAt (program : Program) (ip : Nat) (b : Block) : Prop :=
  ∃ before after : List Char, program.code.toList = before ++ (b.text ++ after) ∧
    ip = before.length

namespace StandsAt

variable {body rest : Block} {c : Char} {noOpening : c ≠ '['} {noClosing : c ≠ ']'}

theorem fetch?_plain (stands : (plain c noOpening noClosing rest).StandsAt program ip) :
    program.fetch? ip = some c := by
  obtain ⟨before, after, code, rfl⟩ := stands
  rw [Program.fetch?_eq_getElem?, code]
  simp

theorem rest_plain (stands : (plain c noOpening noClosing rest).StandsAt program ip) :
    rest.StandsAt program (ip + 1) := by
  obtain ⟨before, after, code, rfl⟩ := stands
  exact ⟨before ++ [c], after, by simp [code], by simp⟩

theorem body_loop (stands : (loop body rest).StandsAt program ip) :
    body.StandsAt program (ip + 1) := by
  obtain ⟨before, after, code, rfl⟩ := stands
  exact ⟨before ++ ['['], ']' :: (rest.text ++ after), by simp [code], by simp⟩

theorem rest_loop (stands : (loop body rest).StandsAt program ip) :
    rest.StandsAt program (ip + body.size + 2) := by
  obtain ⟨before, after, code, rfl⟩ := stands
  refine ⟨before ++ '[' :: (body.text ++ [']']), after, by simp [code], ?_⟩
  simp [size, Nat.add_assoc]

theorem spans_loop (stands : (loop body rest).StandsAt program ip) :
    Spans program.code.toList ip (ip + body.size + 1) := by
  obtain ⟨before, after, code, rfl⟩ := stands
  exact ⟨before, body.text, rest.text ++ after, by simp [code], body.balanced_text, rfl, rfl⟩

theorem lt_size_plain (stands : (plain c noOpening noClosing rest).StandsAt program ip) :
    ip < program.size :=
  (Array.getElem?_eq_some_iff.1 stands.fetch?_plain).1

end StandsAt

@[simp]
theorem size_done : done.size = 0 := rfl

@[simp]
theorem size_plain (c : Char) (noOpening : c ≠ '[') (noClosing : c ≠ ']') (rest : Block) :
    (plain c noOpening noClosing rest).size = rest.size + 1 := by
  simp [size]

@[simp]
theorem size_loop (body rest : Block) : (loop body rest).size = body.size + rest.size + 2 := by
  simp [size]
  omega

/-- What a structured program means is what the machine does. -/
theorem Runs.leads {b : Block} {s t : Store} {e : Option StepError}
    (runs : Runs policy ip b s t e) (accepted : program.jumps = .ok table)
    (stands : b.StandsAt program ip) (onTape : s.OnTape) :
    Store.Leads program policy ip (ip + b.size) s t e := by
  induction runs with
  | done => exact ⟨onTape, fun d e => Iff.rfl⟩
  | @plain ip c noOpening noClosing rest s t u e acts after ih =>
    have found := stands.fetch?_plain
    have step := Store.step_config_of_plain policy found noOpening noClosing onTape
    have onTape' := Store.onTape_obey policy found noOpening noClosing onTape
    rw [acts] at step onTape'
    have undone := Store.done_config policy s stands.lt_size_plain
    rw [size_plain, Nat.add_comm rest.size, ← Nat.add_assoc]
    apply Store.Leads.of_ends_iff _ (ih stands.rest_plain onTape')
    intro d e
    exact Config.ends_iff_of_step undone step
  | @plainFails ip c noOpening noClosing rest s t e fails =>
    have found := stands.fetch?_plain
    have step := Store.step_config_of_plain policy found noOpening noClosing onTape
    rw [fails] at step
    have undone := Store.done_config policy s stands.lt_size_plain
    exact ⟨ip, Config.ends_of_error undone step⟩
  | @leave ip body rest s t e zero after ih =>
    have jump := Store.ends_config_of_spans policy accepted stands.spans_loop onTape
      (Or.inl rfl)
    rw [if_pos zero] at jump
    have leads := ih stands.rest_loop onTape
    rw [show ip + body.size + 2 + rest.size = ip + (loop body rest).size by
      rw [size_loop]; omega] at leads
    exact leads.of_ends_iff jump
  | @again ip body rest s t u e nonzero once after ihOnce ihAfter =>
    have enter := Store.ends_config_of_spans policy accepted stands.spans_loop onTape
      (Or.inl rfl)
    rw [if_neg nonzero] at enter
    obtain ⟨onTape', through⟩ := ihOnce stands.body_loop onTape
    -- from the closing bracket the machine does not go back to the opening one, but to where that
    -- would lead
    have back (d : Config) (e : Option StepError) :
        (t.config program policy (ip + 1 + body.size)).Ends d e ↔
          (t.config program policy ip).Ends d e := by
      rw [Store.ends_config_of_spans policy accepted stands.spans_loop onTape' (Or.inr (by omega)),
        Store.ends_config_of_spans policy accepted stands.spans_loop onTape' (Or.inl rfl)]
    apply (ihAfter stands onTape').of_ends_iff
    intro d e
    rw [enter, through, back]
  | @bodyFails ip body rest s t e nonzero fails ih =>
    have enter := Store.ends_config_of_spans policy accepted stands.spans_loop onTape
      (Or.inl rfl)
    rw [if_neg nonzero] at enter
    obtain ⟨k, ends⟩ := ih stands.body_loop onTape
    exact ⟨k, (enter _ _).2 ends⟩

/-- A run of `n` steps, seen from a block at its beginning: it ends in the block by an error, or it
leaves the block at its end and goes on from there. -/
def Explains (program : Program) (policy : PointerPolicy) (ip : Nat) (b : Block) (s : Store)
    (n : Nat) (d : Config) (e : Option StepError) : Prop :=
  (e ≠ none ∧ Runs policy ip b s (Store.ofConfig d) e) ∨
    ∃ t k, k ≤ n ∧ Runs policy ip b s t none ∧ t.OnTape ∧
      (t.config program policy (ip + b.size)).run k = some (d, e)

/-- What the machine does, from the beginning of a block to the end of its run, is what the block
means. The induction is on the length of the run, because a loop comes back to itself. -/
theorem explains_of_run (accepted : program.jumps = .ok table) {n : Nat} {b : Block} {s : Store}
    {d : Config} {e : Option StepError} (stands : b.StandsAt program ip) (onTape : s.OnTape)
    (ended : (s.config program policy ip).run n = some (d, e)) :
    Explains program policy ip b s n d e := by
  induction n using Nat.strongRecOn generalizing ip b s with
  | ind n ih =>
    cases b with
    | done => exact Or.inr ⟨s, n, Nat.le_refl n, .done, onTape, ended⟩
    | plain c noOpening noClosing rest =>
      have found := stands.fetch?_plain
      have step := Store.step_config_of_plain policy found noOpening noClosing onTape
      have onTape' := Store.onTape_obey policy found noOpening noClosing onTape
      have undone := Store.done_config policy s stands.lt_size_plain
      cases n with
      | zero => simp [Config.run_zero_of_not_done undone] at ended
      | succ n =>
        rcases acts : s.obey policy ip c with ⟨t, error⟩
        rw [acts] at step onTape'
        cases error with
        | some f =>
          rw [Config.run_succ_of_error undone step] at ended
          simp only [Option.some.injEq, Prod.mk.injEq] at ended
          obtain ⟨rfl, rfl⟩ := ended
          exact Or.inl ⟨by simp, .plainFails acts⟩
        | none =>
          rw [Config.run_succ_of_step undone step] at ended
          rcases ih n (by omega) stands.rest_plain onTape' ended with
            ⟨failed, runs⟩ | ⟨u, k, less, runs, onTape'', rest'⟩
          · exact Or.inl ⟨failed, .plain acts runs⟩
          · refine Or.inr ⟨u, k, by omega, .plain acts runs, onTape'', ?_⟩
            rwa [size_plain, Nat.add_comm rest.size, ← Nat.add_assoc]
    | loop body rest =>
      have spans := stands.spans_loop
      have step := Store.step_config_of_spans policy accepted spans onTape (Or.inl rfl)
      have undone := Store.done_config_of_spans policy s spans (Or.inl rfl)
      cases n with
      | zero => simp [Config.run_zero_of_not_done undone] at ended
      | succ n =>
        rw [Config.run_succ_of_step undone step] at ended
        by_cases zero : s.cell = 0
        · rw [if_pos zero] at ended
          rcases ih n (by omega) stands.rest_loop onTape ended with
            ⟨failed, runs⟩ | ⟨t, k, less, runs, onTape', after⟩
          · exact Or.inl ⟨failed, .leave zero runs⟩
          · refine Or.inr ⟨t, k, by omega, .leave zero runs, onTape', ?_⟩
            rw [← after, size_loop]
            congr 2
            omega
        · rw [if_neg zero] at ended
          rcases ih n (by omega) stands.body_loop onTape ended with
            ⟨failed, once⟩ | ⟨t, k, less, once, onTape', closing⟩
          · cases e with
            | none => exact absurd rfl failed
            | some f => exact Or.inl ⟨failed, .bodyFails zero once⟩
          · -- the rest of the run is one from the opening bracket, and shorter
            have opening : (t.config program policy ip).run k = some (d, e) := by
              rw [← closing]
              apply Config.run_eq_of_step_eq
              · exact Store.done_config_of_spans policy t spans (Or.inl rfl)
              · exact Store.done_config_of_spans policy t spans (Or.inr (by omega))
              · rw [Store.step_config_of_spans policy accepted spans onTape' (Or.inl rfl),
                  Store.step_config_of_spans policy accepted spans onTape' (Or.inr (by omega))]
            rcases ih k (by omega) stands onTape' opening with
              ⟨failed, runs⟩ | ⟨u, l, less', runs, onTape'', after⟩
            · exact Or.inl ⟨failed, .again zero once runs⟩
            · exact Or.inr ⟨u, l, by omega, .again zero once runs, onTape'', after⟩

end Block

theorem run_iff_runs (b : Block) {program : Program} (code : program.code.toList = b.text)
    {cells : Nat} (positive : 0 < cells) (policy : PointerPolicy) (source : Source) (sink : Sink)
    (t : Store) (e : Option StepError) :
    (∃ d, ((Store.fresh cells source sink).config program policy 0).Ends d e ∧
      Store.ofConfig d = t) ↔ b.Runs policy 0 (Store.fresh cells source sink) t e := by
  have accepted : program.jumps = .ok (b.entries 0).toArray := by
    rw [program.jumps_eq, code, JumpTable.ofCode_text]
  have stands : b.StandsAt program 0 := ⟨[], [], by simp [code], rfl⟩
  have onTape : (Store.fresh cells source sink).OnTape := by
    simpa [Store.OnTape, Store.fresh] using positive
  have finished (u : Store) : (u.config program policy (0 + b.size)).machine.done = true := by
    have length : program.size = b.size := by
      rw [← Program.length_code, code, Block.size]
    exact decide_eq_true (by simp [Store.config, length])
  constructor
  · rintro ⟨d, ⟨n, ended⟩, same⟩
    rcases Block.explains_of_run accepted stands onTape ended with
      ⟨-, runs⟩ | ⟨u, k, -, runs, -, after⟩
    · rwa [same] at runs
    · rw [Config.run_of_done (finished u)] at after
      simp only [Option.some.injEq, Prod.mk.injEq] at after
      obtain ⟨rfl, rfl⟩ := after
      rw [Store.ofConfig_config] at same
      exact same ▸ runs
  · intro runs
    have leads := runs.leads accepted stands onTape
    cases e with
    | none => exact ⟨_, (leads.2 _ _).2 (Config.ends_of_done (finished t)), rfl⟩
    | some e =>
      obtain ⟨k, ends⟩ := leads
      exact ⟨_, ends, rfl⟩

theorem exists_execute_iff_runs {text : String} {b : Block} (same : b.text = text.toList)
    {cells : Nat} (positive : 0 < cells) (policy : PointerPolicy) (source : Source) (sink : Sink)
    (outcome : Outcome) (t : Store) :
    (∃ fuel x, execute fuel (Program.ofString text) cells policy source sink = some x ∧
      x.outcome = outcome ∧ Store.ofConfig x.final = t) ↔
    ∃ e, Block.Runs policy 0 b (Store.fresh cells source sink) t e ∧
      Outcome.ofStop t.output e = outcome := by
  have code : (Program.ofString text).code.toList = b.text := by
    rw [Program.ofString, Program.toList_code_ofList, same]
  have accepted : (Program.ofString text).jumps = .ok (b.entries 0).toArray := by
    rw [Program.jumps_ofString, ← same, JumpTable.ofCode_text]
  have meaning := run_iff_runs b code positive policy source sink t
  rw [show (Store.fresh cells source sink).config (Program.ofString text) policy 0 =
    ⟨.fresh (Program.ofString text) cells policy, source, sink⟩ from rfl] at meaning
  constructor
  · rintro ⟨fuel, x, executed, ends, final⟩
    rw [execute_of_balanced cells policy source sink accepted, Option.map_eq_some_iff] at executed
    obtain ⟨⟨d, e⟩, ended, rfl⟩ := executed
    rw [Execution.final_ofStop] at final
    rw [Execution.outcome_ofStop] at ends
    exact ⟨e, (meaning e).1 ⟨d, ⟨fuel, ended⟩, final⟩, by rw [← final]; exact ends⟩
  · rintro ⟨e, runs, ends⟩
    obtain ⟨d, ⟨fuel, ended⟩, final⟩ := (meaning e).2 runs
    refine ⟨fuel, .ofStop d e, ?_, ?_, ?_⟩
    · rw [execute_of_balanced cells policy source sink accepted, ended]
      rfl
    · rw [Execution.outcome_ofStop, ← ends, ← final]
      rfl
    · rw [Execution.final_ofStop, final]

/-- Structured programs mean what the machine makes of them. A balanced text has a structure, and on
any tape that has cells and can be made, its execution ends if and only if the structure has a
meaning; the end is then the same, with the same tape, pointer and output and the same use of the
source and the sink. Of a size for which memory has no room there is no tape, nor of one that fits
into no word. -/
theorem execute_iff_runs (text : String) (balanced : Balanced text.toList) :
    ∃ b, Block.parse? text.toList = some b ∧
      ∀ (cells : Nat), 0 < cells →
      ∀ (room : Nat) (policy : PointerPolicy) (source : Source) (sink : Sink),
        let sized fuel := executeSized room fuel (Program.ofString text) cells policy source sink
        ((cells : Int) < Word.limit → cells ≤ room → ∀ (outcome : Outcome) (t : Store),
          (∃ fuel x, sized fuel = .ok (some x) ∧ x.outcome = outcome ∧
            Store.ofConfig x.final = t) ↔
          ∃ e, Block.Runs policy 0 b (Store.fresh cells source sink) t e ∧
            Outcome.ofStop t.output e = outcome) ∧
        ((cells : Int) < Word.limit → room < cells → ∀ fuel, sized fuel = .error .outOfMemory) ∧
        (Word.limit ≤ cells → ∀ fuel, sized fuel = .error .outOfRange) := by
  obtain ⟨b, same⟩ := balanced_iff_exists_block.1 balanced
  refine ⟨b, Block.parse?_eq_some_iff.2 same, ?_⟩
  intro cells positive room policy source sink sized
  refine ⟨?_, ?_, ?_⟩
  · intro word fits outcome t
    have made fuel : sized fuel = .ok _ :=
      executeSized_natCast word fits fuel (Program.ofString text) policy source sink
    simp only [made, Except.ok.injEq]
    exact exists_execute_iff_runs same positive policy source sink outcome t
  · intro word large fuel
    exact executeSized_of_room_lt word large
  · intro beyond fuel
    exact executeSized_of_limit_le beyond

/-- A program that reads once more than there is input: its structure ends by the same fault. -/
theorem execute_iff_runs_echo :
    Balanced ",[.,]".toList ∧ 0 < 1 ∧ ((1 : Nat) : Int) < Word.limit ∧
      ∃ b t e, Block.parse? ",[.,]".toList = some b ∧
      Block.Runs .bounded 0 b (Store.fresh 1 (.ofBytes #[65]) .unlimited) t e ∧
      Outcome.ofStop t.output e = .failed (.input 3 .exhausted) ∧ t.output = #[65] := by
  have balanced : Balanced ",[.,]".toList := JumpTable.exists_ofCode_iff_balanced.1 ⟨_, rfl⟩
  have word : ((1 : Nat) : Int) < Word.limit := by decide
  obtain ⟨b, parsed, meaning⟩ := execute_iff_runs ",[.,]" balanced
  have ended : ∃ x, executeSized 1 4 (Program.ofString ",[.,]") (1 : Nat) .bounded (.ofBytes #[65])
      .unlimited = .ok (some x) ∧ x.outcome = .failed (.input 3 .exhausted) ∧
        x.final.machine.output = #[65] := ⟨_, rfl, rfl, rfl⟩
  obtain ⟨x, executed, outcome, output⟩ := ended
  obtain ⟨e, runs, same⟩ := ((meaning 1 (by decide) 1 .bounded (.ofBytes #[65]) .unlimited).1 word
    (Nat.le_refl 1) (.failed (.input 3 .exhausted)) (Store.ofConfig x.final)).1
      ⟨4, x, executed, outcome, rfl⟩
  exact ⟨balanced, by decide, word, b, Store.ofConfig x.final, e, parsed, runs, same, output⟩

/-- The structure of the empty text has a meaning on a tape of any length, but the text has no
execution on one whose length fits into no word, whatever memory has room for. -/
theorem not_execute_always_iff_runs :
    ¬∀ text : String, Balanced text.toList → ∀ cells : Nat, 0 < cells → ∀ policy source sink,
      ∃ room b, Block.parse? text.toList = some b ∧ ∀ outcome t,
        (∃ fuel x, executeSized room fuel (Program.ofString text) cells policy source sink =
          .ok (some x) ∧ x.outcome = outcome ∧ Store.ofConfig x.final = t) ↔
        ∃ e, Block.Runs policy 0 b (Store.fresh cells source sink) t e ∧
          Outcome.ofStop t.output e = outcome := by
  intro means
  obtain ⟨room, b, parsed, meaning⟩ := means "" .nil Word.limit.toNat (by decide) .bounded
    (.ofBytes #[]) .unlimited
  obtain rfl : Block.done = b := Option.some.inj parsed
  obtain ⟨fuel, x, executed, -⟩ := (meaning (.completed (outputText #[]))
    (Store.fresh Word.limit.toNat (.ofBytes #[]) .unlimited)).2 ⟨none, .done, rfl⟩
  rw [executeSized_of_limit_le (by decide)] at executed
  contradiction

end ByteTape

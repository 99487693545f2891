import ByteTape.Proofs.Likeness
import ByteTape.Proofs.Reachable

set_option autoImplicit false

namespace ByteTape

namespace Machine

/-- The machine in another program, at the place that corresponds to its position. -/
def resettle (program : Program) (place : Nat → Nat) (m : Machine) : Machine :=
  { m with program := program, ip := place m.ip }

variable {m : Machine} {program : Program} {place enter : Nat → Nat}

theorem target_resettle (m : Machine) (program : Program) (place : Nat → Nat) (delta : Int) :
    (∃ e, m.target delta = .error e ∧
      (m.resettle program place).target delta = .error (e.relocate place)) ∨
    ∃ pointer, m.target delta = .ok pointer ∧
      (m.resettle program place).target delta = .ok pointer := by
  simp only [target, resettle]
  cases m.policy with
  | wrap =>
    by_cases empty : m.tape.size = 0
    · exact Or.inl ⟨.escape .emptyTape, if_pos empty, if_pos empty⟩
    · exact Or.inr ⟨_, if_neg empty, if_neg empty⟩
  | bounded =>
    by_cases inside : 0 ≤ (m.pointer : Int) + delta ∧ (m.pointer : Int) + delta < m.tape.size
    · exact Or.inr ⟨_, if_pos inside, if_pos inside⟩
    · refine Or.inl ⟨_, if_neg inside, ?_⟩
      rw [StepError.relocate_outOfTape]
      exact if_neg inside

theorem landing_resettle {table table' : JumpTable} (resolved : m.program.jumps = .ok table)
    (resolved' : program.jumps = .ok table')
    (corresponds : ∀ i j, Spans m.program.code.toList i j →
      Spans program.code.toList (place i) (place j)) (jumping : m.Jumps) :
    ∃ partner, (Spans m.program.code.toList m.ip partner ∨
        Spans m.program.code.toList partner m.ip) ∧
      m.landing = .ok (partner + 1) ∧
      (m.resettle program place).landing = .ok (place partner + 1) := by
  obtain ⟨partner, entry, -⟩ := exists_spans_of_jumps jumping resolved
  have spans := (JumpTable.partner?_eq_some_iff (m.program.jumps_eq.symm.trans resolved)).1 entry
  have entry' : table'.partner? (place m.ip) = some (place partner) :=
    (JumpTable.partner?_eq_some_iff (program.jumps_eq.symm.trans resolved')).2
      (spans.imp (corresponds _ _) (corresponds _ _))
  refine ⟨partner, spans, ?_, ?_⟩
  · simp only [landing, resolved, entry]
  · simp only [landing, resettle, resolved', entry']

/-- Machines at corresponding places step alike, if what comes after them corresponds, too, as
`enter` says. -/
theorem alike_resettle (fetched : program.fetch? (place m.ip) = m.program.fetch? m.ip)
    (next : enter (m.ip + 1) = place m.ip + 1)
    (landing : m.Jumps → ∃ ip, m.landing = .ok ip ∧
      (m.resettle program place).landing = .ok (enter ip)) :
    Alike place (resettle program enter) m (m.resettle program place) where
  fetch?_eq := fetched
  ip_eq := rfl
  cell?_eq := rfl
  next_eq := by simp only [resettle, next]
  alter_eq change := by simp only [resettle, next]
  write_eq value := by simp only [resettle, next]
  target_eq := by
    intro delta moving
    rcases m.target_resettle program place delta with failing | ⟨pointer, goes, goes'⟩
    · exact Or.inl failing
    · exact Or.inr ⟨pointer, pointer, goes, goes', by simp only [resettle, next]⟩
  landing_eq := by
    intro jumping
    obtain ⟨ip, lands, lands'⟩ := landing jumping
    exact Or.inr ⟨ip, _, lands, lands', rfl⟩

end Machine

end ByteTape

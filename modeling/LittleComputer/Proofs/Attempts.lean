import LittleComputer.Proofs.Calls
import LittleComputer.Proofs.Step

namespace LittleComputer

/-! Sequences of steps -/

namespace Machine

def steps : (count : Nat) → Action Machine Fault Unit
  | 0 => pure ()
  | count + 1 => do
      let _ ← step
      steps count

theorem steps_add (first second : Nat) :
    steps (first + second) = steps first >>= fun _ => steps second := by
  induction first with
  | zero =>
      rw [Nat.zero_add]
      rfl
  | succ first ih => rw [Nat.add_right_comm, steps, ih, steps, Action.bind_assoc]

theorem steps_of_le {σ : Type} {console : Console σ} {machine reached : Machine}
    {state left : σ} {count fewer : Nat} (hle : fewer ≤ count)
    (hsteps : (steps count machine).converse console state = ((.ok (), reached), left)) :
    ∃ middle between later,
      (steps fewer machine).converse console state = ((.ok (), middle), between) ∧
        (steps count machine).calls console state =
          (steps fewer machine).calls console state ++ later := by
  obtain ⟨rest, rfl⟩ := Nat.exists_eq_add_of_le hle
  rw [steps_add, Action.bind_apply, Dialogue.converse_bind] at hsteps
  rw [steps_add, Action.bind_apply, Dialogue.calls_bind]
  rcases hfewer : (steps fewer machine).converse console state with ⟨⟨fault | ⟨⟩, middle⟩, between⟩
  · rw [hfewer] at hsteps
    cases hsteps
  · exact ⟨middle, between, _, rfl, rfl⟩

/-- The machine after so many steps, each of which may retire or fault. -/
def attempts : (count : Nat) → Machine → Dialogue Machine
  | 0, machine => .done machine
  | count + 1, machine =>
      (attempts count machine).bind fun reached =>
        (step reached).bind fun outcome => .done outcome.2

section

variable {σ : Type} (console : Console σ) (machine : Machine) (state : σ) (count : Nat)

@[simp] theorem attempts_zero : attempts 0 machine = .done machine := rfl

theorem converse_attempts_succ :
    (attempts (count + 1) machine).converse console state =
      let reached := (attempts count machine).converse console state
      (((step reached.1).converse console reached.2).1.2,
        ((step reached.1).converse console reached.2).2) := by
  rw [attempts, Dialogue.converse_bind, Dialogue.converse_bind]
  rfl

theorem calls_attempts_succ :
    (attempts (count + 1) machine).calls console state =
      (attempts count machine).calls console state ++
        (step ((attempts count machine).converse console state).1).calls console
          ((attempts count machine).converse console state).2 := by
  rw [attempts, Dialogue.calls_bind, Dialogue.calls_bind, Dialogue.calls_done, List.append_nil]

end

theorem attempts_succ {σ : Type} {console : Console σ} {machine reached next : Machine}
    {state between after : σ} {count : Nat} {result : Except Fault StepResult}
    (hreached : (attempts count machine).converse console state = (reached, between))
    (hstep : (step reached).converse console between = ((result, next), after)) :
    (attempts (count + 1) machine).converse console state = (next, after) := by
  rw [converse_attempts_succ, hreached]
  dsimp only
  rw [hstep]

def Within {σ : Type} (console : Console σ) (event : Machine → σ → Prop) (machine : Machine)
    (state : σ) (count : Nat) : Prop :=
  ∃ index < count, event ((attempts index machine).converse console state).1
    ((attempts index machine).converse console state).2

section

variable {σ : Type} {console : Console σ} {event : Machine → σ → Prop} {machine : Machine}
  {state : σ} {count : Nat}

theorem not_within_zero : ¬ Within console event machine state 0 := by
  rintro ⟨index, hindex, _⟩
  exact absurd hindex (Nat.not_lt_zero index)

theorem within_succ :
    Within console event machine state (count + 1) ↔
      Within console event machine state count ∨
        event ((attempts count machine).converse console state).1
          ((attempts count machine).converse console state).2 := by
  constructor
  · rintro ⟨index, hindex, hevent⟩
    rcases Nat.lt_or_eq_of_le (Nat.le_of_lt_succ hindex) with hlt | rfl
    · exact .inl ⟨index, hlt, hevent⟩
    · exact .inr hevent
  · rintro (⟨index, hindex, hevent⟩ | hevent)
    · exact ⟨index, Nat.lt_succ_of_lt hindex, hevent⟩
    · exact ⟨count, Nat.lt_succ_self count, hevent⟩

end

end Machine

end LittleComputer

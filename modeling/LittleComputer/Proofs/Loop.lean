import LittleComputer.Proofs.Attempts
import LittleComputer.Proofs.Rounds

namespace LittleComputer

/-! The run loop as iterated rounds -/

namespace Machine

variable {σ : Type}

/-- How the loop may end at the machine `reached`, after `count` of at most `budget`
rounds. -/
inductive LoopEnd (console : Console σ) (spent : Ending) (budget offset count : Nat)
    (reached : Machine) (between : σ) : (Except Fault RunSummary × Machine) × σ → Prop
  | halted (hhalted : reached.status = .halted) :
      LoopEnd console spent budget offset count reached between
        ((.ok ⟨offset + count, .halted⟩, reached), between)
  | exhausted (hrunning : reached.status = .running) (hcount : count = budget) :
      LoopEnd console spent budget offset count reached between
        ((.ok ⟨offset + count, spent⟩, reached), between)
  | faulted {fault : Fault} {final : Machine} {left : σ}
      (hrunning : reached.status = .running) (hcount : count < budget)
      (hround : (round reached).converse console between = ((.error fault, final), left)) :
      LoopEnd console spent budget offset count reached between ((.error fault, final), left)

structure Loop (console : Console σ) (spent : Ending) (budget offset : Nat) (machine : Machine)
    (state : σ) (count : Nat) (reached : Machine) (between : σ)
    (outcome : (Except Fault RunSummary × Machine) × σ) : Prop where
  le_budget : count ≤ budget
  reaches : RoundsReach console machine state count reached between
  running : StaysRunning console machine state count
  ends : LoopEnd console spent budget offset count reached between outcome

theorem runFor_halted {machine : Machine} (hhalted : machine.status = .halted)
    (console : Console σ) (spent : Ending) (budget offset : Nat) (state : σ) :
    (runFor spent budget offset machine).converse console state =
      ((.ok ⟨offset, .halted⟩, machine), state) := by
  rw [runFor.eq_def, if_neg (by simp [isRunning, hhalted])]
  rfl

theorem runFor_zero {machine : Machine} (hrunning : machine.status = .running)
    (console : Console σ) (spent : Ending) (offset : Nat) (state : σ) :
    (runFor spent 0 offset machine).converse console state =
      ((.ok ⟨offset, spent⟩, machine), state) := by
  rw [runFor, if_pos (machine.isRunning_iff.mpr hrunning)]
  rfl

theorem runFor_succ {machine : Machine} (hrunning : machine.status = .running)
    (console : Console σ) (spent : Ending) (budget offset : Nat) (state : σ) :
    (runFor spent (budget + 1) offset machine).converse console state =
      match (round machine).converse console state with
      | ((.ok _, next), after) => (runFor spent budget (offset + 1) next).converse console after
      | ((.error fault, final), left) => ((.error fault, final), left) := by
  rw [runFor, if_pos (machine.isRunning_iff.mpr hrunning)]
  simp only [Dialogue.converse_ask, round]
  rcases console.answer .interrupt state with ⟨error | _, after⟩
  · rfl
  · simp only [Dialogue.converse_bind]
    rcases (step machine).converse console after with ⟨⟨fault | result, next⟩, left⟩ <;> rfl

theorem LoopEnd.succ {console : Console σ} {spent : Ending} {budget offset count : Nat}
    {reached : Machine} {between : σ} {outcome : (Except Fault RunSummary × Machine) × σ}
    (hend : LoopEnd console spent budget (offset + 1) count reached between outcome) :
    LoopEnd console spent (budget + 1) offset (count + 1) reached between outcome := by
  have hsteps : offset + 1 + count = offset + (count + 1) := by omega
  cases hend with
  | halted hhalted =>
      rw [hsteps]
      exact .halted hhalted
  | exhausted hrunning hcount =>
      rw [hsteps]
      exact .exhausted hrunning (congrArg (· + 1) hcount)
  | faulted hrunning hcount hround =>
      exact .faulted hrunning (Nat.succ_lt_succ hcount) hround

theorem runFor_loop (console : Console σ) (spent : Ending) (budget offset : Nat)
    (machine : Machine) (state : σ) :
    ∃ count reached between, Loop console spent budget offset machine state count reached between
      ((runFor spent budget offset machine).converse console state) := by
  induction budget generalizing offset machine state with
  | zero =>
      refine ⟨0, machine, state, Nat.le_refl 0, roundsReach_zero_iff.mpr ⟨rfl, rfl⟩,
        StaysRunning.zero, ?_⟩
      cases hstatus : machine.status with
      | halted =>
          rw [runFor_halted hstatus]
          exact .halted hstatus
      | running =>
          rw [runFor_zero hstatus]
          exact .exhausted hstatus rfl
  | succ budget ih =>
      cases hstatus : machine.status with
      | halted =>
          refine ⟨0, machine, state, Nat.zero_le _, roundsReach_zero_iff.mpr ⟨rfl, rfl⟩,
            StaysRunning.zero, ?_⟩
          rw [runFor_halted hstatus]
          exact .halted hstatus
      | running =>
          rw [runFor_succ hstatus]
          rcases hround : (round machine).converse console state with
            ⟨⟨fault | result, next⟩, after⟩
          · exact ⟨0, machine, state, Nat.zero_le _, roundsReach_zero_iff.mpr ⟨rfl, rfl⟩,
              StaysRunning.zero, .faulted hstatus (Nat.succ_pos budget) hround⟩
          · obtain ⟨count, reached, between, hle, hreaches, hrunning, hend⟩ :=
              ih (offset + 1) next after
            exact ⟨count + 1, reached, between, Nat.succ_le_succ hle,
              roundsReach_succ_iff.mpr ⟨result, next, after, hround, hreaches⟩,
              hrunning.succ hstatus hround, hend.succ⟩

section

variable {console : Console σ} {spent : Ending} {budget offset : Nat} {machine : Machine}
  {state : σ} {first second : Nat} {reached other : Machine} {between elsewhere : σ}
  {outcome another : (Except Fault RunSummary × Machine) × σ}

/-- No end lies before another: the loop goes on from a running machine, within its
budget, when the next round succeeds. -/
theorem Loop.le
    (hfirst : Loop console spent budget offset machine state first reached between outcome)
    (hsecond : Loop console spent budget offset machine state second other elsewhere another) :
    second ≤ first := by
  rcases Nat.lt_or_ge first second with hlt | hge
  · have hstatus := hsecond.running first hlt reached between hfirst.reaches
    obtain ⟨next, after, hnext⟩ := hsecond.reaches.of_le (Nat.succ_le_of_lt hlt)
    obtain ⟨middle, before, result, hmiddle, hround⟩ := roundsReach_succ_iff_last.mp hnext
    obtain ⟨rfl, rfl⟩ := hfirst.reaches.unique hmiddle
    cases hfirst.ends with
    | halted hhalted =>
        rw [hstatus] at hhalted
        cases hhalted
    | exhausted _ hcount =>
        have hle := hsecond.le_budget
        omega
    | faulted _ _ hfault =>
        rw [hround] at hfault
        cases hfault
  · exact hge

theorem Loop.unique
    (hfirst : Loop console spent budget offset machine state first reached between outcome)
    (hsecond : Loop console spent budget offset machine state second other elsewhere another) :
    first = second ∧ outcome = another := by
  obtain rfl : first = second := Nat.le_antisymm (hsecond.le hfirst) (hfirst.le hsecond)
  obtain ⟨rfl, rfl⟩ := hfirst.reaches.unique hsecond.reaches
  refine ⟨rfl, ?_⟩
  have hle := hfirst.le_budget
  cases hfirst.ends with
  | halted hhalted =>
      cases hsecond.ends with
      | halted => rfl
      | exhausted hrunning | faulted hrunning =>
          rw [hhalted] at hrunning
          cases hrunning
  | exhausted hrunning hcount =>
      cases hsecond.ends with
      | halted hhalted =>
          rw [hhalted] at hrunning
          cases hrunning
      | exhausted => rfl
      | faulted _ hlt => omega
  | faulted hrunning hlt hround =>
      cases hsecond.ends with
      | halted hhalted =>
          rw [hhalted] at hrunning
          cases hrunning
      | exhausted _ hcount => omega
      | faulted _ _ hother =>
          rw [hround] at hother
          cases hother
          rfl

end

theorem run_eq_runFor (console : Console σ) (machine : Machine) (state : σ) :
    (run machine).converse console state =
      (runFor machine.config.spent machine.config.budget 0 machine).converse console state := rfl

abbrev RunLoop (console : Console σ) (machine : Machine) (state : σ) (count : Nat)
    (reached : Machine) (between : σ) (outcome : (Except Fault RunSummary × Machine) × σ) : Prop :=
  Loop console machine.config.spent machine.config.budget 0 machine state count reached between
    outcome

theorem run_loop (console : Console σ) (machine : Machine) (state : σ) :
    ∃ count reached between, RunLoop console machine state count reached between
      ((run machine).converse console state) :=
  runFor_loop console machine.config.spent machine.config.budget 0 machine state

theorem run_eq_iff_loop (console : Console σ) (machine : Machine) (state : σ)
    (outcome : (Except Fault RunSummary × Machine) × σ) :
    (run machine).converse console state = outcome ↔
      ∃ count reached between, RunLoop console machine state count reached between outcome := by
  constructor
  · intro houtcome
    subst houtcome
    exact run_loop console machine state
  · intro ⟨count, reached, between, hloop⟩
    obtain ⟨_, _, _, hactual⟩ := run_loop console machine state
    exact (hactual.unique hloop).2

theorem Loop.rounds {console : Console σ} {spent : Ending} {budget offset count : Nat}
    {machine reached final : Machine} {state between left : σ} {result : Except Fault RunSummary}
    (hloop : Loop console spent budget offset machine state count reached between
      ((result, final), left)) :
    ∃ count, (rounds count machine).converse console state =
      ((result.map fun _ => (), final), left) := by
  cases hloop.ends with
  | halted | exhausted => exact ⟨count, hloop.reaches⟩
  | faulted _ _ hround => exact ⟨count + 1, hloop.reaches.faults hround⟩

theorem run_rounds (console : Console σ) (machine : Machine) (state : σ) :
    ∃ count,
      (rounds count machine).calls console state = (run machine).calls console state ∧
        ((rounds count machine).converse console state).1.1 =
          ((run machine).converse console state).1.1.map fun _ => () := by
  have hrun := Dialogue.converse_logged console (run machine) state []
  obtain ⟨_, _, _, hloop⟩ := (run_eq_iff_loop console.logged machine (state, []) _).mp hrun
  obtain ⟨count, hrounds⟩ := hloop.rounds
  rw [Dialogue.converse_logged] at hrounds
  refine ⟨count, ?_, ?_⟩
  · exact congrArg (fun outcome => outcome.2.2) hrounds
  · exact congrArg (fun outcome => outcome.1.1) hrounds

theorem run_of_rounds {console : Console σ} {machine : Machine} {state : σ}
    {property : List Call → Except Fault Unit → Prop}
    (hrounds : ∀ count, property ((rounds count machine).calls console state)
      ((rounds count machine).converse console state).1.1) :
    property ((run machine).calls console state)
      (((run machine).converse console state).1.1.map fun _ => ()) := by
  obtain ⟨count, hcalls, hresult⟩ := run_rounds console machine state
  rw [← hcalls, ← hresult]
  exact hrounds count

/-- A law of single steps and rounds that holds of any number of them. -/
structure StepLaw (law : ∀ {α : Type}, Action Machine Fault α → Prop) : Prop where
  pure : ∀ {α : Type} (value : α), law (pure value : Action Machine Fault α)
  bind : ∀ {α β : Type} {action : Action Machine Fault α} {after : α → Action Machine Fault β},
    law action → (∀ value, law (after value)) → law (action >>= after)
  step : law step
  round : law round

namespace StepLaw

variable {law : ∀ {α : Type}, Action Machine Fault α → Prop} (laws : StepLaw law)

include laws

theorem steps (count : Nat) : law (steps count) := by
  induction count with
  | zero => exact laws.pure ()
  | succ count ih => exact laws.bind laws.step fun _ => ih

theorem rounds (count : Nat) : law (rounds count) := by
  induction count with
  | zero => exact laws.pure ()
  | succ count ih => exact laws.bind laws.round fun _ => ih

end StepLaw

end Machine

end LittleComputer

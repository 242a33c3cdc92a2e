import LittleComputer.Proofs.Configuration
import LittleComputer.Proofs.PreciseFaults

namespace LittleComputer

/-! Runs in sequence -/

def RunSummary.after (steps : Nat) (summary : RunSummary) : RunSummary :=
  { summary with steps := steps + summary.steps }

namespace Machine

variable {σ : Type}

theorem converse_runFor_withLimit (console : Console σ) (spent : Ending) (budget steps : Nat)
    (limit : Option UInt64) {machine final : Machine} {state left : σ}
    {result : Except Fault RunSummary}
    (hrun : (runFor spent budget steps machine).converse console state = ((result, final), left)) :
    (runFor spent budget steps (machine.withLimit limit)).converse console state =
      ((result, final.withLimit limit), left) := by
  have hignores := @runFor_ignores_configuration (fun config => { config with limit := limit })
    (fun _ => rfl) spent budget steps machine
  rw [withLimit, hignores, Dialogue.converse_bind, hrun]
  rfl

theorem runFor_after (console : Console σ) (spent : Ending) (budget earlier steps : Nat)
    {machine final : Machine} {state left : σ} {result : Except Fault RunSummary}
    (hrun : (runFor spent budget steps machine).converse console state = ((result, final), left)) :
    (runFor spent budget (earlier + steps) machine).converse console state =
      ((result.map (.after earlier), final), left) := by
  induction budget generalizing steps machine state with
  | zero =>
      cases hstatus : machine.status with
      | running =>
          rw [runFor_zero hstatus] at hrun ⊢
          cases hrun
          rfl
      | halted =>
          rw [runFor_halted hstatus] at hrun ⊢
          cases hrun
          rfl
  | succ budget ih =>
      cases hstatus : machine.status with
      | running =>
          rw [runFor_succ hstatus] at hrun ⊢
          rcases hround : (round machine).converse console state with
            ⟨⟨fault | result, next⟩, after⟩
          · rw [hround] at hrun
            cases hrun
            rfl
          · rw [hround] at hrun
            exact ih (steps + 1) hrun
      | halted =>
          rw [runFor_halted hstatus] at hrun ⊢
          cases hrun
          rfl

theorem runFor_add (console : Console σ) (other spent : Ending) (first second steps : Nat)
    (machine : Machine) (state : σ) :
    (runFor spent (first + second) steps machine).converse console state =
      match (runFor other first steps machine).converse console state with
      | ((.ok summary, middle), between) =>
          (runFor spent second summary.steps middle).converse console between
      | ((.error fault, final), left) => ((.error fault, final), left) := by
  induction first generalizing steps machine state with
  | zero =>
      rw [Nat.zero_add]
      cases hstatus : machine.status with
      | running => rw [runFor_zero hstatus]
      | halted => simp only [runFor_halted hstatus]
  | succ first ih =>
      rw [Nat.add_right_comm]
      cases hstatus : machine.status with
      | running =>
          rw [runFor_succ hstatus, runFor_succ hstatus]
          rcases (round machine).converse console state with ⟨⟨fault | result, next⟩, after⟩
          · rfl
          · exact ih (steps + 1) next after
      | halted => simp only [runFor_halted hstatus]

section

variable {console : Console σ} {machine middle final : Machine} {state between left : σ}

/-- A loop that ends before its budget is used up ends alike under any other budget that is
not used up either. -/
theorem Loop.rebudget {spent : Ending} {budget other steps count : Nat}
    {outcome : (Except Fault RunSummary × Machine) × σ}
    (hloop : Loop console spent budget steps machine state count middle between outcome)
    (hbudget : count < budget) (hother : count < other) :
    Loop console spent other steps machine state count middle between outcome := by
  refine ⟨Nat.le_of_lt hother, hloop.reaches, hloop.running, ?_⟩
  cases hloop.ends with
  | halted hhalted => exact .halted hhalted
  | exhausted _ hcount => exact absurd hcount (Nat.ne_of_lt hbudget)
  | faulted hrunning _ hround => exact .faulted hrunning hother hround

theorem Loop.converse {spent : Ending} {budget steps count : Nat}
    {outcome : (Except Fault RunSummary × Machine) × σ}
    (hloop : Loop console spent budget steps machine state count middle between outcome) :
    (runFor spent budget steps machine).converse console state = outcome := by
  obtain ⟨_, _, _, hactual⟩ := runFor_loop console spent budget steps machine state
  exact (hactual.unique hloop).2

def RunCompletes (console : Console σ) (machine : Machine) (state : σ) (count : Nat) : Prop :=
  (∃ ending final left,
    (run machine).converse console state = ((.ok ⟨count, ending⟩, final), left)) ∨
  ∃ fault final left, FaultsAfter console machine state count fault final left

theorem RunCompletes.loop {count : Nat} (hcompletes : RunCompletes console machine state count)
    (hcount : count < UInt64.size) :
    ∃ reached between, RunLoop console machine state count reached between
      ((run machine).converse console state) := by
  obtain ⟨ending, final, left, hrun⟩ | ⟨fault, final, left, hfaults⟩ := hcompletes
  · obtain ⟨steps, reached, between, hloop⟩ := run_loop console machine state
    have hends := hloop.ends
    rw [hrun] at hends
    obtain rfl : count = steps := by
      cases hends <;> exact Nat.zero_add steps
    exact ⟨reached, between, hloop⟩
  · obtain ⟨reached, between, hloop⟩ := hfaults.loop fun _ => hcount
    rw [(run_eq_iff_loop console machine state _).mpr ⟨count, reached, between, hloop⟩]
    exact ⟨reached, between, hloop⟩

theorem runFor_continues {first : UInt64} {summary : RunSummary} {spent : Ending} (rest : Nat)
    (limit : Option UInt64) {result : Except Fault RunSummary}
    (hfirst : (run (machine.withLimit (some first))).converse console state =
      ((.ok summary, middle), between))
    (hsecond : (runFor spent rest 0 (middle.withLimit limit)).converse console between =
      ((result, final), left)) :
    (runFor spent (first.toNat + rest) 0 (machine.withLimit limit)).converse console state =
      ((result.map (.after summary.steps), final), left) := by
  rw [run_eq_runFor, budget_withLimit_some] at hfirst
  have hmiddle := converse_runFor_withLimit console _ first.toNat 0 limit hfirst
  rw [withLimit_withLimit] at hmiddle
  rw [runFor_add, hmiddle]
  exact runFor_after console spent rest summary.steps 0 hsecond

theorem runFor_faults {first : UInt64} {fault : Fault} (spent : Ending) (rest : Nat)
    (limit : Option UInt64)
    (hfirst : (run (machine.withLimit (some first))).converse console state =
      ((.error fault, final), left)) :
    (runFor spent (first.toNat + rest) 0 (machine.withLimit limit)).converse console state =
      ((.error fault, final.withLimit limit), left) := by
  rw [run_eq_runFor, budget_withLimit_some] at hfirst
  have hfinal := converse_runFor_withLimit console _ first.toNat 0 limit hfirst
  rw [withLimit_withLimit] at hfinal
  rw [runFor_add, hfinal]

theorem steps_of_running {first : UInt64} {summary : RunSummary}
    (hfirst : (run (machine.withLimit (some first))).converse console state =
      ((.ok summary, middle), between))
    (hrunning : middle.status = .running) : summary.steps = first.toNat := by
  obtain ⟨count, reached, _, hloop⟩ := (run_eq_iff_loop console _ state _).mp hfirst
  have hends := hloop.ends
  rw [budget_withLimit_some] at hends
  cases hends with
  | halted hhalted =>
      rw [hrunning] at hhalted
      cases hhalted
  | exhausted _ hcount => rw [← hcount, Nat.zero_add]

theorem runFor_of_completes {summary : RunSummary} {first : UInt64} {later : Nat}
    (hfirst : (run (machine.withLimit (some first))).converse console state =
      ((.ok summary, middle), between))
    (hcompletes : RunCompletes console (middle.withLimit none) between later)
    (hcount : summary.steps + later < UInt64.size) :
    (runFor .unfinished (UInt64.size - first.toNat) 0 (middle.withLimit none)).converse console
        between =
      (run (middle.withLimit none)).converse console between := by
  cases hstatus : middle.status with
  | halted =>
      -- A halted machine stops at once, whatever the budget.
      have hhalted : (middle.withLimit none).status = .halted := hstatus
      rw [run_eq_runFor, runFor_halted hhalted, runFor_halted hhalted]
  | running =>
      -- The first budget is used up, and the rest of the full one suffices for `later`.
      have hsteps := steps_of_running hfirst hstatus
      have hlater : later < UInt64.size := by omega
      obtain ⟨reached, _, hloop⟩ := hcompletes.loop hlater
      exact (hloop.rebudget hlater (by omega)).converse

/-- Two runs, the second on the machine and the console that the first has left, are one run
under the sum of their limits, and one without a limit if the second has none. -/
theorem run_continues (console : Console σ) (machine : Machine) (state : σ) (first : UInt64) :
    (∀ summary middle between,
      (run (machine.withLimit (some first))).converse console state =
          ((.ok summary, middle), between) →
        (∀ second : UInt64, first.toNat + second.toNat < UInt64.size →
          ∀ result final left,
            (run (middle.withLimit (some second))).converse console between =
                ((result, final), left) →
              (run (machine.withLimit (some (first + second)))).converse console state =
                ((result.map (.after summary.steps), final.withLimit (some (first + second))),
                  left)) ∧
        (∀ later, RunCompletes console (middle.withLimit none) between later →
          summary.steps + later < UInt64.size →
          ∀ result final left,
            (run (middle.withLimit none)).converse console between = ((result, final), left) →
              (run (machine.withLimit none)).converse console state =
                ((result.map (.after summary.steps), final), left))) ∧
    (∀ fault final left,
      (run (machine.withLimit (some first))).converse console state =
          ((.error fault, final), left) →
        (∀ second : UInt64, first.toNat + second.toNat < UInt64.size →
          (run (machine.withLimit (some (first + second)))).converse console state =
            ((.error fault, final.withLimit (some (first + second))), left)) ∧
        (run (machine.withLimit none)).converse console state =
          ((.error fault, final.withLimit none), left)) := by
  have hbudget {second : UInt64} (hsum : first.toNat + second.toNat < UInt64.size) :
      (machine.withLimit (some (first + second))).config.budget =
        first.toNat + second.toNat := by
    rw [budget_withLimit_some, UInt64.toNat_add]
    exact Nat.mod_eq_of_lt hsum
  have hunlimited : (machine.withLimit none).config.budget =
      first.toNat + (UInt64.size - first.toNat) := by
    have hlt : first.toNat < UInt64.size := first.toNat_lt
    rw [budget_withLimit_none]
    omega
  refine ⟨fun summary middle between hfirst => ⟨fun second hsum result final left hsecond => ?_,
    fun later hcompletes hcount result final left hsecond => ?_⟩,
    fun fault final left hfirst => ⟨fun second hsum => ?_, ?_⟩⟩
  · rw [run_eq_runFor, hbudget hsum]
    rw [run_eq_runFor, budget_withLimit_some] at hsecond
    have hrest :=
      converse_runFor_withLimit console _ second.toNat 0 (some (first + second)) hsecond
    rw [withLimit_withLimit] at hrest
    exact runFor_continues _ _ hfirst hrest
  · rw [run_eq_runFor, hunlimited]
    exact runFor_continues _ _ hfirst ((runFor_of_completes hfirst hcompletes hcount).trans hsecond)
  · rw [run_eq_runFor, hbudget hsum]
    exact runFor_faults _ _ _ hfirst
  · rw [run_eq_runFor, hunlimited]
    exact runFor_faults _ _ _ hfirst

end

theorem rounds_of_quietHalt :
    ∃ next final : Machine, next.status = .running ∧ final.status = .halted ∧
      ∀ limit : Option UInt64,
        (round ((holding { banner := false } [0x1021, 0xF025]).withLimit limit)).converse
            Script.console { input := [] } =
          ((.ok .completed, next.withLimit limit), { input := [] }) ∧
        (round (next.withLimit limit)).converse Script.console { input := [] } =
          ((.ok .halted, final.withLimit limit), { input := [] }) := by
  let machine := holding { banner := false } [0x1021, 0xF025]
  have hadd : machine.memory.peek 0x3000 = 0x1021 := by
    simp [machine, holding, ofConfig, Memory.writeWords, Region.first, Memory.peek_write]
  have hhalt : machine.memory.peek 0x3001 = 0xF025 := by
    simp [machine, holding, ofConfig, Memory.writeWords, Region.first]
  have hdecode : Instruction.decode 0x1021 = .add .r0 .r0 (.immediate 1) := by decide
  let next : Machine :=
    { machine with
      registers := machine.registers.advance.writeResult .r0 1
      retired := 1 }
  let final : Machine :=
    { next with
      registers := next.registers.advance.write .link 0x3002
      status := .halted
      retired := 2 }
  have hentry : machine.registers.pc ≠ DeviceCell.keyboardStatus.address := by decide
  have hbehind : next.registers.pc ≠ DeviceCell.keyboardStatus.address := by decide
  refine ⟨next, final, rfl, rfl, fun limit => ⟨?_, ?_⟩⟩
  · have hrunning : (machine.withLimit limit).status = .running := rfl
    rw [converse_round rfl, step_retire hrunning hentry hadd (by rw [hdecode]; rfl)]
    rfl
  · have hrunning : (next.withLimit limit).status = .running := rfl
    rw [converse_round rfl]
    exact step_quietHalt hrunning hbehind hhalt rfl _ _

theorem quietHalt_after_addition :
    ∃ final : Machine,
      (run ((holding { banner := false } [0x1021, 0xF025]).withLimit (some (1 + 1)))).converse
          Script.console { input := [] } =
        ((.ok ⟨2, .halted⟩, final.withLimit (some (1 + 1))), { input := [] }) ∧
      (run ((holding { banner := false } [0x1021, 0xF025]).withLimit none)).converse
          Script.console { input := [] } =
        ((.ok ⟨2, .halted⟩, final.withLimit none), { input := [] }) ∧
      (run ((holding { banner := false } [0x1021, 0xF025]).withLimit none)).converse
          Script.console { input := [], interruptPending := true } =
        ((.error ⟨0x3000, .console .interrupted⟩,
          (holding { banner := false } [0x1021, 0xF025]).withLimit none), { input := [] }) := by
  let machine := holding { banner := false } [0x1021, 0xF025]
  obtain ⟨next, final, hrunning, hhalted, hrounds⟩ := rounds_of_quietHalt
  have hfirst : (run ((holding { banner := false } [0x1021, 0xF025]).withLimit (some 1))).converse
        Script.console { input := [] } =
      ((.ok ⟨1, .limitReached⟩, next.withLimit (some 1)), { input := [] }) := by
    have hnext : (next.withLimit (some 1)).status = .running := hrunning
    have hround := (hrounds (some 1)).1
    rw [run_eq_runFor, budget_withLimit_some, show (1 : UInt64).toNat = 0 + 1 from rfl,
      runFor_succ rfl, hround]
    exact runFor_zero hnext _ _ _ _
  have hrest (limit : Option UInt64) (budget : Nat)
      (hbudget : (next.withLimit limit).config.budget = budget + 1) :
      (run (next.withLimit limit)).converse Script.console { input := [] } =
        ((.ok ⟨1, .halted⟩, final.withLimit limit), { input := [] }) := by
    have hnext : (next.withLimit limit).status = .running := hrunning
    have hfinal : (final.withLimit limit).status = .halted := hhalted
    rw [run_eq_runFor, hbudget, runFor_succ hnext, (hrounds limit).2]
    exact runFor_halted hfinal _ _ _ _ _
  have hinterrupted : (run (machine.withLimit (some 1))).converse Script.console
      { input := [], interruptPending := true } =
        ((.error ⟨0x3000, .console .interrupted⟩, machine.withLimit (some 1)),
          { input := [] }) := by
    rw [run_eq_runFor, budget_withLimit_some, show (1 : UInt64).toNat = 0 + 1 from rfl,
      runFor_succ rfl]
    rfl
  have hlast := hrest none (UInt64.size - 1) (budget_withLimit_none next)
  obtain ⟨hcontinues, _⟩ := run_continues Script.console machine { input := [] } 1
  obtain ⟨hlimited, hunlimited⟩ := hcontinues _ _ _ hfirst
  obtain ⟨_, hfaults⟩ :=
    run_continues Script.console machine { input := [], interruptPending := true } 1
  have hbroken := (hfaults _ _ _ hinterrupted).2
  rw [withLimit_withLimit] at hbroken
  exact ⟨final, hlimited 1 (by decide) _ _ _ (hrest (some 1) 0 (budget_withLimit_some next 1)),
    hunlimited 1 (.inl ⟨_, _, _, hlast⟩) (by decide) _ _ _ hlast,
    hbroken⟩

end Machine

end LittleComputer

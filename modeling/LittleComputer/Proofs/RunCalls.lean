import LittleComputer.Proofs.Loop

namespace LittleComputer

/-! The calls of a run, round by round -/

namespace Machine

section

variable {σ : Type} {console : Console σ} {machine reached : Machine} {state between : σ}

theorem StaysRunning.of_running {count : Nat}
    (hreaches : RoundsReach console machine state count reached between)
    (hrunning : reached.status = .running) : StaysRunning console machine state (count + 1) := by
  induction count generalizing reached between with
  | zero => exact StaysRunning.zero.snoc hreaches hrunning
  | succ count ih =>
      obtain ⟨middle, before, result, hmiddle, hlast⟩ := roundsReach_succ_iff_last.mp hreaches
      have hbefore : middle.status = .running := by
        have houtcome := (round_outcome middle).converse console before
        rw [hlast] at houtcome
        rcases houtcome with ⟨hmiddle, _⟩ | ⟨_, _, rfl⟩
        · exact hmiddle
        · exact hrunning
      exact (ih hmiddle hbefore).snoc hreaches hrunning

theorem RoundsReach.retired_of_running {count : Nat}
    (hreaches : RoundsReach console machine state count reached between)
    (hrunning : reached.status = .running) :
    reached.retired = machine.retired + UInt64.ofNat count :=
  hreaches.retired fun fewer hfewer =>
    StaysRunning.of_running hreaches hrunning fewer (Nat.lt_succ_of_lt hfewer)

theorem calls_round {console : Console σ} {state after : σ}
    (hunbroken : console.answer .interrupt state = (.ok (), after)) (machine : Machine) :
    (round machine).calls console state =
      ⟨.interrupt, .ok ()⟩ :: (step machine).calls console after := by
  rw [round, Dialogue.calls_ask, hunbroken]

theorem calls_rounds_succ {next : Machine} {after : σ} {result : StepResult}
    (hround : (round machine).converse console state = ((.ok result, next), after)) (count : Nat) :
    (rounds (count + 1) machine).calls console state =
      (round machine).calls console state ++ (rounds count next).calls console after := by
  rw [rounds, Action.bind_apply, Dialogue.calls_bind, hround]

theorem calls_runFor_zero (console : Console σ) (spent : Ending) (steps : Nat)
    (machine : Machine) (state : σ) :
    (runFor spent 0 steps machine).calls console state = [] := by
  rw [runFor]
  split <;> rfl

theorem calls_runFor_halted (hhalted : machine.status = .halted) (console : Console σ)
    (spent : Ending) (budget steps : Nat) (state : σ) :
    (runFor spent budget steps machine).calls console state = [] := by
  rw [runFor.eq_def, if_neg (by simp [isRunning, hhalted])]
  rfl

theorem calls_runFor_succ (hrunning : machine.status = .running) (console : Console σ)
    (spent : Ending) (budget steps : Nat) (state : σ) :
    (runFor spent (budget + 1) steps machine).calls console state =
      (round machine).calls console state ++
        match (round machine).converse console state with
        | ((.ok _, next), after) => (runFor spent budget (steps + 1) next).calls console after
        | ((.error _, _), _) => [] := by
  rw [runFor, if_pos (machine.isRunning_iff.mpr hrunning)]
  simp only [Dialogue.calls_ask, Dialogue.converse_ask, round]
  rcases console.answer .interrupt state with ⟨error | _, after⟩
  · rfl
  · simp only [Dialogue.calls_bind]
    rcases (step machine).converse console after with ⟨⟨fault | result, next⟩, left⟩ <;> rfl

theorem exists_calls_run (machine : Machine) (hrunning : machine.status = .running)
    (hbudget : machine.config.budget ≠ 0) (console : Console σ) (state : σ) :
    ∃ later, (run machine).calls console state = (round machine).calls console state ++ later := by
  obtain ⟨more, hmore⟩ := Nat.exists_eq_succ_of_ne_zero hbudget
  have hcalls := calls_runFor_succ hrunning console machine.config.spent more 0 state
  rw [← Nat.succ_eq_add_one, ← hmore] at hcalls
  exact ⟨_, hcalls⟩

theorem run_once {console : Console σ} {final : Machine} {state left : σ} {result : StepResult}
    (hrunning : machine.status = .running) (hbudget : machine.config.budget ≠ 0)
    (hround : (round machine).converse console state = ((.ok result, final), left))
    (hhalted : final.status = .halted) :
    (run machine).converse console state = ((.ok ⟨1, .halted⟩, final), left) ∧
      (run machine).calls console state = (round machine).calls console state := by
  obtain ⟨more, hmore⟩ := Nat.exists_eq_succ_of_ne_zero hbudget
  have hcalls := calls_runFor_succ hrunning console machine.config.spent more 0 state
  rw [hround] at hcalls
  dsimp only at hcalls
  rw [calls_runFor_halted hhalted, List.append_nil, ← Nat.succ_eq_add_one, ← hmore] at hcalls
  refine ⟨?_, hcalls⟩
  rw [run_eq_runFor, hmore, Nat.succ_eq_add_one, runFor_succ hrunning, hround]
  exact runFor_halted hhalted console _ more 1 left

theorem runFor_reached {count : Nat}
    (hreaches : RoundsReach console machine state count reached between)
    (hrunning : reached.status = .running) (spent : Ending) (more steps : Nat) :
    (runFor spent (count + more) steps machine).converse console state =
        (runFor spent more (steps + count) reached).converse console between ∧
      (runFor spent (count + more) steps machine).calls console state =
        (rounds count machine).calls console state ++
          (runFor spent more (steps + count) reached).calls console between := by
  induction count generalizing machine state steps with
  | zero =>
      obtain ⟨rfl, rfl⟩ := roundsReach_zero_iff.mp hreaches
      rw [Nat.zero_add]
      exact ⟨rfl, rfl⟩
  | succ count ih =>
      have hstatus := StaysRunning.of_running hreaches hrunning 0 (Nat.succ_pos _) machine state
        (roundsReach_zero_iff.mpr ⟨rfl, rfl⟩)
      obtain ⟨result, next, after, hround, hrest⟩ := roundsReach_succ_iff.mp hreaches
      obtain ⟨hconverse, hcalls⟩ := ih hrest (steps + 1)
      rw [Nat.add_right_comm steps 1 count] at hconverse hcalls
      rw [Nat.add_right_comm, runFor_succ hstatus, calls_runFor_succ hstatus,
        calls_rounds_succ hround, hround, List.append_assoc]
      exact ⟨hconverse, congrArg _ hcalls⟩

theorem run_faulted {count : Nat} {fault : Fault} {final : Machine} {left : σ}
    (hreaches : RoundsReach console machine state count reached between)
    (hrunning : reached.status = .running) (hcount : count < machine.config.budget)
    (hround : (round reached).converse console between = ((.error fault, final), left)) :
    (run machine).converse console state = ((.error fault, final), left) := by
  obtain ⟨more, hmore⟩ := Nat.exists_eq_add_of_lt hcount
  rw [run_eq_runFor, hmore, Nat.add_assoc, (runFor_reached hreaches hrunning _ (more + 1) 0).1,
    runFor_succ hrunning, hround]

/-- The run has made the calls `earlier`. It is at an instruction that has begun and of which the
calls `rest` are left. -/
structure Underway (console : Console σ) (machine : Machine) (state : σ) (earlier : List Call)
    (count : Nat) (reached : Machine) (between : σ) (rest : List Call) : Prop where
  reaches : RoundsReach console machine state count reached between
  running : reached.status = .running
  begun : ∃ front, front ≠ [] ∧
    earlier = (rounds count machine).calls console state ++ front ∧
      (round reached).calls console between = front ++ rest

theorem Underway.first {earlier rest : List Call} (hrunning : machine.status = .running)
    (hbegun : earlier ≠ []) (hround : (round machine).calls console state = earlier ++ rest) :
    Underway console machine state earlier 0 machine state rest :=
  ⟨roundsReach_zero_iff.mpr ⟨rfl, rfl⟩, hrunning, earlier, hbegun, rfl, hround⟩

theorem Underway.succ {front rest : List Call} {count : Nat} {next : Machine} {after : σ}
    {result : StepResult}
    (hround : (round machine).converse console state = ((.ok result, next), after))
    (hunderway : Underway console next after front count reached between rest) :
    Underway console machine state ((round machine).calls console state ++ front) (count + 1)
      reached between rest := by
  obtain ⟨hreaches, hrunning, begun, hbegun, rfl, hrest⟩ := hunderway
  refine ⟨roundsReach_succ_iff.mpr ⟨result, next, after, hround, hreaches⟩, hrunning, begun,
    hbegun, ?_, hrest⟩
  rw [calls_rounds_succ hround, List.append_assoc]

theorem Underway.last {earlier rest : List Call} {call : Call} {count : Nat}
    (hunderway :
      Underway console machine state (earlier ++ [call]) count reached between rest) :
    ∃ begun, earlier = (rounds count machine).calls console state ++ begun ∧
      (round reached).calls console between = begun ++ call :: rest := by
  obtain ⟨front, hfront, hearlier, hround⟩ := hunderway.begun
  obtain rfl | ⟨begun, last, rfl⟩ := List.eq_nil_or_concat front
  · exact absurd rfl hfront
  · rw [List.concat_eq_append] at hearlier hround
    rw [← List.append_assoc] at hearlier
    obtain ⟨hbegun, hlast⟩ := List.append_inj' hearlier rfl
    obtain rfl : call = last := (List.cons.inj hlast).1
    exact ⟨begun, hbegun, by simpa using hround⟩

theorem runFor_underway {spent : Ending} {budget steps : Nat} {earlier later : List Call}
    (hcalls : (runFor spent budget steps machine).calls console state = earlier ++ later)
    (hbegun : earlier ≠ []) :
    ∃ count reached between rest,
      Underway console machine state earlier count reached between rest ∧ count < budget := by
  induction budget generalizing steps machine state earlier with
  | zero =>
      rw [calls_runFor_zero] at hcalls
      exact absurd (List.append_eq_nil_iff.mp hcalls.symm).1 hbegun
  | succ budget ih =>
      cases hstatus : machine.status with
      | halted =>
          rw [calls_runFor_halted hstatus] at hcalls
          exact absurd (List.append_eq_nil_iff.mp hcalls.symm).1 hbegun
      | running =>
          rw [calls_runFor_succ hstatus] at hcalls
          rcases List.append_eq_append_iff.mp hcalls with
            ⟨front, rfl, hlater⟩ | ⟨rest, hrest, rfl⟩
          · by_cases hfront : front = []
            · subst hfront
              exact ⟨0, machine, state, [], .first hstatus hbegun (by simp), Nat.succ_pos budget⟩
            · rcases hround : (round machine).converse console state with
                ⟨⟨fault | result, next⟩, after⟩
              · rw [hround] at hlater
                exact absurd (List.append_eq_nil_iff.mp hlater.symm).1 hfront
              · rw [hround] at hlater
                obtain ⟨count, reached, between, rest, hunderway, hcount⟩ := ih hlater hfront
                exact ⟨count + 1, reached, between, rest, hunderway.succ hround,
                  Nat.succ_lt_succ hcount⟩
          · exact ⟨0, machine, state, rest, .first hstatus hbegun hrest, Nat.succ_pos budget⟩

theorem run_underway {earlier later : List Call}
    (hcalls : (run machine).calls console state = earlier ++ later) (hbegun : earlier ≠ []) :
    ∃ count reached between rest,
      Underway console machine state earlier count reached between rest ∧
        count < machine.config.budget := by
  have hloop : (runFor machine.config.spent machine.config.budget 0 machine).calls console state =
      earlier ++ later := hcalls
  exact runFor_underway hloop hbegun

end

end Machine

end LittleComputer

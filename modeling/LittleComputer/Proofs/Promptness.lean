import LittleComputer.Console.Streams
import LittleComputer.Proofs.ReportedFailures
import LittleComputer.Proofs.PreciseFaults
import LittleComputer.Proofs.RunCalls
import LittleComputer.Proofs.Simulation

namespace LittleComputer

/-! Interrupts that stay -/

namespace Console

variable {σ : Type}

/-- In these states an interrupt has come. Every check reports it from then on. -/
structure Sticky (console : Console σ) (raised : σ → Prop) : Prop where
  stays : ∀ request state, raised state → raised (console.answer request state).2
  reports : ∀ state, raised state → (console.answer .interrupt state).1 = .error .interrupted

def interruptedAfter (console : Console σ) : Console (σ × Nat) where
  answer
    | .interrupt, (state, 0) => (.error .interrupted, state, 0)
    | request, (state, left) =>
        let (answer, after) := console.answer request state
        (answer, after, left - 1)

theorem interruptedAfter_sticky (console : Console σ) :
    console.interruptedAfter.Sticky fun state => state.2 = 0 where
  stays request state hraised := by
    obtain ⟨inner, left⟩ := state
    obtain rfl : left = 0 := hraised
    cases request <;> rfl
  reports state hraised := by
    obtain ⟨inner, left⟩ := state
    obtain rfl : left = 0 := hraised
    rfl

end Console

theorem Streams.console_sticky : Streams.console.Sticky fun streams => streams.interrupted := by
  have hkept (streams : Streams) (hraised : streams.interrupted) :
      streams.readKey.2.interrupted ∧ streams.awaitSignal.interrupted := by
    constructor
    · unfold readKey
      split <;> first | exact hraised | rfl
    · unfold awaitSignal
      repeat' split
      all_goals first | exact hraised | rfl
  constructor
  · intro request streams hraised
    cases request with
    | poll =>
        change streams.pollKey.2.interrupted
        unfold pollKey
        split
        · exact hraised
        · exact (hkept streams hraised).1
    | read => exact (hkept streams hraised).1
    | write bytes => exact (streams.emits_write bytes).interrupted.trans hraised
    | flush => exact streams.emits_flush.interrupted.trans hraised
    | interrupt => exact (hkept streams hraised).2
  · intro streams hraised
    exact if_pos (hkept streams hraised).2

namespace Machine

section

variable {σ : Type} {console : Console σ}

/-- A run that begins no further instruction after `steps` of them, with the calls it makes. -/
inductive BeginsNoMore (console : Console σ) (spent : Ending) (budget steps : Nat)
    (reached : Machine) (between : σ) :
    List Call → (Except Fault RunSummary × Machine) × σ → Prop
  | halted (hhalted : reached.status = .halted) :
      BeginsNoMore console spent budget steps reached between []
        ((.ok ⟨steps, .halted⟩, reached), between)
  | exhausted (hrunning : reached.status = .running) (hsteps : steps = budget) :
      BeginsNoMore console spent budget steps reached between []
        ((.ok ⟨steps, spent⟩, reached), between)
  | interrupted (hrunning : reached.status = .running) (hsteps : steps < budget) :
      BeginsNoMore console spent budget steps reached between [⟨.interrupt, .error .interrupted⟩]
        ((.error ⟨reached.registers.pc, .console .interrupted⟩, reached),
          (console.answer .interrupt between).2)

/-- After `steps` instructions the run ends with the one at which it is: it makes the calls that
are left of it, and then begins no other. -/
inductive Finishes (console : Console σ) (spent : Ending) (budget steps : Nat) (reached : Machine)
    (between : σ) (rest : List Call) :
    List Call → (Except Fault RunSummary × Machine) × σ → Prop
  | faulted {fault : Fault} {final : Machine} {left : σ}
      (hround : (round reached).converse console between = ((.error fault, final), left))
      (hregisters : final.registers = reached.registers)
      (hretired : final.retired = reached.retired)
      (hpc : fault.pc = reached.registers.pc)
      (hcause : ∀ failure request, ⟨request, .error failure⟩ ∈
        (round reached).calls console between → fault.cause = .console failure) :
      Finishes console spent budget steps reached between rest rest ((.error fault, final), left)
  | retired {result : StepResult} {next : Machine} {after : σ} {ending : List Call}
      {outcome : (Except Fault RunSummary × Machine) × σ}
      (hround : (round reached).converse console between = ((.ok result, next), after))
      (hcalls : ∀ call ∈ (round reached).calls console between, ¬ call.Fails)
      (hretired : next.retired = reached.retired + 1)
      (hstops : BeginsNoMore console spent budget (steps + 1) next after ending outcome) :
      Finishes console spent budget steps reached between rest (rest ++ ending) outcome

section

variable {spent : Ending} {budget steps : Nat} {reached : Machine} {between : σ}

theorem Finishes.of_fault {fault : Fault} {final : Machine} {left : σ}
    (hround : (round reached).converse console between = ((.error fault, final), left))
    (rest : List Call) :
    Finishes console spent budget steps reached between rest rest
      ((.error fault, final), left) := by
  obtain ⟨hregisters, hframe, hpc⟩ := withdrawn_of_round hround
  obtain ⟨_, _, hretired⟩ := frame_eq_iff.mp hframe
  have hreported := (round_reports reached).converse console between
  rw [hround] at hreported
  refine .faulted hround hregisters hretired hpc fun failure request hmem => ?_
  obtain ⟨_, herror, hcause⟩ := (hreported.console_iff failure).mpr ⟨request, hmem⟩
  cases herror
  exact hcause

theorem Finishes.of_retired {result : StepResult} {next : Machine} {after : σ}
    {ending : List Call} {outcome : (Except Fault RunSummary × Machine) × σ}
    (hrunning : reached.status = .running)
    (hround : (round reached).converse console between = ((.ok result, next), after))
    (hends : BeginsNoMore console spent budget (steps + 1) next after ending outcome)
    (rest : List Call) :
    Finishes console spent budget steps reached between rest (rest ++ ending) outcome := by
  have hreported := (round_reports reached).converse console between
  have houtcome := (round_outcome reached).converse console between
  rw [hround] at hreported houtcome
  rcases houtcome with ⟨_, hretired⟩ | ⟨hhalted, _⟩
  · exact .retired hround hreported.unfailed_of_ok hretired.retired hends
  · rw [hrunning] at hhalted
    cases hhalted

end

section

variable {machine : Machine} {state : σ} {raised : σ → Prop} (hsticky : console.Sticky raised)

include hsticky

theorem runFor_raised (machine : Machine) (hraised : raised state) (spent : Ending)
    (budget steps : Nat) :
    BeginsNoMore console spent (steps + budget) steps machine state
      ((runFor spent budget steps machine).calls console state)
      ((runFor spent budget steps machine).converse console state) := by
  rw [runFor.eq_def]
  cases hstatus : machine.status with
  | halted =>
      rw [if_neg (by simp [isRunning, hstatus])]
      exact .halted hstatus
  | running =>
      rw [if_pos (machine.isRunning_iff.mpr hstatus)]
      cases budget with
      | zero => exact .exhausted hstatus rfl
      | succ budget =>
          have hreports := hsticky.reports state hraised
          simp only [Dialogue.calls_ask, Dialogue.converse_ask, hreports]
          exact .interrupted hstatus (Nat.lt_add_of_pos_right (Nat.succ_pos budget))

theorem Underway.finishes {reached : Machine} {between : σ} {spent : Ending} {budget count : Nat}
    {earlier rest later : List Call}
    (hunderway : Underway console machine state earlier count reached between rest)
    (hcount : count < budget)
    (hcalls : (runFor spent budget 0 machine).calls console state = earlier ++ later)
    (hraised : raised (console.after state earlier)) :
    Finishes console spent budget count reached between rest later
      ((runFor spent budget 0 machine).converse console state) := by
  obtain ⟨hreaches, hrunning, front, _, rfl, hround⟩ := hunderway
  obtain ⟨more, rfl⟩ := Nat.exists_eq_add_of_lt hcount
  obtain ⟨hconverse, hwhole⟩ := runFor_reached hreaches hrunning spent (more + 1) 0
  rw [Nat.zero_add] at hconverse hwhole
  rw [Nat.add_assoc] at hcalls ⊢
  rw [hwhole, calls_runFor_succ hrunning, hround] at hcalls
  simp only [List.append_assoc, List.append_cancel_left_eq] at hcalls
  rw [hconverse, runFor_succ hrunning, ← hcalls]
  rcases houtcome : (round reached).converse console between with
    ⟨⟨fault | result, next⟩, after⟩
  · rw [List.append_nil]
    exact .of_fault houtcome rest
  · -- The interrupt is still there when the instruction is done.
    have hbetween := Dialogue.after_calls console (rounds count machine) state
    have hafter := Dialogue.after_calls console (round reached) between
    rw [hreaches] at hbetween
    rw [houtcome, hround, Console.after_append] at hafter
    have hnext := Console.after_of_invariant raised hsticky.stays hraised rest
    rw [Console.after_append, hbetween, hafter] at hnext
    have hends := runFor_raised hsticky next hnext spent more (count + 1)
    rw [Nat.add_right_comm] at hends
    exact .of_retired hrunning houtcome hends rest

/-- Whenever an interrupt comes that stays, the run retires no instruction but the one that has
begun. It begins no other: it ends with this one, or breaks off in front of the next. -/
theorem interrupted_promptly {earlier later : List Call}
    (hcalls : (run machine).calls console state = earlier ++ later)
    (hraised : raised (console.after state earlier)) :
    (earlier = [] ∧ BeginsNoMore console machine.config.spent machine.config.budget 0 machine state
      later ((run machine).converse console state)) ∨
    ∃ count reached between rest,
      Underway console machine state earlier count reached between rest ∧
        count < machine.config.budget ∧
        Finishes console machine.config.spent machine.config.budget count reached between rest
          later ((run machine).converse console state) := by
  by_cases hbegun : earlier = []
  · subst hbegun
    rw [List.nil_append] at hcalls
    have hends :=
      runFor_raised hsticky machine hraised machine.config.spent machine.config.budget 0
    rw [Nat.zero_add] at hends
    exact .inl ⟨rfl, hcalls ▸ hends⟩
  · obtain ⟨count, reached, between, rest, hunderway, hcount⟩ :=
      run_underway hcalls hbegun
    exact .inr ⟨count, reached, between, rest, hunderway, hcount,
      hunderway.finishes hsticky hcount hcalls hraised⟩

end

end

theorem interrupted_after_write :
    ∃ later count reached between rest,
      (run (holding {} [0xF021])).calls Script.console.interruptedAfter ({ input := [] }, 2) =
          [⟨.interrupt, .ok ()⟩, ⟨.write [0], .ok ()⟩] ++ later ∧
        Underway Script.console.interruptedAfter (holding {} [0xF021]) ({ input := [] }, 2)
          [⟨.interrupt, .ok ()⟩, ⟨.write [0], .ok ()⟩] count reached between rest ∧
        Finishes Script.console.interruptedAfter .unfinished UInt64.size count reached between rest
          later ((run (holding {} [0xF021])).converse Script.console.interruptedAfter
            ({ input := [] }, 2)) := by
  let machine := holding {} [0xF021]
  have hrequests : machine.Requests .out := requests_holding (by decide)
  have hround : (round machine).calls Script.console.interruptedAfter ({ input := [] }, 2) =
      [⟨.interrupt, .ok ()⟩, ⟨.write [0], .ok ()⟩] ++ [⟨.flush, .ok ()⟩] := by
    rw [calls_round rfl, step_requested hrequests]
    rfl
  obtain ⟨later, hcalls⟩ := exists_calls_run machine rfl (by decide)
    Script.console.interruptedAfter ({ input := [] }, 2)
  rw [hround, List.append_assoc] at hcalls
  rcases interrupted_promptly Script.console.interruptedAfter_sticky hcalls rfl with
    ⟨hnone, _⟩ | ⟨count, reached, between, rest, hunderway, _, hfinishes⟩
  · cases hnone
  · exact ⟨_, count, reached, between, rest, hcalls, hunderway, hfinishes⟩

end Machine

end LittleComputer

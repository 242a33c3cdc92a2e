import LittleComputer.Console.Failing
import LittleComputer.Console.Scripted
import LittleComputer.Proofs.Chronicle
import LittleComputer.Proofs.ReportedFailures
import LittleComputer.Proofs.RunCalls

namespace LittleComputer

/-! The life of a machine, from one reset to the next -/

namespace Machine

section

variable {σ : Type} {console : Console σ} {machine after : Machine} {state left : σ}

/-- Whatever executes this machine leaves it as it is and asks no console. -/
structure Inert (machine : Machine) : Prop where
  step : ∀ {σ : Type} (console : Console σ) (state : σ),
    (step machine).converse console state = ((.ok .halted, machine), state) ∧
      (step machine).calls console state = []
  run : ∀ {σ : Type} (console : Console σ) (state : σ) (limit : Option UInt64),
    (run (machine.withLimit limit)).converse console state =
        ((.ok ⟨0, .halted⟩, machine.withLimit limit), state) ∧
      (run (machine.withLimit limit)).calls console state = []

theorem inert_of_halted (hhalted : machine.status = .halted) : machine.Inert where
  step console state := by
    rw [step_halted hhalted]
    exact ⟨rfl, rfl⟩
  run console state limit := by
    have hlimited : (machine.withLimit limit).status = .halted := hhalted
    exact ⟨runFor_halted hlimited console _ _ 0 state,
      calls_runFor_halted hlimited console _ _ 0 state⟩

/-- The halt service halts the machine exactly where the console takes the banner. -/
theorem halted_iff_unfailed (hrequests : machine.Requests .halt) (console : Console σ)
    (state : σ) :
    ((step machine).converse console state).1.2.status = .halted ↔
      ∀ call ∈ (step machine).calls console state, ¬ call.Fails := by
  have hreported := step_reported console machine state
  rcases hstep : (step machine).converse console state with ⟨⟨fault | result, after⟩, left⟩
  · rw [hstep] at hreported
    have hrunning : after.status = .running :=
      (frame_eq_iff.mp (withdrawn_of_step hstep).2.frame).1.trans hrequests.running
    have haccepted : Effect.refusal?
        (Instruction.decode (machine.memory.peek machine.registers.pc))
        (machine.memory.peek machine.registers.pc) = none := by
      rw [hrequests.decodes, Effect.refusal?_service]
    have hkind := (accepted_step_plain hrequests.running hrequests.plain haccepted).converse
      console state
    rw [hstep] at hkind
    obtain ⟨failure, hcause⟩ := Fault.Cause.exists_failure (hkind fault rfl)
    obtain ⟨request, hmem⟩ := (hreported.console_iff failure).mp ⟨fault, rfl, hcause⟩
    rw [hrunning]
    refine iff_of_false nofun fun hunfailed => ?_
    exact hunfailed _ hmem (Call.fails_error request failure)
  · rw [hstep] at hreported
    obtain ⟨word, hretires⟩ := retires_of_step hrequests.running hstep
    obtain rfl := hretires.fetches.unique (fetches_plain hrequests.running hrequests.plain)
    exact iff_of_true (hretires.halted_iff.mpr hrequests.decodes) hreported.unfailed_of_ok

theorem runFor_steps {spent : Ending} {budget offset : Nat} {summary : RunSummary}
    (hrun : (runFor spent budget offset machine).converse console state =
      ((.ok summary, after), left)) :
    summary.steps = offset + (retirements console budget machine state).length := by
  induction budget generalizing offset machine state with
  | zero =>
      cases hstatus : machine.status with
      | running =>
          rw [runFor_zero hstatus] at hrun
          cases hrun
          rfl
      | halted =>
          rw [runFor_halted hstatus] at hrun
          cases hrun
          rfl
  | succ budget ih =>
      cases hstatus : machine.status with
      | running =>
          rw [runFor_succ hstatus] at hrun
          rcases hround : (round machine).converse console state with
            ⟨⟨fault | result, next⟩, between⟩
          · rw [hround] at hrun
            cases hrun
          · rw [hround] at hrun
            have hstep := step_of_round hround
            obtain ⟨word, hretires⟩ := retires_of_step hstatus hstep
            rw [ih hrun, retirements_succ hround, hretires.retirement? hstep, List.length_append,
              Option.toList_some, List.length_singleton, Nat.add_assoc]
      | halted =>
          rw [runFor_halted hstatus] at hrun
          rw [retirements_halted hstatus]
          cases hrun
          rfl

end

end Machine

namespace Chronicle

theorem perform_fault {σ : Type} {console : Console σ} {state left : σ} {chronicle : Chronicle}
    {fault : Fault} {after : Machine}
    (hfault : (Machine.step chronicle.machine).converse console state =
      ((.error fault, after), left)) :
    chronicle.perform (.step console state) = ⟨after, chronicle.retired⟩ := by
  rw [perform, hfault, Machine.retirement?_fault hfault, Option.toList_none, List.append_nil]

theorem idles_perform {chronicle : Chronicle} (hhalted : chronicle.machine.status = .halted)
    {operation : Operation} (hkept : operation ≠ .reset) :
    chronicle.Idles (chronicle.perform operation) := by
  have hinert := Machine.inert_of_halted hhalted
  cases operation with
  | step console state =>
      rw [perform, (hinert.step console state).1, Machine.retirement?_halted hhalted]
      exact ⟨rfl, rfl, rfl, List.append_nil _⟩
  | run console state =>
      rw [perform, Machine.retirements_halted hhalted, Machine.run_eq_runFor,
        Machine.runFor_halted hhalted]
      exact ⟨rfl, rfl, rfl, List.append_nil _⟩
  | configure change => exact ⟨rfl, rfl, rfl, rfl⟩
  | load | loadFile => exact idles_loading _ _
  | reset => exact absurd rfl hkept

theorem idles_performAll {chronicle : Chronicle} (hhalted : chronicle.machine.status = .halted)
    {operations : List Operation} (hkept : Operation.reset ∉ operations) :
    chronicle.Idles (chronicle.performAll operations) := by
  induction operations generalizing chronicle with
  | nil => exact ⟨rfl, rfl, rfl, rfl⟩
  | cons operation operations ih =>
      obtain ⟨hfirst, hrest⟩ := List.ne_and_not_mem_of_not_mem_cons hkept
      have hidles := idles_perform hhalted hfirst.symm
      exact hidles.trans (ih (hidles.status.trans hhalted) hrest)

structure LifeCycle (chronicle : Chronicle) : Prop where
  halted_iff : chronicle.machine.status = .halted ↔ Retirement.Halted chronicle.retired
  count : chronicle.machine.retired = UInt64.ofNat chronicle.retired.length
  inert : chronicle.machine.status = .halted → ∀ later, Operation.reset ∉ later →
    chronicle.Idles (chronicle.performAll later) ∧ (chronicle.performAll later).machine.Inert
  reset : chronicle.perform .reset =
    ofMachine { Machine.ofConfig chronicle.machine.config with memory := chronicle.machine.memory }
  retires : ∀ {σ : Type} (console : Console σ) (state left : σ) (result : StepResult)
    (after : Machine), chronicle.machine.status = .running →
    (Machine.step chronicle.machine).converse console state = ((.ok result, after), left) →
      ∃ word, Machine.Fetches console chronicle.machine state word ∧
        Machine.retirement? console chronicle.machine state =
          some ⟨Instruction.decode word, after.registers⟩ ∧
        after.retired = chronicle.machine.retired + 1
  faults : ∀ {σ : Type} (console : Console σ) (state left : σ) (fault : Fault) (after : Machine),
    (Machine.step chronicle.machine).converse console state = ((.error fault, after), left) →
      Machine.retirement? console chronicle.machine state = none ∧
        after.status = .running ∧ after.retired = chronicle.machine.retired
  halts : ∀ {σ : Type} (console : Console σ) (state : σ), chronicle.machine.Requests .halt →
    (((Machine.step chronicle.machine).converse console state).1.2.status = .halted ↔
      ∀ call ∈ (Machine.step chronicle.machine).calls console state, ¬ call.Fails)
  steps : ∀ {σ : Type} (console : Console σ) (state left : σ) (summary : RunSummary)
    (after : Machine),
    (Machine.run chronicle.machine).converse console state = ((.ok summary, after), left) →
      summary.steps = (Machine.retirements console chronicle.machine.config.budget
        chronicle.machine state).length

theorem Consistent.lifeCycle {chronicle : Chronicle} (hconsistent : chronicle.Consistent) :
    chronicle.LifeCycle where
  halted_iff := hconsistent.halted_iff
  count := hconsistent.count
  inert hhalted later hkept := by
    have hidles := idles_performAll hhalted hkept
    exact ⟨hidles, Machine.inert_of_halted (hidles.status.trans hhalted)⟩
  reset := rfl
  retires _ _ _ _ _ hrunning hstep := by
    obtain ⟨word, hretires⟩ := Machine.retires_of_step hrunning hstep
    exact ⟨word, hretires.fetches, hretires.retirement? hstep, hretires.retired⟩
  faults _ _ _ _ _ hfault := by
    obtain ⟨hrunning, hwithdrawn⟩ := Machine.withdrawn_of_step hfault
    obtain ⟨hstatus, _, hretired⟩ := Machine.frame_eq_iff.mp hwithdrawn.frame
    exact ⟨Machine.retirement?_fault hfault, hstatus.trans hrunning, hretired⟩
  halts console state hrequests := Machine.halted_iff_unfailed hrequests console state
  steps _ _ _ _ _ hrun := (Machine.runFor_steps hrun).trans (Nat.zero_add _)

/-- Whatever a host has done to a machine, it has halted if the halt service has retired since
the last reset, its counter counts what has retired since then, and a halt lasts until the
next reset. -/
theorem life_cycle (config : Config) (operations : List Operation) :
    ((ofMachine (Machine.ofConfig config)).performAll operations).LifeCycle :=
  ((consistent_reset (Machine.ofConfig config)).performAll operations).lifeCycle

/-! A halt that is tried twice -/

namespace RetriedHalt

def loaded : Machine :=
  .holding {} [0xF025]

def halted : Machine :=
  { loaded.serving with status := .halted, retired := loaded.retired + 1 }

def load : Operation :=
  .load [.bytes [0x30, 0x00, 0xF0, 0x25]]

def fail : Operation :=
  .step Script.console.failing ⟨{ input := [] }, [⟨.flush, 0, .closed⟩]⟩

def retry : Operation :=
  .step Script.console { input := [] }

theorem requests_loaded : loaded.Requests .halt :=
  Machine.requests_holding (by decide)

theorem perform_load : (ofMachine (Machine.ofConfig {})).perform load = ofMachine loaded := rfl

theorem perform_fail : (ofMachine loaded).perform fail = ofMachine loaded := by
  have hfault : (Machine.step loaded).converse Script.console.failing
      ⟨{ input := [] }, [⟨.flush, 0, .closed⟩]⟩ =
        ((.error ⟨0x3000, .console .closed⟩, loaded),
          ⟨{ input := [], output := TrapService.banner.toUTF8.data }, []⟩) := by
    rw [Machine.step_requested requests_loaded]
    rfl
  exact perform_fault hfault

theorem machine_perform_retry : ((ofMachine loaded).perform retry).machine = halted := by
  have hhalt : (Machine.step loaded).converse Script.console { input := [] } =
      ((.ok .halted, halted),
        { input := [], output := TrapService.banner.toUTF8.data, flushes := 1 }) := by
    rw [Machine.step_requested requests_loaded]
    rfl
  exact machine_perform_step hhalt

def failed : Chronicle :=
  ofMachine loaded

def retried : Chronicle :=
  failed.perform retry

theorem performAll_load_fail :
    (ofMachine (Machine.ofConfig {})).performAll [load, fail] = failed := by
  rw [performAll, List.foldl_cons, List.foldl_cons, List.foldl_nil, perform_load, perform_fail,
    failed]

theorem performAll_load_fail_retry :
    (ofMachine (Machine.ofConfig {})).performAll [load, fail, retry] = retried := by
  rw [performAll, List.foldl_cons, List.foldl_cons, List.foldl_cons, List.foldl_nil, perform_load,
    perform_fail, retried, failed]

theorem status_retried : retried.machine.status = .halted := by
  rw [retried, failed, machine_perform_retry]
  rfl

theorem retired_retried : retried.machine.retired = 1 := by
  rw [retried, failed, machine_perform_retry]
  rfl

end RetriedHalt

/-- A halt whose banner cannot be flushed is no halt. It halts when it is tried again, and an
interrupt that comes then stays pending. -/
theorem halt_retried :
    ∃ failed halted : Chronicle,
      failed = (ofMachine (Machine.ofConfig {})).performAll
        [.load [.bytes [0x30, 0x00, 0xF0, 0x25]],
          .step Script.console.failing ⟨{ input := [] }, [⟨.flush, 0, .closed⟩]⟩] ∧
      failed.machine.status = .running ∧ failed.machine.retired = 0 ∧ failed.retired = [] ∧
      halted = failed.perform (.step Script.console { input := [] }) ∧
      halted.machine.retired = 1 ∧ Retirement.Halted halted.retired ∧
      ∀ limit,
        (Machine.run (halted.machine.withLimit limit)).converse Script.console
            { input := [], interruptPending := true } =
          ((.ok ⟨0, .halted⟩, halted.machine.withLimit limit),
            { input := [], interruptPending := true }) := by
  have hlife := life_cycle {} [RetriedHalt.load, RetriedHalt.fail, RetriedHalt.retry]
  rw [RetriedHalt.performAll_load_fail_retry] at hlife
  have hhalts := hlife.halted_iff.mp RetriedHalt.status_retried
  obtain ⟨_, hinert⟩ := hlife.inert RetriedHalt.status_retried [] nofun
  exact ⟨RetriedHalt.failed, RetriedHalt.retried, RetriedHalt.performAll_load_fail.symm, rfl, rfl,
    rfl, rfl, RetriedHalt.retired_retried, hhalts,
    fun limit => (hinert.run Script.console _ limit).1⟩

end Chronicle

end LittleComputer

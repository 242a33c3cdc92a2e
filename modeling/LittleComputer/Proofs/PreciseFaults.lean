import LittleComputer.Proofs.IteratedStepping

namespace LittleComputer

/-! Faults are precise -/

namespace Machine

variable {σ : Type}

theorem withdrawn_of_round {console : Console σ} {machine final : Machine} {state left : σ}
    {fault : Fault}
    (hround : (round machine).converse console state = ((.error fault, final), left)) :
    Withdrawn machine final fault := by
  have houtcome := (round_outcome machine).converse console state
  rw [hround] at houtcome
  exact houtcome

theorem run_fault {console : Console σ} {machine final : Machine} {state left : σ}
    {fault : Fault}
    (hrun : (run machine).converse console state = ((.error fault, final), left)) :
    ∃ steps reached between,
      RoundsReach console machine state steps reached between ∧
        StaysRunning console machine state (steps + 1) ∧
        (round reached).converse console between = ((.error fault, final), left) := by
  obtain ⟨steps, _, hunstopped, reached, between, hreaches, hround⟩ :=
    loop_faults_iff.mp ((run_eq_iff_loop console machine state _).mp hrun)
  exact ⟨steps, reached, between, hreaches, hunstopped.staysRunning, hround⟩

/-- A fault leaves the registers and the frame of the machine as they were before the
instruction, and names its address. After a faulting run they are those that the completed
instructions of the run have left. -/
theorem fault_withdraws_instruction (console : Console σ) (machine : Machine) (state : σ) :
    (∀ fault final left,
      (step machine).converse console state = ((.error fault, final), left) →
        final.registers = machine.registers ∧ final.status = machine.status ∧
          final.config = machine.config ∧ final.retired = machine.retired ∧
          fault.pc = machine.registers.pc) ∧
    (∀ fault final left,
      (run machine).converse console state = ((.error fault, final), left) →
        ∃ steps reached between,
          RoundsReach console machine state steps reached between ∧
          StaysRunning console machine state (steps + 1) ∧
          (round reached).converse console between = ((.error fault, final), left) ∧
          final.registers = reached.registers ∧ final.status = reached.status ∧
          final.status = .running ∧ final.config = machine.config ∧
          final.retired = machine.retired + UInt64.ofNat steps ∧
          fault.pc = final.registers.pc) := by
  constructor
  · intro fault final left hstep
    obtain ⟨_, hregisters, hframe, hpc⟩ := withdrawn_of_step hstep
    obtain ⟨hstatus, hconfig, hretired⟩ := frame_eq_iff.mp hframe
    exact ⟨hregisters, hstatus, hconfig, hretired, hpc⟩
  · intro fault final left hrun
    obtain ⟨steps, reached, between, hreaches, hrunning, hround⟩ := run_fault hrun
    obtain ⟨hregisters, hframe, hpc⟩ := withdrawn_of_round hround
    obtain ⟨hstatus, hconfig, hretired⟩ := frame_eq_iff.mp hframe
    have hreached : reached.status = .running :=
      hrunning steps (Nat.lt_succ_self steps) reached between hreaches
    have hcount : reached.retired = machine.retired + UInt64.ofNat steps :=
      hreaches.retired fun fewer hfewer => hrunning fewer (Nat.lt_succ_of_lt hfewer)
    refine ⟨steps, reached, between, hreaches, hrunning, hround, hregisters, hstatus,
      hstatus.trans hreached, hconfig.trans hreaches.config, hretired.trans hcount, ?_⟩
    rw [hpc, hregisters]

theorem step_getc_fails {console : Console σ} {machine : Machine} {state after : σ}
    {error : ConsoleFailure} (hrunning : machine.status = .running)
    (hplain : machine.registers.pc ≠ DeviceCell.keyboardStatus.address)
    (hword : machine.memory.peek machine.registers.pc = 0xF020)
    (hread : console.answer .read state = (.error error, after)) :
    (step machine).converse console state =
      ((.error ⟨machine.registers.pc, .console error⟩, machine), after) := by
  have hservice : TrapService.ofVector? 0x20 = some .getc :=
    TrapService.ofVector?_vector .getc
  have hdecode : Instruction.decode 0xF020 = .trap 0x20 := by decide
  rw [step_plain hrunning hplain hword, hdecode, Effect.execute, Effect.trap, hservice]
  simp only [Effect.service, Effect.changeRegisters, Effect.ask, Action.bind_apply,
    Action.update_apply, Action.mapError_apply, Action.ask_apply, Dialogue.bind_done,
    Dialogue.bind_ask, Dialogue.converse_note, Dialogue.converse_ask, hread]
  rfl

theorem getc_withdrawn_after_addition :
    ∃ fault next final steps reached between,
      (step next).converse Script.console { input := [] } =
        ((.error fault, final), { input := [] }) ∧
      final.registers = next.registers ∧
      (run (holding {} [0x1021, 0xF020])).converse Script.console { input := [] } =
        ((.error fault, final), { input := [] }) ∧
      RoundsReach Script.console (holding {} [0x1021, 0xF020]) { input := [] } steps reached
        between ∧
      final.registers = reached.registers ∧ final.retired = 0 + UInt64.ofNat steps := by
  let machine := holding {} [0x1021, 0xF020]
  have hadd : machine.memory.peek 0x3000 = 0x1021 := by
    simp [machine, holding, ofConfig, Memory.writeWords, Region.first, Memory.peek_write]
  have hgetc : machine.memory.peek 0x3001 = 0xF020 := by
    simp [machine, holding, ofConfig, Memory.writeWords, Region.first]
  have hdecode : Instruction.decode 0x1021 = .add .r0 .r0 (.immediate 1) := by decide
  let next : Machine :=
    { machine with
      registers := machine.registers.advance.writeResult .r0 1
      retired := 1 }
  have hfirst : (round machine).converse Script.console { input := [] } =
      ((.ok .completed, next), { input := [] }) := by
    rw [converse_round rfl, step_retire rfl (by decide) hadd (by rw [hdecode]; rfl)]
    rfl
  have hstep : (step next).converse Script.console { input := [] } =
      ((.error ⟨0x3001, .console .closed⟩, next), { input := [] }) :=
    step_getc_fails rfl (by decide) hgetc rfl
  have hrun : (run machine).converse Script.console { input := [] } =
      ((.error ⟨0x3001, .console .closed⟩, next), { input := [] }) := by
    rw [run_eq_runFor, show machine.config.budget = UInt64.size - 2 + 2 from rfl,
      runFor_succ rfl, hfirst]
    simp only
    rw [runFor_succ rfl, converse_round rfl, hstep]
  obtain ⟨hregisters, _⟩ :=
    (fault_withdraws_instruction Script.console next { input := [] }).1 _ _ _ hstep
  obtain ⟨steps, reached, between, hreaches, _, _, hreached, _, _, _, hretired, _⟩ :=
    (fault_withdraws_instruction Script.console machine { input := [] }).2 _ _ _ hrun
  exact ⟨_, next, next, steps, reached, between, hstep, hregisters, hrun, hreaches, hreached,
    hretired⟩

end Machine

end LittleComputer

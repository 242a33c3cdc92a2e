import LittleComputer.Proofs.Frame

namespace LittleComputer

/-! What a step does to the registers and the frame of a machine -/

namespace Machine

/-- A faulting step undoes the instruction in all but the memory. -/
structure Withdrawn (before after : Machine) (fault : Fault) : Prop where
  registers : after.registers = before.registers
  frame : after.frame = before.frame
  pc : fault.pc = before.registers.pc

structure Retired (before after : Machine) (result : StepResult) : Prop where
  config : after.config = before.config
  retired : after.retired = before.retired + 1
  running_iff : after.status = .running ↔ result = .completed

theorem retire_retired {before after : Machine} (result : StepResult)
    (hrunning : before.status = .running) (hframe : after.frame = before.frame) :
    Retired before (after.retire result) result := by
  obtain ⟨hstatus, hconfig, hretired⟩ := frame_eq_iff.mp hframe
  cases result with
  | completed =>
      refine ⟨hconfig, congrArg (· + 1) hretired, ?_⟩
      simp [retire, hstatus, hrunning]
  | halted =>
      refine ⟨hconfig, congrArg (· + 1) hretired, ?_⟩
      simp [retire]

theorem step_outcome : step.Ensures fun before _ result after =>
    match result with
    | .ok result =>
        (before.status = .running ∧ Retired before after result) ∨
          (before.status = .halted ∧ result = .halted ∧ after = before)
    | .error fault => before.status = .running ∧ Withdrawn before after fault := by
  intro before
  cases hstatus : before.status with
  | running =>
      rw [step_running hstatus, Dialogue.ensures_bind]
      apply (cycle_preserves_frame before).mono
      intro moments outcome hframe
      rcases outcome with ⟨result | result, after⟩
      · exact ⟨hstatus, rfl, hframe, rfl⟩
      · exact .inl ⟨hstatus, retire_retired result hstatus hframe⟩
  | halted =>
      rw [step_halted hstatus]
      exact .inr ⟨hstatus, rfl, rfl⟩

theorem withdrawn_of_step {σ : Type} {console : Console σ} {machine final : Machine}
    {state left : σ} {fault : Fault}
    (hstep : (step machine).converse console state = ((.error fault, final), left)) :
    machine.status = .running ∧ Withdrawn machine final fault := by
  have houtcome := (step_outcome machine).converse console state
  rw [hstep] at houtcome
  exact houtcome

theorem step_quietHalt {σ : Type} {machine : Machine} (hrunning : machine.status = .running)
    (hplain : machine.registers.pc ≠ DeviceCell.keyboardStatus.address)
    (hword : machine.memory.peek machine.registers.pc = 0xF025)
    (hquiet : machine.config.banner = false) (console : Console σ) (state : σ) :
    (step machine).converse console state =
      ((.ok .halted,
        { machine with
          registers := machine.registers.advance.write .link machine.registers.advance.pc
          status := .halted
          retired := machine.retired + 1 }), state) := by
  have hservice : TrapService.ofVector? 0x25 = some .halt :=
    TrapService.ofVector?_vector .halt
  have hdecode : Instruction.decode 0xF025 = .trap 0x25 := by decide
  rw [step_plain hrunning hplain hword, hdecode, Effect.execute, Effect.trap, hservice]
  simp [Effect.service, Effect.changeRegisters, mapRegisters, hquiet, settle, retire]

end Machine

end LittleComputer

import LittleComputer.Console.Failing
import LittleComputer.Console.Scripted
import LittleComputer.Proofs.Step

namespace LittleComputer

/-! The memory after a fault -/

namespace Effect

variable {α β : Type}

def FailsCleanly (effect : Effect α) : Prop :=
  effect.Ensures fun before _ result after =>
    ∀ cause, result = .error cause → after.memory = before.memory

def Succeeds (effect : Effect α) : Prop :=
  effect.Ensures fun _ _ result _ => ∃ value, result = .ok value

theorem Succeeds.failsCleanly {effect : Effect α} (hsucceeds : Succeeds effect) :
    FailsCleanly effect :=
  Action.Ensures.mono hsucceeds fun _ _ _ _ hvalue cause hresult => by
    obtain ⟨value, hok⟩ := hvalue
    rw [hok] at hresult
    cases hresult

theorem failsCleanly_of_preserves {effect : Effect α}
    (hpreserves : Action.Preserves Machine.memory effect) : FailsCleanly effect :=
  Action.Ensures.mono hpreserves fun _ _ _ _ hmemory _ _ => hmemory

theorem succeeds_retire (change : RegisterFile → RegisterFile) : Succeeds (retire change) :=
  fun _ => ⟨_, rfl⟩

theorem succeeds_store (address value : Word) :
    Succeeds (do store address value; return StepResult.completed) :=
  fun _ => ⟨_, rfl⟩

theorem succeeds_load_plain {address : Word}
    (hplain : address ≠ DeviceCell.keyboardStatus.address) {after : Word → Effect β}
    (hafter : ∀ value, Succeeds (after value)) : Succeeds (load address >>= after) := by
  intro machine
  rw [Action.bind_apply, load_plain hplain]
  exact hafter _ machine

/-- Only a poll that gives an answer changes memory, and then one of two words is read. -/
theorem failsCleanly_load {address : Word} {after : Word → Effect β}
    (hafter : ∀ word, FailsCleanly (after word))
    (hidle : Succeeds (after 0)) (hready : Succeeds (after Memory.keyReady)) :
    FailsCleanly (load address >>= after) := by
  intro machine
  rw [Action.bind_apply]
  by_cases hstatus : address = DeviceCell.keyboardStatus.address
  · subst hstatus
    rw [load_status]
    intro answer
    rcases answer with error | _ | key
    · exact fun _ _ => rfl
    · exact (hidle _).mono fun _ _ ⟨value, hok⟩ cause hresult =>
        nomatch hok.symm.trans hresult
    · exact (hready _).mono fun _ _ ⟨value, hok⟩ cause hresult =>
        nomatch hok.symm.trans hresult
  · rw [load_plain hstatus]
    exact hafter _ machine

theorem execute_failsCleanly (instruction : Instruction) (word : Word) :
    FailsCleanly (execute instruction word) := by
  cases instruction with
  | br | add | and | not | lea | jmp | jsr | jsrr => exact (succeeds_retire _).failsCleanly
  | ld | ldr =>
      intro machine
      exact failsCleanly_load (fun _ => (succeeds_retire _).failsCleanly) (succeeds_retire _)
        (succeeds_retire _) machine
  | ldi =>
      intro machine
      refine failsCleanly_load (fun pointer => ?_) ?_ ?_ machine
      · exact failsCleanly_load (fun _ => (succeeds_retire _).failsCleanly) (succeeds_retire _)
          (succeeds_retire _)
      · exact succeeds_load_plain (by decide) fun _ => succeeds_retire _
      · exact succeeds_load_plain (by decide) fun _ => succeeds_retire _
  | st | str => exact Succeeds.failsCleanly fun _ => ⟨_, rfl⟩
  | sti =>
      intro machine
      exact failsCleanly_load (fun pointer => (succeeds_store pointer _).failsCleanly)
        (succeeds_store _ _) (succeeds_store _ _) machine
  | trap vector => exact failsCleanly_of_preserves (trap_preserves (fun _ _ => rfl) vector)
  | rti | reserved => exact fun _ _ _ => rfl

end Effect

namespace Machine

variable {σ : Type}

theorem memory_of_fault_plain {console : Console σ} {machine final : Machine} {state left : σ}
    {fault : Fault} (hplain : machine.registers.pc ≠ DeviceCell.keyboardStatus.address)
    (hfault : (step machine).converse console state = ((.error fault, final), left)) :
    final.memory = machine.memory := by
  have hkept : (step machine).Ensures fun _ outcome =>
      ∀ fault, outcome.1 = .error fault → outcome.2.memory = machine.memory := by
    rw [step_plain (withdrawn_of_step hfault).1 hplain rfl, Dialogue.ensures_note,
      Dialogue.ensures_bind]
    apply (Effect.execute_failsCleanly _ _ _).mono
    intro moments outcome hclean
    rcases outcome with ⟨cause | result, after⟩
    · exact fun _ _ => hclean cause rfl
    · exact fun _ hresult => nomatch hresult
  have hfinal := hkept.converse console state
  rw [hfault] at hfinal
  exact hfinal fault rfl

/-- A faulting instruction leaves the memory alone, unless it was fetched from the keyboard
status while a key was waiting. Then the key is latched, and the status word read is
illegal as an instruction. -/
theorem memory_of_fault (console : Console σ) (machine final : Machine) (state left : σ)
    (fault : Fault)
    (hfault : (step machine).converse console state = ((.error fault, final), left)) :
    (¬ (machine.registers.pc = DeviceCell.keyboardStatus.address ∧
        ∃ key, (console.answer .poll state).1 = .ok (some key)) →
      ∀ address, final.memory.peek address = machine.memory.peek address) ∧
    (∀ key, machine.registers.pc = DeviceCell.keyboardStatus.address →
      (console.answer .poll state).1 = .ok (some key) →
        fault = ⟨0xFE00, .illegal .rti 0x8000⟩ ∧
        final.memory.peek 0xFE00 = 0x8000 ∧ final.memory.peek 0xFE02 = key.toUInt16 ∧
        ∀ address, address ≠ 0xFE00 → address ≠ 0xFE02 →
          final.memory.peek address = machine.memory.peek address) := by
  obtain ⟨hrunning, _⟩ := withdrawn_of_step hfault
  constructor
  · intro hquiet address
    by_cases hstatus : machine.registers.pc = DeviceCell.keyboardStatus.address
    · rw [converse_step_status hrunning hstatus] at hfault
      rcases hanswer : console.answer .poll state with ⟨error | _ | key, after⟩
      · rw [hanswer] at hfault
        cases hfault
        rfl
      · rw [hanswer] at hfault
        cases hfault
      · exact absurd ⟨hstatus, key, congrArg Prod.fst hanswer⟩ hquiet
    · rw [memory_of_fault_plain hstatus hfault]
  · intro key hstatus hpolled
    rw [converse_step_status hrunning hstatus] at hfault
    rcases hanswer : console.answer .poll state with ⟨answer, after⟩
    obtain rfl : answer = .ok (some key) := by
      rw [hanswer] at hpolled
      exact hpolled
    rw [hanswer] at hfault
    cases hfault
    refine ⟨by rw [hstatus]; rfl, Memory.peek_latchKey_status _ key,
      Memory.peek_latchKey_data _ key, fun address hnotStatus hnotData => ?_⟩
    exact Memory.peek_latchKey_of_ne machine.memory key hnotStatus hnotData

theorem memory_of_status_fetch :
    (∃ final : Machine, final.memory.peek 0xFE00 = 0x8000 ∧
      final.memory.peek 0xFE02 = (0x61 : Byte).toUInt16 ∧
      (step (ofConfig { entry := 0xFE00 })).converse Script.console { input := [0x61] } =
        ((.error ⟨0xFE00, .illegal .rti 0x8000⟩, final), { input := [] })) ∧
    (∃ final : Machine,
      (∀ address,
        final.memory.peek address = (ofConfig { entry := 0xFE00 }).memory.peek address) ∧
      (step (ofConfig { entry := 0xFE00 })).converse Script.console.failing
          ⟨{ input := [0x61] }, [⟨.poll, 0, .closed⟩]⟩ =
        ((.error ⟨0xFE00, .console .closed⟩, final), ⟨{ input := [0x61] }, []⟩)) := by
  have hrunning : (ofConfig { entry := 0xFE00 }).status = .running := rfl
  constructor
  · have hfault := converse_step_status hrunning rfl Script.console { input := [0x61] }
    obtain ⟨_, hlatched⟩ := memory_of_fault Script.console _ _ _ _ _ hfault
    obtain ⟨_, hstatus, hdata, _⟩ := hlatched 0x61 rfl rfl
    exact ⟨_, hstatus, hdata, hfault⟩
  · have hfault := converse_step_status hrunning rfl Script.console.failing
      ⟨{ input := [0x61] }, [⟨.poll, 0, .closed⟩]⟩
    obtain ⟨hkept, _⟩ := memory_of_fault Script.console.failing _ _ _ _ _ hfault
    have hunlatched := hkept fun ⟨_, _, hanswer⟩ => nomatch hanswer
    exact ⟨_, hunlatched, hfault⟩

theorem fault_may_change_memory :
    ¬ ∀ (machine final : Machine) (script left : Script) (fault : Fault),
      (step machine).converse Script.console script = ((.error fault, final), left) →
        ∀ address, final.memory.peek address = machine.memory.peek address := by
  intro hunchanged
  have hrunning : (ofConfig { entry := 0xFE00 }).status = .running := rfl
  have hfault := converse_step_status hrunning rfl Script.console { input := [0x61] }
  have hstatus := hunchanged _ _ _ _ _ hfault DeviceCell.keyboardStatus.address
  rw [Memory.peek_latchKey_status] at hstatus
  simp [ofConfig, Memory.keyReady] at hstatus

end Machine

end LittleComputer

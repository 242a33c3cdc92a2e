import LittleComputer.Console.Scripted
import LittleComputer.Proofs.FaultMemory
import LittleComputer.Proofs.ServiceCalls

namespace LittleComputer

/-! The cells that a step changes -/

def Opcode.sparesMemory : Opcode → Bool
  | ld | ldi | ldr | st | sti | str => false
  | _ => true

namespace Memory

variable {ε : Type} {memory after : Memory} {stores : Word → Word → Prop}
  {fault : ConsoleFailure → ε} {calls : List Call} {result : Except ε StepResult}
  {address : Word}

def Refreshes (found : Option Byte) (address : Word) : Prop :=
  address = DeviceCell.keyboardStatus.address ∨
    address = DeviceCell.keyboardData.address ∧ ∃ key, found = some key

theorem refreshes_of_changed {found : Option Byte}
    (hchanged : (memory.refreshed found).peek address ≠ memory.peek address) :
    Refreshes found address := by
  by_cases hstatus : address = DeviceCell.keyboardStatus.address
  · exact .inl hstatus
  · cases found with
    | none => exact absurd (peek_write_of_ne memory 0 hstatus) hchanged
    | some key =>
        refine .inr ⟨Decidable.byContradiction fun hdata => hchanged ?_, key, rfl⟩
        exact peek_latchKey_of_ne memory key hstatus hdata

theorem Polls.changed (hpolls : memory.Polls calls after)
    (hchanged : after.peek address ≠ memory.peek address) :
    ∃ found, ⟨.poll, .ok found⟩ ∈ calls ∧ Refreshes found address := by
  cases hpolls with
  | unasked => exact absurd rfl hchanged
  | answered found => exact ⟨found, List.mem_singleton_self _, refreshes_of_changed hchanged⟩

theorem Footprint.changed (hfootprint : memory.Footprint stores fault calls result after)
    (hchanged : after.peek address ≠ memory.peek address) :
    (∃ value, stores address value ∧ result = .ok .completed ∧ after.peek address = value) ∨
      ∃ found, ⟨.poll, .ok found⟩ ∈ calls ∧ Refreshes found address := by
  cases hfootprint with
  | polled _ hpolls => exact .inr (hpolls.changed hchanged)
  | failed error => exact absurd rfl hchanged
  | @stored _ polled target value hpolls hstores _ =>
      by_cases htarget : address = target
      · subst htarget
        exact .inl ⟨value, hstores, rfl, peek_write_self polled address value⟩
      · rw [peek_write_of_ne _ _ htarget] at hchanged
        exact .inr (hpolls.changed hchanged)

end Memory

theorem Effect.converse_load_bind {σ α : Type} (address : Word) (after : Word → Effect α)
    (machine : Machine) (console : Console σ) (state : σ) :
    ((load address >>= after) machine).converse console state =
      match (Memory.read address machine.memory).converse console state with
      | ((.ok word, memory), left) =>
          (after word { machine with memory := memory }).converse console left
      | ((.error error, memory), left) =>
          ((.error (.console error), { machine with memory := memory }), left) := by
  rw [Action.bind_apply, Dialogue.converse_bind, load_eq, Dialogue.converse_bind]
  rcases (Memory.read address machine.memory).converse console state with
    ⟨⟨error | word, memory⟩, left⟩ <;> rfl

theorem Effect.execute_sti (source : Register) (offset word : Word) (machine : Machine) :
    execute (.sti source offset) word machine =
      (load (machine.registers.pcRelative offset) >>= fun pointer => do
        store pointer (machine.registers.read source)
        return .completed) machine := rfl

namespace Machine

variable {σ : Type}

/-- Where the instruction `word` stores and what, when this machine executes it. The pointer of
an indirect store is read as the instruction reads it. -/
inductive Targets (console : Console σ) (machine : Machine) (state : σ) (word : Word) :
    (address value : Word) → Prop
  | direct (hopcode : Opcode.ofWord word = .st) :
      Targets console machine state word (machine.registers.pc + 1 + word.offset9)
        (machine.registers.read (Register.ofField word 9))
  | based (hopcode : Opcode.ofWord word = .str) :
      Targets console machine state word
        (machine.registers.read (Register.ofField word 6) + word.offset6)
        (machine.registers.read (Register.ofField word 9))
  | indirect {pointer : Word} (hopcode : Opcode.ofWord word = .sti)
      (hpointer : ((Memory.read (machine.registers.pc + 1 + word.offset9)
        machine.memory).converse console state).1.1 = .ok pointer) :
      Targets console machine state word pointer
        (machine.registers.read (Register.ofField word 9))

structure RetiresStore (console : Console σ) (machine : Machine) (state : σ)
    (address value : Word) : Prop where
  running : machine.status = .running
  plain : machine.registers.pc ≠ DeviceCell.keyboardStatus.address
  completed : ((step machine).converse console state).1.1 = .ok .completed
  targets : Targets console machine state (machine.memory.peek machine.registers.pc) address value

variable {console : Console σ} {machine : Machine} {state : σ} {word address value : Word}

theorem targets_of_storing
    (hstoring : ((Effect.storing (Instruction.decode word)
      (machine.mapRegisters RegisterFile.advance)).converse console state).1.1 =
        .ok (some (address, value))) : Targets console machine state word address value := by
  cases hopcode : Opcode.ofWord word with
  | st =>
      rw [Instruction.decode, hopcode] at hstoring
      cases hstoring
      exact .direct hopcode
  | str =>
      rw [Instruction.decode, hopcode] at hstoring
      cases hstoring
      exact .based hopcode
  | sti =>
      have hdecode : Instruction.decode word =
          .sti (Register.ofField word 9) word.offset9 := by rw [Instruction.decode, hopcode]
      rw [hdecode, Effect.storing_indirect, Effect.converse_load_bind] at hstoring
      rcases hread : (Memory.read
        ((machine.mapRegisters RegisterFile.advance).registers.pcRelative word.offset9)
        (machine.mapRegisters RegisterFile.advance).memory).converse console state with
          ⟨⟨error | pointer, memory⟩, left⟩
      · rw [hread] at hstoring
        cases hstoring
      · rw [hread] at hstoring
        cases hstoring
        exact .indirect hopcode (congrArg (·.1.1) hread)
  | jsr =>
      rw [Instruction.decode, hopcode] at hstoring
      dsimp only at hstoring
      split at hstoring <;> cases hstoring
  | br | add | ld | and | ldr | rti | not | ldi | jmp | res | lea | trap =>
      rw [Instruction.decode, hopcode] at hstoring
      cases hstoring

theorem Stores.targets (hstores : Stores console machine state address value) :
    Targets console machine state (machine.memory.peek machine.registers.pc) address value := by
  have hplain := hstores.plain
  obtain ⟨_, hstored⟩ := hstores
  rw [Action.bind_apply, Effect.fetch_plain hplain] at hstored
  exact targets_of_storing hstored

theorem step_changed
    (hchanged : ((step machine).converse console state).1.2.memory.peek address ≠
      machine.memory.peek address) :
    (∃ value, RetiresStore console machine state address value ∧
        ((step machine).converse console state).1.2.memory.peek address = value) ∨
      ∃ found, ⟨.poll, .ok found⟩ ∈ (step machine).calls console state ∧
        Memory.Refreshes found address := by
  by_cases hservice : ∃ requested, machine.Requests requested
  · -- A trap service leaves the memory, however it ends.
    obtain ⟨requested, hrequests⟩ := hservice
    rw [(step_heard console hrequests state).2] at hchanged
    exact absurd rfl hchanged
  · obtain ⟨value, hstores, hcompleted, hvalue⟩ | hpolled :=
      (step_footprint console (not_exists.mp hservice) state).changed hchanged
    · exact .inl ⟨value, ⟨hstores.1, hstores.plain, hcompleted, hstores.targets⟩, hvalue⟩
    · exact .inr hpolled

theorem RetiresStore.stored (hretires : RetiresStore console machine state address value) :
    ((step machine).converse console state).1.2.memory.peek address = value := by
  obtain ⟨hrunning, hplain, _, htargets⟩ := hretires
  rw [step_plain hrunning hplain rfl]
  simp only [Dialogue.converse_note, Dialogue.converse_bind, Dialogue.converse_done,
    settle_memory]
  generalize machine.memory.peek machine.registers.pc = word at htargets
  cases htargets with
  | direct hopcode | based hopcode =>
      rw [Instruction.decode, hopcode]
      exact Memory.peek_write_self machine.memory _ _
  | indirect hopcode hpointer =>
      have hdecode : Instruction.decode word =
          .sti (Register.ofField word 9) word.offset9 := by rw [Instruction.decode, hopcode]
      rw [hdecode, Effect.execute_sti, Effect.converse_load_bind]
      rcases hread : (Memory.read
        ((machine.mapRegisters RegisterFile.advance).registers.pcRelative word.offset9)
        (machine.mapRegisters RegisterFile.advance).memory).converse console state with
          ⟨⟨result, memory⟩, left⟩
      obtain rfl : result = .ok address := (congrArg (·.1.1) hread).symm.trans hpointer
      exact Memory.peek_write_self memory _ _

end Machine

namespace Effect

theorem execute_preserves_memory {instruction : Instruction}
    (hspares : instruction.opcode.sparesMemory = true) (word : Word) :
    (execute instruction word).Preserves Machine.memory := by
  cases instruction with
  | br | add | and | not | lea | jmp | jsr | jsrr => exact fun _ => rfl
  | ld | ldi | ldr | st | sti | str => cases hspares
  | trap vector => exact trap_preserves (fun _ _ => rfl) vector
  | rti | reserved => exact .fail _

end Effect

namespace Machine

variable {σ : Type} {console : Console σ} {machine : Machine} {state : σ}

theorem memory_of_spares (hplain : machine.registers.pc ≠ DeviceCell.keyboardStatus.address)
    (hspares : (Opcode.ofWord (machine.memory.peek machine.registers.pc)).sparesMemory = true) :
    ((step machine).converse console state).1.2.memory = machine.memory := by
  cases hstatus : machine.status with
  | halted =>
      rw [step_halted hstatus]
      rfl
  | running =>
      rw [← Instruction.opcode_decode] at hspares
      rw [step_plain hstatus hplain rfl]
      simp only [Dialogue.converse_note, Dialogue.converse_bind, Dialogue.converse_done,
        settle_memory]
      exact (Effect.execute_preserves_memory hspares _ _).converse console state

structure ChangesCells (console : Console σ) (machine : Machine) (state : σ) : Prop where
  plain : ∀ address, address ≠ DeviceCell.keyboardStatus.address →
    address ≠ DeviceCell.keyboardData.address →
    ((step machine).converse console state).1.2.memory.peek address ≠
      machine.memory.peek address →
        ∃ value, RetiresStore console machine state address value
  status : ((step machine).converse console state).1.2.memory.peek
      DeviceCell.keyboardStatus.address ≠
        machine.memory.peek DeviceCell.keyboardStatus.address →
    (∃ value, RetiresStore console machine state DeviceCell.keyboardStatus.address value) ∨
      ∃ found, ⟨.poll, .ok found⟩ ∈ (step machine).calls console state
  data : ((step machine).converse console state).1.2.memory.peek
      DeviceCell.keyboardData.address ≠ machine.memory.peek DeviceCell.keyboardData.address →
    (∃ value, RetiresStore console machine state DeviceCell.keyboardData.address value) ∨
      ∃ key, ⟨.poll, .ok (some key)⟩ ∈ (step machine).calls console state
  stored : ∀ address value, RetiresStore console machine state address value →
    ((step machine).converse console state).1.2.memory.peek address = value
  spared : machine.registers.pc ≠ DeviceCell.keyboardStatus.address →
    (Opcode.ofWord (machine.memory.peek machine.registers.pc)).sparesMemory = true →
      ((step machine).converse console state).1.2.memory = machine.memory
  faulted : ∀ fault final left,
    (step machine).converse console state = ((.error fault, final), left) →
      final.memory ≠ machine.memory →
        machine.registers.pc = DeviceCell.keyboardStatus.address ∧
          fault = ⟨0xFE00, .illegal .rti 0x8000⟩ ∧
          ∃ key, (step machine).calls console state = [⟨.poll, .ok (some key)⟩]

/-- A step changes the cell that a retired store is for, which then holds what was stored, and
the keyboard cells when it polls. A fault changes memory only where a key that was just found
is fetched as an instruction. -/
theorem step_changes_cells (console : Console σ) (machine : Machine) (state : σ) :
    ChangesCells console machine state where
  plain address hstatus hdata hchanged := by
    obtain ⟨value, hretires, _⟩ | ⟨found, _, hrefreshes⟩ := step_changed hchanged
    · exact ⟨value, hretires⟩
    · exact absurd hrefreshes (not_or.mpr ⟨hstatus, fun h => hdata h.1⟩)
  status hchanged := by
    obtain ⟨value, hretires, _⟩ | ⟨found, hpoll, _⟩ := step_changed hchanged
    · exact .inl ⟨value, hretires⟩
    · exact .inr ⟨found, hpoll⟩
  data hchanged := by
    obtain ⟨value, hretires, _⟩ | ⟨found, hpoll, hstatus | ⟨_, key, rfl⟩⟩ := step_changed hchanged
    · exact .inl ⟨value, hretires⟩
    · exact absurd hstatus (by decide)
    · exact .inr ⟨key, hpoll⟩
  stored _ _ hretires := hretires.stored
  spared := memory_of_spares
  faulted fault final left hfault hchanged := by
    have hrunning := (withdrawn_of_step hfault).1
    by_cases hstatus : machine.registers.pc = DeviceCell.keyboardStatus.address
    · rw [converse_step_status hrunning hstatus] at hfault
      rw [calls_step_status hrunning hstatus]
      rcases hanswer : console.answer .poll state with ⟨error | _ | key, after⟩
      · rw [hanswer] at hfault
        cases hfault
        exact absurd rfl hchanged
      · rw [hanswer] at hfault
        cases hfault
      · rw [hanswer] at hfault
        cases hfault
        exact ⟨hstatus, by rw [hstatus]; rfl, key, rfl⟩
    · exact absurd (memory_of_fault_plain hstatus hfault) hchanged

theorem store_through_status :
    ∃ machine : Machine,
      RetiresStore Script.console machine { input := [0x61] } 0x8000 7 ∧
      ((step machine).converse Script.console { input := [0x61] }).1.2.memory.peek 0x8000 = 7 ∧
      machine.memory.peek 0x8000 = 0 ∧
      ⟨.poll, .ok (some 0x61)⟩ ∈ (step machine).calls Script.console { input := [0x61] } := by
  let machine : Machine :=
    { holding { entry := 0xFDFF } [0xB000] with
      registers := (RegisterFile.startingAt 0xFDFF).write .r0 7 }
  have hcells : machine.memory.peek 0xFDFF = 0xB000 ∧ machine.memory.peek 0x8000 = 0 := by
    simp [machine, holding, ofConfig, Memory.writeWords, Memory.peek_write]
  obtain ⟨hword, hempty⟩ := hcells
  have hdecode : Instruction.decode 0xB000 = .sti .r0 0 := by decide
  have hrunning : machine.status = .running := rfl
  have hplain : machine.registers.pc ≠ DeviceCell.keyboardStatus.address := by decide
  have hstatus : machine.registers.pc + 1 + Word.offset9 0xB000 =
      DeviceCell.keyboardStatus.address := by decide
  have hvalue : machine.registers.read (Register.ofField 0xB000 9) = 7 := by decide
  have hpointer : ((Memory.read (machine.registers.pc + 1 + Word.offset9 0xB000)
      machine.memory).converse Script.console { input := [0x61] }).1.1 = .ok 0x8000 := by
    rw [hstatus, Memory.read_status]
    rfl
  have htargets : Targets Script.console machine { input := [0x61] } 0xB000 0x8000 7 :=
    hvalue ▸ .indirect (by decide) hpointer
  have hretires : RetiresStore Script.console machine { input := [0x61] } 0x8000 7 := by
    refine ⟨hrunning, hplain, ?_, hword ▸ htargets⟩
    rw [step_plain hrunning hplain hword, hdecode]
    rfl
  refine ⟨machine, hretires, (step_changes_cells _ _ _).stored _ _ hretires, hempty, ?_⟩
  rw [step_plain hrunning hplain hword, hdecode]
  exact List.mem_singleton_self _

end Machine

end LittleComputer

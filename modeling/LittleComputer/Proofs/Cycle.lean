import LittleComputer.Machine.Run
import LittleComputer.Proofs.Transcript

namespace LittleComputer

/-! The instruction cycle, one request at a time

Reading any cell but the keyboard status asks nothing. An instruction fetched from the
keyboard status is one of two words, so such a cycle is known in full. -/

namespace Memory

@[simp] theorem peek_latchKey_status (memory : Memory) (key : Byte) :
    (memory.latchKey key).peek DeviceCell.keyboardStatus.address = keyReady := by
  rw [latchKey, peek_write_of_ne _ _ (by decide), peek_write_self]

@[simp] theorem peek_latchKey_data (memory : Memory) (key : Byte) :
    (memory.latchKey key).peek DeviceCell.keyboardData.address = key.toUInt16 := by
  rw [latchKey, peek_write_self]

theorem peek_latchKey_of_ne (memory : Memory) (key : Byte) {address : Word}
    (hstatus : address ≠ DeviceCell.keyboardStatus.address)
    (hdata : address ≠ DeviceCell.keyboardData.address) :
    (memory.latchKey key).peek address = memory.peek address := by
  rw [latchKey, peek_write_of_ne _ _ hdata, peek_write_of_ne _ _ hstatus]

theorem read_plain {address : Word} (hplain : address ≠ DeviceCell.keyboardStatus.address)
    (memory : Memory) :
    read address memory = .done (.ok (memory.peek address), memory) := by
  simp [read, hplain]

def statusAnswered (memory : Memory) :
    Except ConsoleFailure (Option Byte) → Dialogue (Except ConsoleFailure Word × Memory)
  | .ok (some key) => .note (.keyLatched key) (.done (.ok keyReady, memory.latchKey key))
  | .ok none => .done (.ok 0, memory.clearReady)
  | .error error => .done (.error error, memory)

theorem read_status (memory : Memory) :
    read DeviceCell.keyboardStatus.address memory = .ask .poll memory.statusAnswered := by
  simp only [read, if_pos, refreshKeyboard, Action.bind_apply, Action.ask_apply,
    Dialogue.bind_ask, Dialogue.bind_done]
  congr 1
  funext answer
  rcases answer with error | _ | key <;> simp [statusAnswered, clearReady]

end Memory

namespace Effect

theorem load_eq (address : Word) (machine : Machine) :
    load address machine = (Memory.read address machine.memory).bind fun outcome =>
      .done (outcome.1.mapError .console, { machine with memory := outcome.2 }) := by
  simp only [load, Action.mapError_apply, Machine.onMemory_apply, Dialogue.bind_assoc,
    Dialogue.bind_done]

theorem load_ok_iff {σ : Type} {console : Console σ} {machine : Machine} {state : σ}
    {address word : Word} :
    ((load address machine).converse console state).1.1 = .ok word ↔
      ((Memory.read address machine.memory).converse console state).1.1 = .ok word := by
  rw [load_eq, Dialogue.converse_bind]
  rcases (Memory.read address machine.memory).converse console state with
    ⟨⟨error | found, memory⟩, between⟩
  · exact iff_of_false nofun nofun
  · exact ⟨fun hload => by cases hload; rfl, fun hread => by cases hread; rfl⟩

theorem load_plain {address : Word} (hplain : address ≠ DeviceCell.keyboardStatus.address)
    (machine : Machine) :
    load address machine = .done (.ok (machine.memory.peek address), machine) := by
  rw [load_eq, Memory.read_plain hplain]
  rfl

def statusLoaded (machine : Machine) :
    Except ConsoleFailure (Option Byte) → Dialogue (Except Fault.Cause Word × Machine)
  | .ok (some key) =>
      .note (.keyLatched key)
        (.done (.ok Memory.keyReady, { machine with memory := machine.memory.latchKey key }))
  | .ok none => .done (.ok 0, { machine with memory := machine.memory.clearReady })
  | .error error => .done (.error (.console error), machine)

theorem load_status (machine : Machine) :
    load DeviceCell.keyboardStatus.address machine = .ask .poll (statusLoaded machine) := by
  rw [load_eq, Memory.read_status]
  simp only [Dialogue.bind_ask]
  congr 1
  funext answer
  rcases answer with error | _ | key <;> rfl

/-- What follows the fetch of `word` from `pc`. -/
def executeFetched (pc word : Word) : Effect StepResult := fun machine =>
  .note (.fetched pc word)
    (execute (Instruction.decode word) word (machine.mapRegisters RegisterFile.advance))

theorem cycle_eq (machine : Machine) :
    cycle machine =
      (load machine.registers.pc >>= executeFetched machine.registers.pc) machine := by
  simp only [cycle, fetch, registers, changeRegisters, Action.bind_apply,
    Action.inspect_apply, Dialogue.bind_assoc, Dialogue.bind_done]
  congr 1
  funext outcome
  rcases outcome with ⟨_ | word, loaded⟩ <;> rfl

theorem cycle_plain {machine : Machine}
    (hplain : machine.registers.pc ≠ DeviceCell.keyboardStatus.address) :
    cycle machine =
      .note (.fetched machine.registers.pc (machine.memory.peek machine.registers.pc))
        (execute (Instruction.decode (machine.memory.peek machine.registers.pc))
          (machine.memory.peek machine.registers.pc)
          (machine.mapRegisters RegisterFile.advance)) := by
  rw [cycle_eq, Action.bind_apply, load_plain hplain]
  rfl

theorem retire_apply (change : RegisterFile → RegisterFile) (machine : Machine) :
    retire change machine = .done (.ok .completed, machine.mapRegisters change) := rfl

theorem execute_emptyBranch (offset word : Word) (machine : Machine) :
    execute (.br 0 offset) word machine = .done (.ok .completed, machine) := by
  have hunselected : machine.registers.condition.selectedBy 0 = false := by
    cases machine.registers.condition <;> decide
  simp [execute, retire_apply, Machine.mapRegisters, hunselected]

theorem decode_keyReady : Instruction.decode Memory.keyReady = .rti := by decide

theorem decode_zero : Instruction.decode 0 = .br 0 0 := by decide

/-- A ready keyboard reads as an illegal instruction and an idle one as an instruction
that does nothing. -/
def statusExecuted (machine : Machine) :
    Except ConsoleFailure (Option Byte) → Dialogue (Except Fault.Cause StepResult × Machine)
  | .ok (some key) =>
      .note (.keyLatched key) (.note (.fetched machine.registers.pc Memory.keyReady)
        (.done (.error (.illegal .rti Memory.keyReady),
          { machine with
            memory := machine.memory.latchKey key
            registers := machine.registers.advance })))
  | .ok none =>
      .note (.fetched machine.registers.pc 0) (.done (.ok .completed,
        { machine with
          memory := machine.memory.clearReady
          registers := machine.registers.advance }))
  | .error error => .done (.error (.console error), machine)

theorem cycle_status {machine : Machine}
    (hstatus : machine.registers.pc = DeviceCell.keyboardStatus.address) :
    cycle machine = .ask .poll (statusExecuted machine) := by
  rw [cycle_eq, Action.bind_apply, hstatus, load_status, Dialogue.bind_ask]
  congr 1
  funext answer
  rcases answer with error | _ | key
  · rfl
  · simp only [statusLoaded, Dialogue.bind_done, executeFetched, decode_zero,
      execute_emptyBranch, statusExecuted, hstatus]
    rfl
  · simp only [statusLoaded, Dialogue.bind_note, Dialogue.bind_done, executeFetched,
      decode_keyReady, execute, statusExecuted, hstatus]
    rfl

end Effect

namespace Machine

def settle (before : RegisterFile) :
    Except Fault.Cause StepResult × Machine → Except Fault StepResult × Machine
  | (.ok result, machine) => (.ok result, machine.retire result)
  | (.error cause, machine) =>
      (.error ⟨before.pc, cause⟩, { machine with registers := before })

theorem isRunning_iff (machine : Machine) :
    machine.isRunning = true ↔ machine.status = .running := by
  simp [isRunning]

theorem step_running {machine : Machine} (hrunning : machine.status = .running) :
    step machine = (Effect.cycle machine).bind fun outcome =>
      .done (settle machine.registers outcome) := by
  rw [step, if_pos (machine.isRunning_iff.mpr hrunning)]
  apply congrArg (Effect.cycle machine).bind
  funext outcome
  rcases outcome with ⟨_ | result, after⟩ <;> rfl

theorem step_plain {machine : Machine} (hrunning : machine.status = .running)
    (hplain : machine.registers.pc ≠ DeviceCell.keyboardStatus.address) {word : Word}
    (hword : machine.memory.peek machine.registers.pc = word) :
    step machine =
      .note (.fetched machine.registers.pc word)
        ((Effect.execute (Instruction.decode word) word
          (machine.mapRegisters RegisterFile.advance)).bind fun outcome =>
            .done (settle machine.registers outcome)) := by
  rw [step_running hrunning, Effect.cycle_plain hplain, hword, Dialogue.bind_note]

theorem step_retire {machine : Machine} (hrunning : machine.status = .running)
    (hplain : machine.registers.pc ≠ DeviceCell.keyboardStatus.address) {word : Word}
    (hword : machine.memory.peek machine.registers.pc = word)
    {change : RegisterFile → RegisterFile}
    (hexecute : Effect.execute (Instruction.decode word) word = Effect.retire change) :
    step machine =
      .note (.fetched machine.registers.pc word) (.done (.ok .completed,
        { machine with
          registers := change machine.registers.advance
          retired := machine.retired + 1 })) := by
  rw [step_plain hrunning hplain hword, hexecute]
  rfl

theorem step_halted {machine : Machine} (hhalted : machine.status = .halted) :
    step machine = .done (.ok .halted, machine) := by
  rw [step, if_neg (by simp [isRunning, hhalted])]

theorem converse_step_status {σ : Type} {machine : Machine}
    (hrunning : machine.status = .running)
    (hstatus : machine.registers.pc = DeviceCell.keyboardStatus.address)
    (console : Console σ) (state : σ) :
    (step machine).converse console state =
      match console.answer .poll state with
      | (.ok (some key), after) =>
          ((.error ⟨machine.registers.pc, .illegal .rti Memory.keyReady⟩,
            { machine with memory := machine.memory.latchKey key }), after)
      | (.ok none, after) =>
          ((.ok .completed,
            { machine with
              memory := machine.memory.clearReady
              registers := machine.registers.advance
              retired := machine.retired + 1 }), after)
      | (.error error, after) =>
          ((.error ⟨machine.registers.pc, .console error⟩, machine), after) := by
  rw [step_running hrunning, Effect.cycle_status hstatus, Dialogue.bind_ask,
    Dialogue.converse_ask]
  rcases console.answer .poll state with ⟨error | _ | key, after⟩ <;> rfl

def holding (config : Config) (program : List Word) : Machine :=
  { ofConfig config with memory := Memory.empty.writeWords config.entry program }

end Machine

end LittleComputer

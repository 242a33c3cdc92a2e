import LittleComputer.Memory.Keyboard
import LittleComputer.Register.File

namespace LittleComputer

/-! The machine -/

structure Config where
  entry : Word := Region.user.first
  limit : Option UInt64 := none
  banner : Bool := true
  deriving DecidableEq

/-- How many instructions of a run are followed. Without a limit these are as many as its 64-bit
counter can count. -/
def Config.budget (config : Config) : Nat :=
  match config.limit with
  | none => UInt64.size
  | some limit => limit.toNat

/-- How a run ends that has used up its budget. -/
def Config.spent (config : Config) : Ending :=
  match config.limit with
  | none => .unfinished
  | some _ => .limitReached

inductive Status where
  | running
  | halted
  deriving DecidableEq

structure Machine where
  memory : Memory
  registers : RegisterFile
  status : Status
  config : Config
  /-- Completed instructions, modulo 2⁶⁴. -/
  retired : UInt64
  deriving DecidableEq

namespace Machine

def ofConfig (config : Config) : Machine where
  memory := .empty
  registers := .startingAt config.entry
  status := .running
  config := config
  retired := 0

def reset (machine : Machine) : Machine :=
  { ofConfig machine.config with memory := machine.memory }

def isRunning (machine : Machine) : Bool :=
  machine.status == .running

def writeMemory (machine : Machine) (address value : Word) : Machine :=
  { machine with memory := machine.memory.write address value }

def mapRegisters (machine : Machine) (change : RegisterFile → RegisterFile) : Machine :=
  { machine with registers := change machine.registers }

def retire (machine : Machine) : StepResult → Machine
  | .completed => { machine with retired := machine.retired + 1 }
  | .halted => { machine with retired := machine.retired + 1, status := .halted }

def window (machine : Machine) (before after : Word) : List Row :=
  machine.memory.window machine.registers.pc before after

def onMemory {ε α : Type} (action : Action Memory ε α) : Action Machine ε α :=
  fun ⟨memory, registers, status, config, retired⟩ =>
    (action memory).bind fun (result, memory) =>
      .done (result, ⟨memory, registers, status, config, retired⟩)

theorem onMemory_apply {ε α : Type} (action : Action Memory ε α) (machine : Machine) :
    onMemory action machine = (action machine.memory).bind fun (result, memory) =>
      .done (result, { machine with memory := memory }) := rfl

end Machine

end LittleComputer

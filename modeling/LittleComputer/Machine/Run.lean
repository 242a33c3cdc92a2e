import LittleComputer.Machine.Semantics

namespace LittleComputer

/-! Steps and runs -/

namespace Effect

def fetch : Effect Word := do
  let file ← registers
  let word ← load file.pc
  changeRegisters RegisterFile.advance
  Action.note (.fetched file.pc word)
  return word

def cycle : Effect StepResult := do
  let word ← fetch
  execute (Instruction.decode word) word

end Effect

namespace Machine

/-- Executes one instruction. A fault puts the registers back to where they were before
it. -/
def step : Action Machine Fault StepResult := fun machine =>
  if machine.isRunning then
    let before := machine.registers
    (Effect.cycle machine).bind fun
      | (.ok result, machine) => .done (.ok result, machine.retire result)
      | (.error cause, machine) =>
          .done (.error ⟨before.pc, cause⟩, { machine with registers := before })
  else
    .done (.ok .halted, machine)

/-- Goes on until the machine halts, `budget` more instructions have completed or one
faults. Before each instruction the console may break off the run. -/
def runFor (spent : Ending) (budget steps : Nat) : Action Machine Fault RunSummary := fun machine =>
  if machine.isRunning then
    match budget with
    | 0 => finish spent machine
    | budget + 1 =>
        .ask .interrupt fun
          | .error error => .done (.error ⟨machine.registers.pc, .console error⟩, machine)
          | .ok () => (step machine).bind fun
              | (.ok _, machine) => runFor spent budget (steps + 1) machine
              | (.error fault, machine) =>
                  .note (.runFaulted fault steps) (.done (.error fault, machine))
  else
    finish .halted machine
where
  finish (ending : Ending) (machine : Machine) :
      Dialogue (Except Fault RunSummary × Machine) :=
    .note (.runStopped machine.registers.pc ⟨steps, ending⟩)
      (.done (.ok ⟨steps, ending⟩, machine))

def run : Action Machine Fault RunSummary := fun machine =>
  .note (.runStarted machine.registers.pc machine.config.limit)
    (runFor machine.config.spent machine.config.budget 0 machine)

end Machine

end LittleComputer

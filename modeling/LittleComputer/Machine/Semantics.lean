import LittleComputer.Machine.Service

namespace LittleComputer

/-! Execution of instructions -/

namespace Effect

def retire (change : RegisterFile → RegisterFile) : Effect StepResult := do
  changeRegisters change
  return .completed

/-- Runs an instruction that was fetched as `word`, with the program counter already
behind it. -/
def execute (instruction : Instruction) (word : Word) : Effect StepResult :=
  match instruction with
  | .br mask offset => retire fun file =>
      if file.condition.selectedBy mask then file.jump (file.pcRelative offset) else file
  | .add destination source operand => retire fun file =>
      file.commit .add destination (file.read source + file.operand operand)
  | .and destination source operand => retire fun file =>
      file.commit .and destination (file.read source &&& file.operand operand)
  | .not destination source => retire fun file =>
      file.commit .not destination (~~~ file.read source)
  | .lea destination offset => retire fun file =>
      file.commit .lea destination (file.pcRelative offset)
  | .jmp base => retire fun file =>
      file.jump (file.read base)
  | .jsr offset => retire fun file =>
      (file.commit .jsr .link file.pc).jump (file.pcRelative offset)
  | .jsrr base => retire fun file =>
      let linked := file.commit .jsr .link file.pc
      linked.jump (linked.read base)
  | .ld destination offset => do
      let file ← registers
      let value ← load (file.pcRelative offset)
      retire fun file => file.commit .ld destination value
  | .ldi destination offset => do
      let file ← registers
      let pointer ← load (file.pcRelative offset)
      let value ← load pointer
      retire fun file => file.commit .ldi destination value
  | .ldr destination base offset => do
      let file ← registers
      let value ← load (file.baseOffset base offset)
      retire fun file => file.commit .ldr destination value
  | .st source offset => do
      let file ← registers
      store (file.pcRelative offset) (file.read source)
      return .completed
  | .sti source offset => do
      let file ← registers
      let pointer ← load (file.pcRelative offset)
      store pointer (file.read source)
      return .completed
  | .str source base offset => do
      let file ← registers
      store (file.baseOffset base offset) (file.read source)
      return .completed
  | .trap vector => trap vector
  | .rti | .reserved => Action.fail (.illegal instruction.opcode word)

end Effect

end LittleComputer

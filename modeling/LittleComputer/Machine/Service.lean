import LittleComputer.Machine.Effect
import LittleComputer.Memory.Strings
import LittleComputer.TrapService

namespace LittleComputer

/-! Trap services -/

namespace Effect

def writeText (text : String) : Effect Unit := do
  ask (.write text.toUTF8.data.toList)
  ask .flush

def setCharacter (byte : Byte) : Effect Unit :=
  changeRegisters fun file => file.writeResult .r0 byte.toUInt16

def service : TrapService → Effect StepResult
  | .getc => do
      let byte ← ask .read
      setCharacter byte
      return .completed
  | .out => do
      let file ← registers
      ask (.write [(file.read .r0).lowByte])
      ask .flush
      return .completed
  | .puts => do
      let bytes ← Action.inspect fun machine =>
        machine.memory.string (machine.registers.read .r0)
      writeEach bytes
      ask .flush
      return .completed
  | .input => do
      writeText TrapService.prompt
      let byte ← ask .read
      ask (.write [byte])
      ask .flush
      setCharacter byte
      return .completed
  | .putsp => do
      let bytes ← Action.inspect fun machine =>
        machine.memory.packedString (machine.registers.read .r0)
      writeEach bytes
      ask .flush
      return .completed
  | .halt => do
      let banner ← Action.inspect fun machine => machine.config.banner
      if banner then
        writeText TrapService.banner
      return .halted

/-- The return address goes to the link register before the service begins. -/
def trap (vector : Byte) : Effect StepResult :=
  match TrapService.ofVector? vector with
  | none => Action.fail (.undefinedTrap vector)
  | some requested => do
      changeRegisters fun file => file.write .link file.pc
      service requested

end Effect

end LittleComputer

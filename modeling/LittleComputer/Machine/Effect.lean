import LittleComputer.Machine

namespace LittleComputer

/-! Parts of an instruction -/

abbrev Effect (α : Type) : Type :=
  Action Machine Fault.Cause α

namespace Effect

def registers : Effect RegisterFile :=
  Action.inspect Machine.registers

def changeRegisters (change : RegisterFile → RegisterFile) : Effect Unit :=
  Action.update fun machine => machine.mapRegisters change

def load (address : Word) : Effect Word :=
  (Machine.onMemory (Memory.read address)).mapError .console

def store (address value : Word) : Effect Unit :=
  Action.update fun machine => machine.writeMemory address value

def ask (request : Request) : Effect request.Reply :=
  (Action.ask request).mapError .console

def writeEach : List Byte → Effect Unit
  | [] => pure ()
  | byte :: bytes => do
      ask (.write [byte])
      writeEach bytes

end Effect

end LittleComputer

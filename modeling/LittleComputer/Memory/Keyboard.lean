import LittleComputer.Action

namespace LittleComputer

/-! The keyboard as seen through memory -/

namespace Memory

def keyReady : Word := 0x8000

def latchKey (memory : Memory) (key : Byte) : Memory :=
  (memory.write DeviceCell.keyboardStatus.address keyReady).write
    DeviceCell.keyboardData.address key.toUInt16

def clearReady (memory : Memory) : Memory :=
  memory.write DeviceCell.keyboardStatus.address 0

def refreshKeyboard : Action Memory ConsoleFailure Unit := do
  match ← Action.ask .poll with
  | some key => do
      Action.note (.keyLatched key)
      Action.update fun memory => memory.latchKey key
  | none => Action.update clearReady

/-- Reads a cell as an instruction does: reading the keyboard status polls the keyboard
first. -/
def read (address : Word) : Action Memory ConsoleFailure Word := do
  if address = DeviceCell.keyboardStatus.address then
    refreshKeyboard
  Action.inspect fun memory => memory.peek address

end Memory

end LittleComputer

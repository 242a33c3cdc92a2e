import LittleComputer.Word

namespace LittleComputer

/-! The sixteen operation codes -/

inductive Opcode where
  | br | add | ld | st | jsr | and | ldr | str
  | rti | not | ldi | sti | jmp | res | lea | trap
  deriving DecidableEq

namespace Opcode

def number : Opcode → Fin 16
  | br => 0
  | add => 1
  | ld => 2
  | st => 3
  | jsr => 4
  | and => 5
  | ldr => 6
  | str => 7
  | rti => 8
  | not => 9
  | ldi => 10
  | sti => 11
  | jmp => 12
  | res => 13
  | lea => 14
  | trap => 15

def ofNumber (number : Fin 16) : Opcode :=
  match number.val with
  | 0 => br
  | 1 => add
  | 2 => ld
  | 3 => st
  | 4 => jsr
  | 5 => and
  | 6 => ldr
  | 7 => str
  | 8 => rti
  | 9 => not
  | 10 => ldi
  | 11 => sti
  | 12 => jmp
  | 13 => res
  | 14 => lea
  | _ => trap

@[simp] theorem ofNumber_number (opcode : Opcode) :
    ofNumber opcode.number = opcode := by
  cases opcode <;> rfl

@[simp] theorem number_ofNumber (number : Fin 16) :
    (ofNumber number).number = number := by
  revert number
  decide

def ofNumber? (number : Nat) : Option Opcode :=
  if hnumber : number < 16 then some (ofNumber ⟨number, hnumber⟩) else none

def ofWord (word : Word) : Opcode :=
  ofNumber ⟨word.field 12 4, word.field_lt 12 4⟩

def mnemonic : Opcode → String
  | br => "BR"
  | add => "ADD"
  | ld => "LD"
  | st => "ST"
  | jsr => "JSR"
  | and => "AND"
  | ldr => "LDR"
  | str => "STR"
  | rti => "RTI"
  | not => "NOT"
  | ldi => "LDI"
  | sti => "STI"
  | jmp => "JMP"
  | res => "RES"
  | lea => "LEA"
  | trap => "TRAP"

/-- Return-from-interrupt and the reserved code name no operation of this
machine; executing one is a fault. -/
def isIllegal : Opcode → Bool
  | rti | res => true
  | _ => false

def setsCondition : Opcode → Bool
  | add | and | not | ld | ldi | ldr | lea => true
  | _ => false

def all : List Opcode :=
  [br, add, ld, st, jsr, and, ldr, str, rti, not, ldi, sti, jmp, res, lea, trap]

theorem mem_all (opcode : Opcode) : opcode ∈ all := by
  cases opcode <;> decide

end Opcode

end LittleComputer

import LittleComputer.Condition
import LittleComputer.Instruction
import LittleComputer.TrapService

namespace LittleComputer

/-! The written form of an instruction -/

namespace Word

def offsetText (word : Word) : String :=
  "#" ++ Numeral.signedDecimal word.signed

end Word

namespace Operand

def text : Operand → String
  | register source => source.name
  | immediate value => value.offsetText

end Operand

namespace Instruction

def maskLetters (mask : Word) : String :=
  (if Condition.negative.selectedBy mask then "n" else "") ++
    (if Condition.zero.selectedBy mask then "z" else "") ++
    (if Condition.positive.selectedBy mask then "p" else "")

/-- A branch on no condition, a jump through the link register and a trap with
a service behind it go by names of their own. -/
def mnemonic : Instruction → String
  | br mask _ => if mask = 0 then "NOP" else "BR" ++ maskLetters mask
  | jmp base => if base = Register.link then "RET" else "JMP"
  | jsrr _ => "JSRR"
  | trap vector => (TrapService.ofVector? vector).elim "TRAP" TrapService.name
  | instruction => instruction.opcode.mnemonic

def operandTexts : Instruction → List String
  | br mask offset => if mask = 0 then [] else [offset.offsetText]
  | add destination source operand => [destination.name, source.name, operand.text]
  | and destination source operand => [destination.name, source.name, operand.text]
  | not destination source => [destination.name, source.name]
  | ld destination offset => [destination.name, offset.offsetText]
  | ldi destination offset => [destination.name, offset.offsetText]
  | ldr destination base offset => [destination.name, base.name, offset.offsetText]
  | lea destination offset => [destination.name, offset.offsetText]
  | st source offset => [source.name, offset.offsetText]
  | sti source offset => [source.name, offset.offsetText]
  | str source base offset => [source.name, base.name, offset.offsetText]
  | jmp base => if base = Register.link then [] else [base.name]
  | jsr offset => [offset.offsetText]
  | jsrr base => [base.name]
  | trap vector => if (TrapService.ofVector? vector).isSome then [] else [Byte.hex vector]
  | rti => []
  | reserved => []

def operands (instruction : Instruction) : String :=
  ", ".intercalate instruction.operandTexts

def text (instruction : Instruction) : String :=
  match instruction.operandTexts with
  | [] => instruction.mnemonic
  | _ :: _ => instruction.mnemonic ++ " " ++ instruction.operands

end Instruction

end LittleComputer

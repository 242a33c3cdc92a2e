import LittleComputer.Opcode
import LittleComputer.Register

namespace LittleComputer

/-! Instructions and their decoding -/

inductive Operand where
  | register (source : Register)
  | immediate (value : Word)
  deriving DecidableEq

/-- Offsets and immediate values are already extended to a word. -/
inductive Instruction where
  | br (mask offset : Word)
  | add (destination source : Register) (operand : Operand)
  | and (destination source : Register) (operand : Operand)
  | not (destination source : Register)
  | ld (destination : Register) (offset : Word)
  | ldi (destination : Register) (offset : Word)
  | ldr (destination base : Register) (offset : Word)
  | lea (destination : Register) (offset : Word)
  | st (source : Register) (offset : Word)
  | sti (source : Register) (offset : Word)
  | str (source base : Register) (offset : Word)
  | jmp (base : Register)
  | jsr (offset : Word)
  | jsrr (base : Register)
  | trap (vector : Byte)
  | rti
  | reserved
  deriving DecidableEq

namespace Instruction

def opcode : Instruction → Opcode
  | br .. => .br
  | add .. => .add
  | and .. => .and
  | not .. => .not
  | ld .. => .ld
  | ldi .. => .ldi
  | ldr .. => .ldr
  | lea .. => .lea
  | st .. => .st
  | sti .. => .sti
  | str .. => .str
  | jmp .. => .jmp
  | jsr .. | jsrr .. => .jsr
  | trap .. => .trap
  | rti => .rti
  | reserved => .res

end Instruction

namespace Word

/-! Fields of an instruction word -/

def immediate5 (word : Word) : Word := signExtend 5 word

def offset6 (word : Word) : Word := signExtend 6 word

def offset9 (word : Word) : Word := signExtend 9 word

def offset11 (word : Word) : Word := signExtend 11 word

def trapVector (word : Word) : Byte := word.lowByte

def operand (word : Word) : Operand :=
  if word.bit 5 then .immediate word.immediate5 else .register (Register.ofField word 0)

end Word

namespace Instruction

/-- Every word is the code of exactly one instruction. -/
def decode (word : Word) : Instruction :=
  let first := Register.ofField word 9
  let second := Register.ofField word 6
  match Opcode.ofWord word with
  | .br => .br (UInt16.ofNat (word.field 9 3)) word.offset9
  | .add => .add first second word.operand
  | .and => .and first second word.operand
  | .not => .not first second
  | .ld => .ld first word.offset9
  | .ldi => .ldi first word.offset9
  | .ldr => .ldr first second word.offset6
  | .lea => .lea first word.offset9
  | .st => .st first word.offset9
  | .sti => .sti first word.offset9
  | .str => .str first second word.offset6
  | .jmp => .jmp second
  | .jsr => if word.bit 11 then .jsr word.offset11 else .jsrr second
  | .trap => .trap word.trapVector
  | .rti => .rti
  | .res => .reserved

@[simp] theorem opcode_decode (word : Word) :
    (decode word).opcode = Opcode.ofWord word := by
  simp only [decode]
  cases hopcode : Opcode.ofWord word <;> try rfl
  cases word.bit 11 <;> rfl

end Instruction

end LittleComputer

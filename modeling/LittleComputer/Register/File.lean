import LittleComputer.Condition
import LittleComputer.Instruction

namespace LittleComputer

/-! The register file -/

structure RegisterFile where
  general : Vector Word 8
  pc : Word
  condition : Condition
  deriving DecidableEq

namespace RegisterFile

def startingAt (pc : Word) : RegisterFile where
  general := Vector.replicate 8 0
  pc := pc
  condition := .zero

def read (file : RegisterFile) (register : Register) : Word :=
  file.general[register.index.val]

def write (file : RegisterFile) (register : Register) (value : Word) : RegisterFile :=
  { file with general := file.general.set register.index value }

def writeResult (file : RegisterFile) (register : Register) (value : Word) : RegisterFile :=
  { file.write register value with condition := Condition.ofWord value }

def commit (file : RegisterFile) (opcode : Opcode) (register : Register)
    (value : Word) : RegisterFile :=
  if opcode.setsCondition then file.writeResult register value else file.write register value

def jump (file : RegisterFile) (target : Word) : RegisterFile :=
  { file with pc := target }

def advance (file : RegisterFile) : RegisterFile :=
  file.jump (file.pc + 1)

def pcRelative (file : RegisterFile) (offset : Word) : Word :=
  file.pc + offset

def baseOffset (file : RegisterFile) (base : Register) (offset : Word) : Word :=
  file.read base + offset

def operand (file : RegisterFile) : Operand → Word
  | .register source => file.read source
  | .immediate value => value

def toList (file : RegisterFile) : List Word :=
  Register.all.map file.read

/-! Equations -/

@[simp] theorem read_startingAt (pc : Word) (register : Register) :
    (startingAt pc).read register = 0 := by
  simp [startingAt, read]

@[simp] theorem pc_startingAt (pc : Word) : (startingAt pc).pc = pc := rfl

@[simp] theorem condition_startingAt (pc : Word) :
    (startingAt pc).condition = .zero := rfl

theorem read_write (file : RegisterFile) (register other : Register) (value : Word) :
    (file.write register value).read other =
      if other = register then value else file.read other := by
  simp only [read, write, Vector.getElem_set]
  by_cases hregister : other = register
  · subst hregister
    simp
  · have hindex : ¬ (register.index : Nat) = (other.index : Nat) := fun heq =>
      hregister (Register.index_injective (Fin.ext heq.symm))
    simp [hregister, hindex]

@[simp] theorem read_write_self (file : RegisterFile) (register : Register)
    (value : Word) : (file.write register value).read register = value := by
  simp [read_write]

@[simp] theorem pc_write (file : RegisterFile) (register : Register) (value : Word) :
    (file.write register value).pc = file.pc := rfl

@[simp] theorem condition_write (file : RegisterFile) (register : Register)
    (value : Word) : (file.write register value).condition = file.condition := rfl

theorem read_writeResult (file : RegisterFile) (register other : Register)
    (value : Word) :
    (file.writeResult register value).read other =
      if other = register then value else file.read other :=
  read_write file register other value

@[simp] theorem pc_writeResult (file : RegisterFile) (register : Register)
    (value : Word) : (file.writeResult register value).pc = file.pc := rfl

@[simp] theorem condition_writeResult (file : RegisterFile) (register : Register)
    (value : Word) :
    (file.writeResult register value).condition = Condition.ofWord value := rfl

@[simp] theorem read_jump (file : RegisterFile) (target : Word) (register : Register) :
    (file.jump target).read register = file.read register := rfl

@[simp] theorem pc_jump (file : RegisterFile) (target : Word) :
    (file.jump target).pc = target := rfl

@[simp] theorem condition_jump (file : RegisterFile) (target : Word) :
    (file.jump target).condition = file.condition := rfl

theorem ext_read {left right : RegisterFile}
    (hread : ∀ register, left.read register = right.read register)
    (hpc : left.pc = right.pc) (hcondition : left.condition = right.condition) :
    left = right := by
  cases left with
  | mk leftGeneral leftPc leftCondition =>
    cases right with
    | mk rightGeneral rightPc rightCondition =>
      obtain rfl : leftGeneral = rightGeneral := by
        apply Vector.ext
        intro index hindex
        have hentry := hread (Register.ofIndex ⟨index, hindex⟩)
        simpa [read] using hentry
      obtain rfl : leftPc = rightPc := hpc
      obtain rfl : leftCondition = rightCondition := hcondition
      rfl

end RegisterFile

end LittleComputer

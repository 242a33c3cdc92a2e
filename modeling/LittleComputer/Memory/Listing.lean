import LittleComputer.Instruction.Text
import LittleComputer.Memory

namespace LittleComputer

/-! Memory listed as instructions -/

structure Row where
  address : Word
  word : Word
  mnemonic : String
  operands : String
  isIllegal : Bool
  deriving DecidableEq

namespace Row

def ofWord (address word : Word) : Row :=
  let instruction := Instruction.decode word
  if instruction.opcode.isIllegal then
    { address, word, mnemonic := ".word", operands := word.hex ++ " ; ILLEGAL",
      isIllegal := true }
  else
    { address, word, mnemonic := instruction.mnemonic, operands := instruction.operands,
      isIllegal := false }

def text (row : Row) (marker : Char) : String :=
  marker.toString ++ " " ++ row.address.hex ++ "  " ++ row.word.hex ++ "  " ++
    row.mnemonic ++ " " ++ row.operands

end Row

namespace Memory

def rows (memory : Memory) (address : Word) : (count : Nat) → List Row
  | 0 => []
  | count + 1 => Row.ofWord address (memory.peek address) :: memory.rows (address + 1) count

/-- The rows around `center`, no cell twice: `before` rows, the row of
`center` and `after` rows, cut at the end when that is more than there are cells. -/
def window (memory : Memory) (center before after : Word) : List Row :=
  memory.rows (center - before) (min (before.toNat + 1 + after.toNat) size)

@[simp] theorem length_rows (memory : Memory) (address : Word) (count : Nat) :
    (memory.rows address count).length = count := by
  induction count generalizing address with
  | zero => rfl
  | succ count ih => simp [rows, ih]

end Memory

end LittleComputer

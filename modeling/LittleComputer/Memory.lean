import LittleComputer.Text.Numeral

namespace LittleComputer

/-! Word-addressed memory -/

structure Memory where
  cells : Vector Word 65536
  deriving DecidableEq

namespace Memory

def size : Nat := 65536

def empty : Memory where
  cells := Vector.replicate 65536 0

/-- Looks at a cell. No device notices. -/
def peek (memory : Memory) (address : Word) : Word :=
  have hindex := address.toNat_lt
  memory.cells[address.toNat]

def write (memory : Memory) (address value : Word) : Memory where
  cells := memory.cells.set address.toNat value address.toNat_lt

/-- Writes `words` to consecutive cells, going on at address zero after the last. -/
def writeWords (memory : Memory) (address : Word) : List Word → Memory
  | [] => memory
  | word :: words => (memory.write address word).writeWords (address + 1) words

def peekWords (memory : Memory) (address : Word) : (count : Nat) → List Word
  | 0 => []
  | count + 1 => memory.peek address :: memory.peekWords (address + 1) count

def populated (memory : Memory) : Nat :=
  memory.cells.countP (· != 0)

def summary (memory : Memory) : String :=
  "Memory \x7b words: " ++ Numeral.decimal size ++ ", populated: " ++
    Numeral.decimal memory.populated ++ " \x7d"

/-! Equations -/

@[simp] theorem peek_empty (address : Word) : empty.peek address = 0 := by
  simp [empty, peek]

theorem peek_write (memory : Memory) (address value other : Word) :
    (memory.write address value).peek other =
      if other = address then value else memory.peek other := by
  simp only [peek, write, Vector.getElem_set]
  by_cases haddress : other = address
  · simp [haddress]
  · have hindex : ¬ address.toNat = other.toNat := fun heq =>
      haddress (UInt16.toNat_inj.mp heq.symm)
    simp [haddress, hindex]

@[simp] theorem peek_write_self (memory : Memory) (address value : Word) :
    (memory.write address value).peek address = value := by
  simp [peek_write]

theorem peek_write_of_ne (memory : Memory) (value : Word) {address other : Word}
    (hne : other ≠ address) :
    (memory.write address value).peek other = memory.peek other := by
  simp [peek_write, hne]

theorem ext_peek {left right : Memory}
    (hpeek : ∀ address, left.peek address = right.peek address) : left = right := by
  cases left with
  | mk leftCells =>
    cases right with
    | mk rightCells =>
      congr 1
      apply Vector.ext
      intro index hindex
      have hcell := hpeek (UInt16.ofNat index)
      simpa [peek, UInt16.toNat_ofNat_of_lt' hindex] using hcell

end Memory

end LittleComputer

import LittleComputer.Dialogue
import LittleComputer.Condition
import LittleComputer.Register

namespace LittleComputer

/-! The instruction set over the integers

Registers and cells hold integers, and an address stands for its residue modulo 2¹⁶.
Only the word of an instruction is read as a string of bits. -/

namespace Architecture

def residue (number : Int) : Int := number % 65536

/-- The integer that the low `width` bits of `word` stand for in two's complement. -/
def signed (width word : Nat) : Int := (word : Int).bmod (Nat.pow 2 width)

def bit (word index : Nat) : Bool := word / Nat.pow 2 index % 2 = 1

def register (word start : Nat) : Register :=
  .ofIndex ⟨word / Nat.pow 2 start % 8, Nat.mod_lt _ (by decide)⟩

def sign (value : Int) : Condition :=
  if value.bmod 65536 < 0 then .negative
  else if value.bmod 65536 = 0 then .zero
  else .positive

structure State where
  memory : Int → Int
  general : Register → Int
  pc : Int
  condition : Condition

namespace State

def jump (state : State) (target : Int) : State :=
  { state with pc := target }

def store (state : State) (address value : Int) : State :=
  { state with
    memory := fun other =>
      if residue other = residue address then value else state.memory other }

def assign (state : State) (target : Register) (value : Int) : State :=
  { state with
    general := fun other => if other = target then value else state.general other }

def produce (state : State) (target : Register) (value : Int) : State :=
  { state.assign target value with condition := sign value }

end State

/-- Whether a branch with this condition is taken: bit 11 is for negative, bit 10 for zero
and bit 9 for positive. -/
def takes (word : Nat) : Condition → Bool
  | .negative => bit word 11
  | .zero => bit word 10
  | .positive => bit word 9

def operand (word : Nat) (state : State) : Int :=
  if bit word 5 then signed 5 word else state.general (register word 0)

def conjunction (left right : Int) : Int :=
  ((residue left).toNat &&& (residue right).toNat : Nat)

section

variable {σ : Type}

/-- Reads a cell. The keyboard status at xFE00 is not stored but asked for; a key that is
waiting goes to xFE02. Nothing is read where the console fails. -/
def read (console : Console σ) (address : Int) (state : State) (input : σ) :
    Option (Int × State × σ) :=
  if residue address = 0xFE00 then
    match console.answer .poll input with
    | (.ok (some key), input) =>
        some (0x8000, (state.store 0xFE00 0x8000).store 0xFE02 key.toNat, input)
    | (.ok none, input) => some (0, state.store 0xFE00 0, input)
    | (.error _, _) => none
  else
    some (state.memory address, state, input)

/-- Executes an instruction with the program counter behind it. Traps, the return from an
interrupt and the reserved code are left out. -/
def execute (console : Console σ) (word : Nat) (state : State) (input : σ) :
    Option (State × σ) :=
  let first := register word 9
  let second := state.general (register word 6)
  let near := residue (state.pc + signed 9 word)
  let based := residue (second + signed 6 word)
  match word / 4096 with
  | 0 => some (if takes word state.condition then state.jump near else state, input)
  | 1 => some (state.produce first (residue (second + operand word state)), input)
  | 2 => do
      let (value, state, input) ← read console near state input
      return (state.produce first value, input)
  | 3 => some (state.store near (state.general first), input)
  | 4 =>
      let linked := state.assign .r7 state.pc
      let target :=
        if bit word 11 then residue (state.pc + signed 11 word)
        else linked.general (register word 6)
      some (linked.jump target, input)
  | 5 => some (state.produce first (conjunction second (operand word state)), input)
  | 6 => do
      let (value, state, input) ← read console based state input
      return (state.produce first value, input)
  | 7 => some (state.store based (state.general first), input)
  | 9 => some (state.produce first (65535 - second), input)
  | 10 => do
      let (pointer, state, input) ← read console near state input
      let (value, state, input) ← read console pointer state input
      return (state.produce first value, input)
  | 11 => do
      let (pointer, state, input) ← read console near state input
      return (state.store pointer (state.general first), input)
  | 12 => some (state.jump second, input)
  | 14 => some (state.produce first near, input)
  | _ => none

def step (console : Console σ) (state : State) (input : σ) : Option (State × σ) := do
  let (word, state, input) ← read console state.pc state input
  execute console word.toNat (state.jump (residue (state.pc + 1))) input

end

end Architecture

end LittleComputer

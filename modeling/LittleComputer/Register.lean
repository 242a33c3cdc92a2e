import LittleComputer.Text.Numeral

namespace LittleComputer

/-! The eight general registers -/

inductive Register where
  | r0 | r1 | r2 | r3 | r4 | r5 | r6 | r7
  deriving DecidableEq

namespace Register

def index : Register → Fin 8
  | r0 => 0
  | r1 => 1
  | r2 => 2
  | r3 => 3
  | r4 => 4
  | r5 => 5
  | r6 => 6
  | r7 => 7

def ofIndex : Fin 8 → Register
  | 0 => r0
  | 1 => r1
  | 2 => r2
  | 3 => r3
  | 4 => r4
  | 5 => r5
  | 6 => r6
  | 7 => r7

@[simp] theorem ofIndex_index (register : Register) :
    ofIndex register.index = register := by
  cases register <;> rfl

@[simp] theorem index_ofIndex (index : Fin 8) :
    (ofIndex index).index = index := by
  revert index
  decide

theorem index_injective {left right : Register}
    (hindex : left.index = right.index) : left = right := by
  rw [← ofIndex_index left, hindex, ofIndex_index]

def ofNumber? (number : Nat) : Option Register :=
  if hnumber : number < 8 then some (ofIndex ⟨number, hnumber⟩) else none

def ofField (word : Word) (start : Nat) : Register :=
  ofIndex ⟨word.field start 3, word.field_lt start 3⟩

def link : Register := r7

def all : List Register :=
  [r0, r1, r2, r3, r4, r5, r6, r7]

theorem mem_all (register : Register) : register ∈ all := by
  cases register <;> decide

def name (register : Register) : String :=
  "R" ++ Numeral.decimal register.index

end Register

end LittleComputer

import LittleComputer.Word

namespace LittleComputer

/-! The condition code -/

inductive Condition where
  | negative
  | zero
  | positive
  deriving DecidableEq

namespace Condition

def ofWord (word : Word) : Condition :=
  if word = 0 then zero else if word.isNegative then negative else positive

def maskBit : Condition → Word
  | negative => 4
  | zero => 2
  | positive => 1

def selectedBy (condition : Condition) (mask : Word) : Bool :=
  condition.maskBit &&& mask != 0

def all : List Condition :=
  [negative, zero, positive]

end Condition

end LittleComputer

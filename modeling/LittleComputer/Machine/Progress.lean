namespace LittleComputer

/-! How far a machine gets -/

inductive StepResult where
  | completed
  | halted
  deriving DecidableEq

inductive Ending where
  | halted
  | limitReached
  /-- The run goes on, and is followed no further. -/
  | unfinished
  deriving DecidableEq

def Ending.name : Ending → String
  | halted => "Halted"
  | limitReached => "InstructionLimit"
  | unfinished => "Unfinished"

structure RunSummary where
  steps : Nat
  ending : Ending
  deriving DecidableEq

end LittleComputer

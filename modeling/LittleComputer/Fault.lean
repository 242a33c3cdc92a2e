import LittleComputer.Console.Failure
import LittleComputer.Opcode
import LittleComputer.Text.Numeral

namespace LittleComputer

/-! Faults -/

inductive Fault.Cause where
  | illegal (opcode : Opcode) (word : Word)
  | undefinedTrap (vector : Byte)
  | console (error : ConsoleFailure)
  deriving DecidableEq

inductive Fault.Kind where
  | program
  | console
  deriving DecidableEq

namespace Fault.Cause

def kind : Fault.Cause → Fault.Kind
  | illegal .. | undefinedTrap _ => .program
  | console _ => .console

def message : Fault.Cause → String
  | illegal opcode word => "illegal opcode " ++ opcode.mnemonic ++ " (" ++ word.hex ++ ")"
  | undefinedTrap vector => "undefined trap vector " ++ Byte.hex vector
  | console error => error.message

end Fault.Cause

structure Fault where
  pc : Word
  cause : Fault.Cause
  deriving DecidableEq

namespace Fault

def message (fault : Fault) : String :=
  "fault at " ++ fault.pc.hex ++ ": " ++ fault.cause.message

def isInterruption (fault : Fault) : Bool :=
  fault.cause == .console .interrupted

end Fault

end LittleComputer

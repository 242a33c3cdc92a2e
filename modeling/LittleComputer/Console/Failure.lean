namespace LittleComputer

/-! Failures of a console call -/

inductive ConsoleFailure where
  | closed
  | interrupted
  | device (reason : String)
  deriving DecidableEq

def ConsoleFailure.message : ConsoleFailure → String
  | closed => "console input closed"
  | interrupted => "interrupted"
  | device reason => "console i/o failed: " ++ reason

end LittleComputer

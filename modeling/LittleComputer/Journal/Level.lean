import LittleComputer.Text.Number

namespace LittleComputer

/-! Severity of journal entries -/

inductive Level where
  | error
  | warning
  | info
  | debug
  | trace
  deriving DecidableEq

namespace Level

def rank : Level → Nat
  | error => 1
  | warning => 2
  | info => 3
  | debug => 4
  | trace => 5

def name : Level → String
  | error => "ERROR"
  | warning => "WARN"
  | info => "INFO"
  | debug => "DEBUG"
  | trace => "TRACE"

def within (level threshold : Level) : Bool :=
  level.rank ≤ threshold.rank

/-- Down to which level a number lets events through. The outer `none` is no such number,
the inner one stands for silence. -/
def ofNumber? : Nat → Option (Option Level)
  | 0 => some none
  | 1 => some (some error)
  | 2 => some (some warning)
  | 3 => some (some info)
  | 4 => some (some debug)
  | 5 => some (some trace)
  | _ => none

@[simp] theorem ofNumber_rank (level : Level) : ofNumber? level.rank = some (some level) := by
  cases level <;> rfl

def ofName? (name : String) : Option (Option Level) :=
  match name.toLower with
  | "off" => some none
  | "error" => some (some error)
  | "warn" => some (some warning)
  | "info" => some (some info)
  | "debug" => some (some debug)
  | "trace" => some (some trace)
  | _ => none

def parse? (text : String) : Option (Option Level) :=
  match Number.parse 10 UInt64.size text.toList with
  | .ok number => ofNumber? number
  | .error _ => ofName? text

end Level

end LittleComputer

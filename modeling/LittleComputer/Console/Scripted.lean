import LittleComputer.Dialogue

namespace LittleComputer

/-! A console in memory -/

structure Script where
  input : List Byte
  output : Array Byte := #[]
  interruptPending : Bool := false
  flushes : Nat := 0
  deriving DecidableEq

namespace Script

def feed (script : Script) (bytes : List Byte) : Script :=
  { script with input := script.input ++ bytes }

def interrupt (script : Script) : Script :=
  { script with interruptPending := true }

/-- Input runs out at once when none is left, and an interrupt is reported once. -/
def answer : (request : Request) → Script → Answer request × Script
  | .poll, script =>
      match script.input with
      | [] => (.ok none, script)
      | key :: input => (.ok (some key), { script with input := input })
  | .read, script =>
      match script.input with
      | [] => (.error .closed, script)
      | key :: input => (.ok key, { script with input := input })
  | .write bytes, script => (.ok (), { script with output := script.output ++ bytes })
  | .flush, script => (.ok (), { script with flushes := script.flushes + 1 })
  | .interrupt, script =>
      if script.interruptPending then
        (.error .interrupted, { script with interruptPending := false })
      else
        (.ok (), script)

def console : Console Script where
  answer := answer

theorem answer_interrupt_raised {script : Script} (hraised : script.interruptPending = true) :
    console.answer .interrupt script =
      (.error .interrupted, { script with interruptPending := false }) :=
  if_pos hraised

theorem answer_interrupt_unraised {script : Script}
    (hunraised : script.interruptPending = false) :
    console.answer .interrupt script = (.ok (), script) :=
  if_neg (by simp [hunraised])

end Script

end LittleComputer

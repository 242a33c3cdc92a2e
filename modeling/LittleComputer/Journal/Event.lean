import LittleComputer.Fault
import LittleComputer.Journal.Level
import LittleComputer.Machine.Progress
import LittleComputer.Memory.Listing
import LittleComputer.Memory.Region
import LittleComputer.Text.Escaped

namespace LittleComputer

/-! Journal entries -/

inductive Event where
  | imageOddByte (origin : Word)
  | imageCut (origin : Word) (discarded : Nat)
  | imageStored (origin : Word) (stored : Nat)
  | imageFileRead (path : String)
  | imageAccepted (path : String) (origin : Word) (stored : Nat)
  | keyLatched (key : Byte)
  | fetched (address word : Word)
  | runStarted (pc : Word) (limit : Option UInt64)
  | runFaulted (fault : Fault) (steps : Nat)
  | runStopped (pc : Word) (summary : RunSummary)
  | inputKeptAsIs
  | inputMadeRaw
  | machineStopped (summary : RunSummary)
  | faultRow (row : Row) (marker : Char)
  deriving DecidableEq

namespace Event

def level : Event → Level
  | imageOddByte .. | imageCut .. => .warning
  | imageAccepted .. | machineStopped .. => .info
  | imageStored .. | imageFileRead .. => .debug
  | runStarted .. | runFaulted .. | runStopped .. => .debug
  | inputKeptAsIs | inputMadeRaw | faultRow .. => .debug
  | keyLatched .. | fetched .. => .trace

def target : Event → String
  | imageOddByte .. | imageCut .. | imageStored .. | imageFileRead .. => "lc3_core::loader"
  | keyLatched .. => "lc3_core::memory"
  | fetched .. => "lc3_core::execute"
  | runStarted .. | runFaulted .. | runStopped .. => "lc3_core::api"
  | inputKeptAsIs | inputMadeRaw => "lc3_vm::terminal"
  | imageAccepted .. | machineStopped .. | faultRow .. => "lc3_vm"

def sentence : Event → String
  | imageOddByte origin => "ignoring odd trailing byte in image at " ++ origin.hex
  | imageCut origin _ =>
      "image at " ++ origin.hex ++ " extends past xFFFF; trailing words discarded"
  | imageStored origin _ => "image loaded at " ++ origin.hex
  | imageFileRead _ => "image file loaded"
  | imageAccepted _ origin _ => "loaded image at " ++ origin.hex
  | keyLatched _ => "keyboard poll latched input"
  | fetched address word =>
      address.hex ++ ": " ++ word.hex ++ "  " ++ (Instruction.decode word).text
  | runStarted pc _ => "run started at " ++ pc.hex
  | runFaulted fault _ => "run stopped by fault: " ++ fault.message
  | runStopped pc _ => "run stopped at " ++ pc.hex
  | inputKeptAsIs => "stdin is not a terminal; leaving its mode alone"
  | inputMadeRaw => "terminal switched to raw mode"
  | machineStopped _ => "machine stopped"
  | faultRow row marker => row.text marker

def limitText : Option UInt64 → String
  | none => "None"
  | some limit => "Some(" ++ Numeral.decimal limit.toNat ++ ")"

def fields : Event → List (String × String)
  | imageCut _ discarded => [("words_discarded", Numeral.decimal discarded)]
  | imageStored origin stored =>
      [("region", (Region.ofAddress origin).name), ("words_loaded", Numeral.decimal stored)]
  | imageFileRead path => [("path", path)]
  | imageAccepted path _ stored => [("path", path), ("words", Numeral.decimal stored)]
  | keyLatched key => [("ch", Numeral.decimal key.toNat)]
  | runStarted _ limit => [("limit", limitText limit)]
  | runFaulted _ steps => [("steps", Numeral.decimal steps)]
  | runStopped _ summary | machineStopped summary =>
      [("steps", Numeral.decimal summary.steps), ("stop", summary.ending.name)]
  | _ => []

/-- The sentence counts as a field of its own. -/
def hasField (event : Event) (name : String) : Bool :=
  name = "message" || event.fields.any fun field => field.1 = name

def line (event : Event) : String :=
  event.level.name ++ " " ++ event.target ++ ": " ++ Text.escaped event.sentence ++
    String.join (event.fields.map fun field => " " ++ field.1 ++ "=" ++ field.2)

end Event

end LittleComputer

import LittleComputer.CommandLine.Arguments
import LittleComputer.Image
import LittleComputer.Journal.Filter
import LittleComputer.Machine.Run
import LittleComputer.SystemError

namespace LittleComputer

/-! From the options to the end of the run -/

inductive Failure where
  | load (path : String) (error : ImageError)
  | fault (fault : Fault)
  deriving DecidableEq

namespace Failure

def isInterruption : Failure → Bool
  | load .. => false
  | .fault reached => reached.isInterruption

def exitCode : Failure → Nat
  | load .. => 1
  | .fault reached =>
      if reached.isInterruption then 130
      else
        match reached.cause.kind with
        | .program => 3
        | .console => 4

def report : Failure → List String
  | load path error =>
      ("failed to load image: " ++ path) ::
        (error.reason?.map ("  caused by: " ++ ·)).toList
  | .fault reached => if reached.isInterruption then [] else [reached.message]

end Failure

structure Environment where
  contents : String → Except SystemError (List Byte)
  inputIsTerminal : Bool
  directives : Option String

namespace Session

def loadImages (environment : Environment) : List String → Action Machine Failure Unit
  | [] => pure ()
  | path :: paths => do
      let contents := (environment.contents path).mapError SystemError.text
      let placement ← (Machine.onMemory (Memory.loadFile path contents)).mapError
        (Failure.load path)
      Action.note (.imageAccepted path placement.origin placement.stored)
      loadImages environment paths

def listingMargin : Word := 4

def faultListing (machine : Machine) (fault : Fault) : List Event :=
  (machine.window listingMargin listingMargin).map fun row =>
    .faultRow row (if row.address = fault.pc then '>' else ' ')

def runImages : Action Machine Failure RunSummary := fun machine =>
  (Machine.run machine).bind fun
    | (.ok summary, machine) =>
        .note (.machineStopped summary) (.done (.ok summary, machine))
    | (.error fault, machine) =>
        Dialogue.notes (faultListing machine fault) (.done (.error (.fault fault), machine))

def perform (environment : Environment) (images : List String) :
    Action Machine Failure RunSummary := do
  loadImages environment images
  Action.note (if environment.inputIsTerminal then .inputMadeRaw else .inputKeptAsIs)
  runImages

def ofOptions (environment : Environment) (options : Options) :
    Dialogue (Except Failure RunSummary) :=
  (perform environment options.images (Machine.ofConfig options.config)).bind fun result =>
    .done result.1

end Session

namespace Options

def logLevel (options : Options) : Level :=
  match options.verbosity with
  | 0 => .warning
  | 1 => .info
  | 2 => .debug
  | _ => .trace

/-- Directives that cannot be read count for nothing. -/
def logFilter (options : Options) (environment : Environment) : Filter :=
  (environment.directives.bind Filter.parse?).getD (Filter.ofLevel options.logLevel)

end Options

end LittleComputer

import LittleComputer.CommandLine.Report

namespace LittleComputer

/-! The process: standard input and output as the console -/

def SystemError.ofError : IO.Error → SystemError
  | .noFileOrDirectory .. => noSuchFile
  | .alreadyExists _ code details | .interrupted _ code details
  | .invalidArgument _ code details | .permissionDenied _ code details
  | .resourceExhausted _ code details | .inappropriateType _ code details
  | .noSuchThing _ code details => ⟨details, some code.toNat⟩
  | .otherError code details | .resourceBusy code details | .resourceVanished code details
  | .unsupportedOperation code details | .hardwareFault code details
  | .unsatisfiedConstraints code details | .illegalOperation code details
  | .protocolError code details | .timeExpired code details => ⟨details, some code.toNat⟩
  | error => ⟨toString error, none⟩

abbrev ReadAhead : Type :=
  IO.Ref (Option (Task (Except IO.Error ByteArray)))

namespace ReadAhead

/-- The read under way. A new one gets a moment to find what is there. -/
def current (ahead : ReadAhead) : IO (Task (Except IO.Error ByteArray)) := do
  match ← ahead.get with
  | some task => return task
  | none => do
      let input ← IO.getStdin
      let task ← IO.asTask (input.read 1) .dedicated
      ahead.set (some task)
      IO.sleep 1
      return task

def take (ahead : ReadAhead) : IO (Except ConsoleFailure Byte) := do
  let task ← ahead.current
  let result := task.get
  ahead.set none
  match result with
  | .error error => return .error (.device (SystemError.ofError error).text)
  | .ok bytes =>
      match bytes.data.toList with
      | [] => return .error .closed
      | byte :: _ => return .ok byte

def poll (ahead : ReadAhead) : IO (Except ConsoleFailure (Option Byte)) := do
  let task ← ahead.current
  if ← IO.hasFinished task then
    return (← ahead.take).map some
  else
    return .ok none

end ReadAhead

def attempt (action : IO Unit) : IO (Except ConsoleFailure Unit) := do
  try
    action
    return .ok ()
  catch error =>
    return .error (.device (SystemError.ofError error).text)

def ReadAhead.answer (ahead : ReadAhead) : (request : Request) → IO (Answer request)
  | .poll => ahead.poll
  | .read => ahead.take
  | .write bytes => attempt do (← IO.getStdout).write ⟨bytes.toArray⟩
  | .flush => attempt do (← IO.getStdout).flush
  | .interrupt => return .ok ()

def Dialogue.perform {α : Type} (answer : (request : Request) → IO (Answer request))
    (note : Event → IO Unit) : Dialogue α → IO α
  | .done value => return value
  | .note event rest => do
      note event
      rest.perform answer note
  | .ask request next => do
      let reply ← answer request
      (next reply).perform answer note

def readImage (path : String) : IO (String × Except SystemError (List Byte)) := do
  try
    return (path, .ok (← IO.FS.readBinFile path).data.toList)
  catch error =>
    return (path, .error (SystemError.ofError error))

def runProgram (options : Options) : IO UInt32 := do
  let images ← options.images.mapM readImage
  let environment : Environment := {
    contents := fun path => (images.lookup path).getD (.error .noSuchFile)
    inputIsTerminal := ← (← IO.getStdin).isTty
    directives := ← IO.getEnv "RUST_LOG" }
  let filter := options.logFilter environment
  let ahead : ReadAhead ← IO.mkRef none
  let result ← (Session.ofOptions environment options).perform ahead.answer fun event => do
    if filter.admits event then
      IO.eprintln event.line
  match result with
  | .ok summary =>
      match summary.ending.exitCode with
      | some code => return UInt32.ofNat code
      | none => throw (IO.userError "the run goes on")
  | .error failure =>
      if failure.isInterruption then
        IO.println ""
      for line in failure.report do
        IO.eprintln line
      return UInt32.ofNat failure.exitCode

def runArguments (arguments : List String) : IO UInt32 := do
  match Options.parse arguments with
  | .ok options => runProgram options
  | .error refusal =>
      if refusal = .version then
        IO.print versionLine
      for line in refusal.message?.toList do
        IO.eprintln line
      return UInt32.ofNat refusal.exitCode

end LittleComputer

def main (arguments : List String) : IO UInt32 :=
  LittleComputer.runArguments arguments

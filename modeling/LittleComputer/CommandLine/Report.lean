import LittleComputer.CommandLine.Session
import LittleComputer.Console.Streams

namespace LittleComputer

/-! What a call of the program leaves behind -/

structure Report where
  /-- The program ends with none as long as its run goes on. -/
  exitCode : Option Nat
  output : List Byte
  messages : List String
  deriving DecidableEq

def Ending.exitCode : Ending → Option Nat
  | halted | limitReached => some 0
  | unfinished => none

/-- How the program makes out what it is asked for. -/
structure Reading where
  options : List String → Except Refusal Options
  admits : Environment → Options → Event → Bool

def Reading.standard : Reading where
  options := Options.parse
  admits environment options := (options.logFilter environment).admits

def versionLine : String := "lc3-vm 0.1.0\n"

namespace Streams

def print (streams : Streams) (text : String) : Streams :=
  if streams.outputFull then streams
  else { streams with shown := streams.shown ++ text.toUTF8.data.toList }

def finish (streams : Streams) : Streams :=
  if streams.outputFull then streams
  else { streams with shown := streams.shown ++ streams.buffered, buffered := #[] }

end Streams

namespace Report

def ofRefusal (refusal : Refusal) (streams : Streams) : Report where
  exitCode := some refusal.exitCode
  output :=
    match refusal with
    | .version => (streams.print versionLine).shown.toList
    | _ => streams.shown.toList
  messages := refusal.message?.toList

/-- After an interrupt the output ends its line. When there is no room even for that the
program gives up. -/
def ofResult (result : Except Failure RunSummary) (streams : Streams)
    (journal : List String) : Report :=
  let streams := streams.finish
  match result with
  | .ok summary => ⟨summary.ending.exitCode, streams.shown.toList, journal⟩
  | .error failure =>
      if failure.isInterruption then
        if streams.outputFull then
          ⟨some 101, streams.shown.toList,
            journal ++ ["failed printing to stdout: " ++ SystemError.noSpace.text]⟩
        else
          ⟨some failure.exitCode, (streams.print "\n").shown.toList, journal⟩
      else
        ⟨some failure.exitCode, streams.shown.toList, journal ++ failure.report⟩

def ofCall (reading : Reading) (environment : Environment) (streams : Streams)
    (arguments : List String) : Report :=
  match reading.options arguments with
  | .error refusal => ofRefusal refusal streams
  | .ok options =>
      let ((result, streams), journal) :=
        (Session.ofOptions environment options).record Streams.console
          (reading.admits environment options) streams #[]
      ofResult result streams (journal.toList.map Event.line)

end Report

end LittleComputer

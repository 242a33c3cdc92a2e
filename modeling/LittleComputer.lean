import LittleComputer.CommandLine.FileTree
import LittleComputer.Console.Failing
import LittleComputer.Console.Scripted
import LittleComputer.Image.Stream
import LittleComputer.Main
import LittleComputer.Text.Utf8
import LittleComputer.Proofs.Transcript
import LittleComputer.Proofs.Cycle
import LittleComputer.Proofs.Parts
import LittleComputer.Proofs.Frame
import LittleComputer.Proofs.Step
import LittleComputer.Proofs.Rounds
import LittleComputer.Proofs.Loop
import LittleComputer.Proofs.IteratedStepping
import LittleComputer.Proofs.PreciseFaults
import LittleComputer.Proofs.FaultMemory
import LittleComputer.Proofs.Architecture
import LittleComputer.Proofs.Residue
import LittleComputer.Proofs.Refinement
import LittleComputer.Proofs.Configuration
import LittleComputer.Proofs.Composition
import LittleComputer.Proofs.Calls
import LittleComputer.Proofs.Attempts
import LittleComputer.Proofs.Footprint
import LittleComputer.Proofs.ServiceCalls
import LittleComputer.Proofs.InputAccounting
import LittleComputer.Proofs.KeyboardCells
import LittleComputer.Proofs.ImageLoading
import LittleComputer.Proofs.FailingCalls
import LittleComputer.Proofs.ReportedFailures
import LittleComputer.Proofs.Flushing
import LittleComputer.Proofs.Instalments
import LittleComputer.Proofs.InstructionText
import LittleComputer.Proofs.Simulation
import LittleComputer.Proofs.Interruptions
import LittleComputer.Proofs.RunCalls
import LittleComputer.Proofs.Promptness
import LittleComputer.Proofs.Sessions
import LittleComputer.Proofs.StandardStreams
import LittleComputer.Proofs.ExitStatus
import LittleComputer.Proofs.Retirement
import LittleComputer.Proofs.Chronicle
import LittleComputer.Proofs.ConditionHistory
import LittleComputer.Proofs.ChangedCells
import LittleComputer.Proofs.LifeCycle
import LittleComputer.Proofs.ImageOverlay
import LittleComputer.Proofs.ListedFaults
import LittleComputer.Proofs.ReturnAddress
import LittleComputer.Proofs.HaltBanner
import LittleComputer.Proofs.UnreadMemory
import LittleComputer.Proofs.Consecutive
import LittleComputer.Proofs.StringOutput
import LittleComputer.Proofs.PackedStrings
import LittleComputer.Proofs.StreamedImages
import LittleComputer.Proofs.ListingWindows
import LittleComputer.Proofs.AddressGrammar
import LittleComputer.Proofs.Journals
import LittleComputer.Proofs.RunTranscript
import LittleComputer.Proofs.ExecutionTrace
import LittleComputer.Proofs.StartAndStop
import LittleComputer.Proofs.PrintedStrings
import LittleComputer.Proofs.SignExtension

import LittleComputer.Proofs.PreciseFaults
import LittleComputer.Proofs.ReportedFailures
import LittleComputer.Proofs.RunCalls
import LittleComputer.Proofs.Sessions
import LittleComputer.Proofs.Simulation

namespace LittleComputer

/-! What the exit code says -/

theorem Streams.answer_outputFull (request : Request) (streams : Streams) :
    (console.answer request streams).2.outputFull = streams.outputFull := by
  have hread : streams.readKey.2.outputFull = streams.outputFull := by
    unfold readKey
    split <;> rfl
  cases request with
  | poll =>
      change streams.pollKey.2.outputFull = streams.outputFull
      unfold pollKey
      split
      · rfl
      · exact hread
  | read => exact hread
  | write bytes => exact (streams.emits_write bytes).outputFull
  | flush => exact streams.emits_flush.outputFull
  | interrupt =>
      change streams.awaitSignal.outputFull = streams.outputFull
      unfold awaitSignal
      repeat' split
      all_goals rfl

theorem Streams.converse_outputFull {α : Type} (dialogue : Dialogue α) (streams : Streams) :
    (dialogue.converse console streams).2.outputFull = streams.outputFull := by
  rw [← Dialogue.after_calls]
  exact Console.after_of_invariant (fun later => later.outputFull = streams.outputFull)
    (fun request later hlater => (answer_outputFull request later).trans hlater) rfl _

def Environment.Misses (environment : Environment) (options : Options) : Prop :=
  ∃ path ∈ options.images, ∃ error, environment.image path = .error error

namespace Report

/-- How the exit code tells one result of a run from another. An interrupt is only told by a code
of its own where the output has room for the end of its line. -/
structure RunStatus (calls : List Call) (result : Except Fault RunSummary) (outputFull : Bool)
    (exitCode : Option Nat) : Prop where
  completed_iff : exitCode = some 0 ↔ ∃ summary, result = .ok summary ∧ summary.ending ≠ .unfinished
  unfinished_iff : exitCode = none ↔ ∃ summary, result = .ok summary ∧ summary.ending = .unfinished
  interrupted_iff : exitCode = some (if outputFull then 101 else 130) ↔
    ∃ pc, result = .error ⟨pc, .console .interrupted⟩
  /-- It does not matter which call the interrupt breaks off. -/
  surfaces_iff : (∃ pc, result = .error ⟨pc, .console .interrupted⟩) ↔
    ∃ request, ⟨request, .error .interrupted⟩ ∈ calls
  program_iff : exitCode = some 3 ↔ ∃ fault, result = .error fault ∧ fault.cause.kind = .program
  console_iff : exitCode = some 4 ↔ ∃ fault failure,
    result = .error fault ∧ fault.cause = .console failure ∧ failure ≠ .interrupted

structure ExitStatus {σ : Type} (environment : Environment) (options : Options)
    (console : Console σ) (state : σ) (outputFull : Bool) (exitCode : Option Nat) : Prop where
  misses_iff : exitCode = some 1 ↔ environment.Misses options
  untouched : environment.Misses options →
    (∃ path ∈ options.images, ∃ error, environment.image path = .error error ∧
        (Session.ofOptions environment options).converse console state =
          (.error (.load path error), state)) ∧
      (Session.ofOptions environment options).calls console state = [] ∧
      ∀ address word, .note (.fetched address word) ∉
        (Session.ofOptions environment options).transcript console state
  run : ¬ environment.Misses options → ∃ images,
    options.images.mapM environment.image = .ok images ∧
      RunStatus ((Machine.run (.holdingImages options.config images)).calls console state)
        ((Machine.run (.holdingImages options.config images)).converse console state).1.1
        outputFull exitCode

def codeOf (outputFull : Bool) : Except Fault RunSummary → Option Nat
  | .ok summary => summary.ending.exitCode
  | .error fault =>
      match fault.cause with
      | .illegal .. | .undefinedTrap _ => some 3
      | .console .interrupted => some (if outputFull then 101 else 130)
      | .console .closed | .console (.device _) => some 4

theorem exitCode_ofResult (result : Except Fault RunSummary) (streams : Streams)
    (journal : List String) :
    (ofResult (result.mapError .fault) streams journal).exitCode =
      codeOf streams.outputFull result := by
  rcases streams with ⟨_, outputFull, _, _, _, _⟩
  rcases result with ⟨pc, _ | _ | _ | _ | _⟩ | summary
  case error.console.interrupted => cases outputFull <;> rfl
  all_goals rfl

theorem codeOf_ne_one (outputFull : Bool) (result : Except Fault RunSummary) :
    codeOf outputFull result ≠ some 1 := by
  rcases result with ⟨pc, _ | _ | _ | _ | _⟩ | ⟨steps, _ | _ | _⟩ <;> cases outputFull <;>
    simp [codeOf, Ending.exitCode]

theorem ofResult_runStatus {calls : List Call} {result : Except Fault RunSummary}
    (hreported : Call.Reported Fault.cause calls result) (streams : Streams)
    (journal : List String) :
    RunStatus calls result streams.outputFull
      (ofResult (result.mapError .fault) streams journal).exitCode := by
  have hsurfaces : (∃ pc, result = .error ⟨pc, .console .interrupted⟩) ↔
      ∃ request, ⟨request, .error .interrupted⟩ ∈ calls := by
    rw [← hreported.console_iff .interrupted]
    constructor
    · intro ⟨pc, hresult⟩
      exact ⟨_, hresult, rfl⟩
    · rintro ⟨⟨pc, cause⟩, hresult, rfl⟩
      exact ⟨pc, hresult⟩
  rw [exitCode_ofResult]
  refine ⟨?_, ?_, ?_, hsurfaces, ?_, ?_⟩
  all_goals
    rcases result with ⟨pc, _ | _ | _ | _ | _⟩ | ⟨steps, _ | _ | _⟩ <;>
      cases streams.outputFull <;> simp [codeOf, Ending.exitCode, Fault.Cause.kind]

theorem ofResult_exitStatus {σ : Type} (environment : Environment) (options : Options)
    (console : Console σ) (state : σ) (streams : Streams) (journal : List String) :
    ExitStatus environment options console state streams.outputFull
      (ofResult ((Session.ofOptions environment options).converse console state).1 streams
        journal).exitCode := by
  obtain ⟨events, hevents, ⟨images, hload, hsession⟩ | ⟨path, error, hpath, herror, hsession⟩⟩ :=
    Session.ofOptions_eq environment options
  · have hfound : ¬ environment.Misses options := by
      intro ⟨path, hpath, error, herror⟩
      obtain ⟨image, himage⟩ := Session.image_of_mapM hload path hpath
      rw [himage] at herror
      cases herror
    have hstatus := ofResult_runStatus
      (Machine.run_reported console (.holdingImages options.config images) state) streams journal
    rw [hsession, Dialogue.converse_notes, Session.converse_outcome]
    have hcode : (ofResult (((Machine.run (.holdingImages options.config images)).converse console
        state).1.1.mapError .fault) streams journal).exitCode ≠ some 1 := by
      rw [exitCode_ofResult]
      exact codeOf_ne_one _ _
    exact ⟨iff_of_false hcode hfound, fun hmisses => absurd hmisses hfound,
      fun _ => ⟨images, hload, hstatus⟩⟩
  · have hmisses : environment.Misses options := ⟨path, hpath, error, herror⟩
    refine ⟨?_, fun _ => ⟨⟨path, hpath, error, herror, ?_⟩, ?_, fun address word => ?_⟩,
      fun hfound => absurd hmisses hfound⟩
    · rw [hsession, Dialogue.converse_notes]
      exact iff_of_true rfl hmisses
    · rw [hsession, Dialogue.converse_notes, Dialogue.converse_done]
    · rw [hsession, Dialogue.calls_notes, Dialogue.calls_done]
    · rw [hsession, Dialogue.transcript_notes, Dialogue.transcript_done, List.append_nil]
      intro hmem
      obtain ⟨event, hmem, hevent⟩ := List.mem_map.mp hmem
      cases hevent
      exact hevents address word hmem

/-- The exit code of an accepted call says whether all images were loaded, and then how the run
ended. So it does with any console in place of the streams, whichever of its calls fail. -/
theorem exit_status {reading : Reading} {arguments : List String} {options : Options}
    (hread : reading.options arguments = .ok options) (environment : Environment)
    (input : InputSource) (outputFull : Bool) (signal : Option Signal) :
    let streams : Streams := { input, outputFull, signal }
    let report := ofCall reading environment streams arguments
    ExitStatus environment options Streams.console streams outputFull report.exitCode ∧
      (environment.Misses options → report.output = []) ∧
      ∀ {σ : Type} (console : Console σ) (state : σ) (final : Streams) (journal : List String),
        ExitStatus environment options console state final.outputFull
          (ofResult ((Session.ofOptions environment options).converse console state).1 final
            journal).exitCode := by
  intro streams report
  obtain ⟨journal, hreport⟩ : ∃ journal, report = ofResult
      ((Session.ofOptions environment options).converse Streams.console streams).1
      ((Session.ofOptions environment options).converse Streams.console streams).2 journal :=
    ofCall_accepted environment streams hread
  have hstatus := ofResult_exitStatus environment options Streams.console streams
    ((Session.ofOptions environment options).converse Streams.console streams).2 journal
  rw [Streams.converse_outputFull, ← hreport] at hstatus
  refine ⟨hstatus, fun hmisses => ?_, fun console state final journal =>
    ofResult_exitStatus environment options console state final journal⟩
  obtain ⟨⟨path, _, error, _, hsession⟩, _⟩ := hstatus.untouched hmisses
  rw [hreport, hsession]
  cases outputFull <;> rfl

end Report

end LittleComputer

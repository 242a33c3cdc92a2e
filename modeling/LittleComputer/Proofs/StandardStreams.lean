import LittleComputer.CommandLine.Report
import LittleComputer.Proofs.Composition
import LittleComputer.Proofs.ReportedFailures
import LittleComputer.Proofs.RunCalls
import LittleComputer.Proofs.Sessions
import LittleComputer.Proofs.Simulation

namespace LittleComputer

/-! The program on standard streams and the machine on a script -/

theorem Call.none_mem_found_iff {calls : List Call} :
    none ∈ found calls ↔ ∃ call ∈ calls, call.found? = some none :=
  List.mem_filterMap

namespace Script

theorem answer_found_none {request : Request} {script : Script}
    (hfound : Call.found? ⟨request, (console.answer request script).1⟩ = some none) :
    request = .poll ∧ script.input = [] := by
  rcases script with ⟨input, output, interruptPending, flushes⟩
  cases request with
  | poll =>
      cases input with
      | nil => exact ⟨rfl, rfl⟩
      | cons key input => cases hfound
  | read | write | flush | interrupt => cases hfound

theorem answer_poll {script : Script} (hinput : script.input = []) :
    console.answer .poll script = (.ok none, script) := by
  simp [console, answer, hinput]

theorem uninterrupted {α : Type} {dialogue : Dialogue α} {script : Script}
    (hunraised : script.interruptPending = false) (request : Request) :
    ⟨request, .error .interrupted⟩ ∉ dialogue.calls console script := by
  intro hmem
  cases failing_call_unraised hunraised hmem (Call.fails_error request .interrupted)

end Script

/-- The streams read a file with the bytes that the script has left, nothing disturbs them, and
what is written to them is what the script was told, flushed or not. -/
structure Mirrors (script : Script) (streams : Streams) : Prop where
  input : streams.input = .file script.input
  room : streams.outputFull = false
  unsignalled : streams.signal = none
  uninterrupted : streams.interrupted = false
  unraised : script.interruptPending = false
  output : streams.written = script.output

namespace Mirrors

variable {script : Script} {streams : Streams}

theorem started (bytes : List Byte) : Mirrors { input := bytes } { input := .file bytes } :=
  ⟨rfl, rfl, rfl, rfl, rfl, rfl⟩

theorem exists_eq (hmirrors : Mirrors script streams) :
    ∃ input buffered shown flushes,
      streams = { input := .file input, buffered := buffered, shown := shown } ∧
        script = { input := input, output := shown ++ buffered, flushes := flushes } := by
  obtain ⟨hinput, hroom, hsignal, hinterrupted, hraised, houtput⟩ := hmirrors
  rcases streams with ⟨source, outputFull, signal, buffered, shown, interrupted⟩
  rcases script with ⟨input, output, interruptPending, flushes⟩
  obtain rfl : source = .file input := hinput
  obtain rfl : outputFull = false := hroom
  obtain rfl : signal = none := hsignal
  obtain rfl : interrupted = false := hinterrupted
  obtain rfl : interruptPending = false := hraised
  obtain rfl : shown ++ buffered = output := houtput
  exact ⟨input, buffered, shown, flushes, rfl, rfl⟩

theorem emitted {after : Streams} (hmirrors : Mirrors script streams)
    (hemits : streams.Emits after) {output : Array Byte} (houtput : after.written = output)
    (flushes : Nat) : Mirrors { script with output := output, flushes := flushes } after where
  input := hemits.input.trans hmirrors.input
  room := hemits.outputFull.trans hmirrors.room
  unsignalled := hemits.signal.trans hmirrors.unsignalled
  uninterrupted := hemits.interrupted.trans hmirrors.uninterrupted
  unraised := hmirrors.unraised
  output := houtput

theorem imitates :
    Streams.console.Imitates Script.console Mirrors fun call => call.found? ≠ some none := by
  intro request script streams hmirrors hallowed
  cases request with
  | poll =>
      obtain ⟨input, _, _, _, rfl, rfl⟩ := hmirrors.exists_eq
      cases input with
      | nil => exact absurd rfl hallowed
      | cons key input => exact ⟨rfl, rfl, rfl, rfl, rfl, rfl, rfl⟩
  | read =>
      obtain ⟨input, _, _, _, rfl, rfl⟩ := hmirrors.exists_eq
      cases input <;> exact ⟨rfl, rfl, rfl, rfl, rfl, rfl, rfl⟩
  | write bytes =>
      obtain ⟨hwrites, hwritten⟩ := Streams.write_of_room hmirrors.room bytes
      rw [hmirrors.output] at hwritten
      exact ⟨hwrites, hmirrors.emitted (streams.emits_write bytes) hwritten script.flushes⟩
  | flush =>
      obtain ⟨hflushes, hwritten⟩ := Streams.flush_of_room hmirrors.room
      rw [hmirrors.output] at hwritten
      exact ⟨hflushes, hmirrors.emitted streams.emits_flush hwritten (script.flushes + 1)⟩
  | interrupt =>
      obtain ⟨input, _, _, _, rfl, rfl⟩ := hmirrors.exists_eq
      exact ⟨rfl, rfl, rfl, rfl, rfl, rfl, rfl⟩

/-- Where a poll finds no character the streams end the conversation, and are left as they were
before it. -/
theorem answer_poll (hmirrors : Mirrors script streams) (hinput : script.input = []) :
    Streams.console.answer .poll streams = (.error .closed, streams) := by
  have hfile := hmirrors.input
  rw [hinput] at hfile
  simp [Streams.console, Streams.answer, Streams.pollKey, Streams.readKey, hfile, Except.map]

theorem parted {α : Type} {dialogue : Dialogue α} (hmirrors : Mirrors script streams)
    (hfound : none ∈ Call.found (dialogue.calls Script.console script)) :
    ∃ earlier later rest,
      dialogue.calls Script.console script = earlier ++ ⟨.poll, .ok none⟩ :: later ∧
        dialogue.calls Streams.console streams = earlier ++ ⟨.poll, .error .closed⟩ :: rest ∧
        none ∉ Call.found earlier ∧
        Mirrors (Script.console.after script earlier)
          (Streams.console.after streams (earlier ++ [⟨.poll, .error .closed⟩])) := by
  rw [Call.none_mem_found_iff] at hfound
  have hparts : ¬ ∀ call ∈ dialogue.calls Script.console script, call.found? ≠ some none := by
    obtain ⟨call, hmem, hnone⟩ := hfound
    exact fun hcalls => hcalls call hmem hnone
  obtain ⟨earlier, request, later, rest, hscript, hstreams, hearlier, hparted, hbefore⟩ :=
    Dialogue.calls_parted imitates hmirrors hparts
  have hunfound : none ∉ Call.found earlier := by
    rw [Call.none_mem_found_iff]
    exact fun ⟨call, hmem, hnone⟩ => hearlier call hmem hnone
  obtain ⟨rfl, hinput⟩ := Script.answer_found_none (Decidable.not_not.mp hparted)
  have hpolled := hbefore.answer_poll hinput
  rw [Script.answer_poll hinput] at hscript
  rw [hpolled] at hstreams
  refine ⟨earlier, later, rest, hscript, hstreams, hunfound, ?_⟩
  rw [Console.after_append, Console.after, hpolled]
  exact hbefore

end Mirrors

namespace Machine

variable {machine : Machine} {script : Script} {streams : Streams}

theorem rounds_mirrored (hmirrors : Mirrors script streams) {count : Nat} {reached : Machine}
    {between : Script} (hreaches : RoundsReach Script.console machine script count reached between)
    (hfound : none ∉ Call.found ((rounds count machine).calls Script.console script)) :
    ∃ beside, RoundsReach Streams.console machine streams count reached beside ∧
      Mirrors between beside := by
  have hcalls : ∀ call ∈ (rounds count machine).calls Script.console script,
      call.found? ≠ some none :=
    fun call hmem hnone => hfound (Call.none_mem_found_iff.mpr ⟨call, hmem, hnone⟩)
  obtain ⟨hvalue, _, hafter⟩ := Dialogue.converse_imitated Mirrors.imitates hmirrors hcalls
  rw [hreaches] at hvalue hafter
  exact ⟨_, Prod.ext hvalue rfl, hafter⟩

theorem round_closed (hmirrors : Mirrors script streams)
    (hfound : none ∈ Call.found ((round machine).calls Script.console script)) :
    ∃ final left, (round machine).converse Streams.console streams =
      ((.error ⟨machine.registers.pc, .console .closed⟩, final), left) := by
  obtain ⟨earlier, _, rest, _, hcalls, _⟩ := hmirrors.parted hfound
  have hreported := (round_reports machine).converse Streams.console streams
  rcases hround : (round machine).converse Streams.console streams with ⟨⟨result, final⟩, left⟩
  rw [hround] at hreported
  have hmem : ⟨.poll, .error .closed⟩ ∈ (round machine).calls Streams.console streams :=
    hcalls ▸ List.mem_append_right _ List.mem_cons_self
  obtain ⟨⟨pc, cause⟩, hresult, hcause⟩ := (hreported.console_iff .closed).mpr ⟨.poll, hmem⟩
  obtain rfl : result = .error ⟨pc, cause⟩ := hresult
  obtain rfl : cause = .console .closed := hcause
  obtain ⟨_, _, hpc⟩ := withdrawn_of_round hround
  obtain rfl : pc = machine.registers.pc := hpc
  exact ⟨final, left, rfl⟩

theorem run_closed (hmirrors : Mirrors script streams)
    (hfound : none ∈ Call.found ((run machine).calls Script.console script)) :
    ∃ earlier later count reached between rest final left,
      (run machine).calls Script.console script = earlier ++ ⟨.poll, .ok none⟩ :: later ∧
        none ∉ Call.found earlier ∧
        Underway Script.console machine script (earlier ++ [⟨.poll, .ok none⟩]) count reached
          between rest ∧
        (run machine).converse Streams.console streams =
          ((.error ⟨reached.registers.pc, .console .closed⟩, final), left) ∧
        Mirrors (Script.console.after script earlier) left := by
  obtain ⟨earlier, later, rest, hscript, hstreams, hearlier, hafter⟩ := hmirrors.parted hfound
  have hsplit : (run machine).calls Script.console script =
      (earlier ++ [⟨.poll, .ok none⟩]) ++ later := by simpa using hscript
  obtain ⟨count, reached, between, further, hunderway, hcount⟩ :=
    run_underway hsplit (by simp)
  obtain ⟨begun, rfl, hround⟩ := hunderway.last
  have hbefore := hearlier
  rw [Call.found_append, List.mem_append, not_or] at hbefore
  obtain ⟨beside, hbesides, hbeside⟩ := rounds_mirrored hmirrors hunderway.reaches hbefore.1
  have hpolled : none ∈ Call.found ((round reached).calls Script.console between) := by
    rw [hround]
    simp [Call.found, Call.found?]
  obtain ⟨final, left, hfault⟩ := round_closed hbeside hpolled
  have hrun := run_faulted hbesides hunderway.running hcount hfault
  -- The failing poll is the last call of the run, so the streams stay as it has left them.
  obtain ⟨rfl, _⟩ := (run_reported Streams.console machine streams).last hstreams
    (Call.fails_error .poll .closed)
  have hleft := Dialogue.after_calls Streams.console (run machine) streams
  rw [hstreams, hrun] at hleft
  rw [hleft] at hafter
  exact ⟨_, later, count, reached, between, further, final, left, hscript, hearlier,
    hunderway, hrun, hafter⟩

end Machine

theorem Effect.execute_ldi_status {machine : Machine} {address : Word} (destination : Register)
    (offset word : Word) (haddress : machine.registers.pcRelative offset = address)
    (hplain : address ≠ DeviceCell.keyboardStatus.address)
    (hpointer : machine.memory.peek address = DeviceCell.keyboardStatus.address) :
    ∃ next, execute (.ldi destination offset) word machine = .ask .poll next := by
  simp only [execute, registers, Action.bind_apply, Action.inspect_apply, Dialogue.bind_done,
    haddress, load_plain hplain, hpointer, load_status, Dialogue.bind_ask]
  exact ⟨_, rfl⟩

namespace Machine

def haltingAtOnce : Machine :=
  holding {} [0xF025]

def pollingAtOnce : Machine :=
  holding {} [0xA000, 0xFE00]

theorem round_haltingAtOnce : ∃ final left,
    (round haltingAtOnce).converse Script.console { input := [] } = ((.ok .halted, final), left) ∧
      final.status = .halted ∧ left.output = TrapService.banner.toUTF8.data ∧
      Call.found ((round haltingAtOnce).calls Script.console { input := [] }) = [] := by
  have hrequests : haltingAtOnce.Requests .halt := requests_holding (by decide)
  rw [converse_round rfl, calls_round rfl, step_requested hrequests]
  exact ⟨_, _, rfl, rfl, rfl, rfl⟩

theorem polls_pollingAtOnce :
    ⟨.poll, .ok none⟩ ∈ (step pollingAtOnce).calls Script.console { input := [] } := by
  have hword : pollingAtOnce.memory.peek 0x3000 = 0xA000 := by
    simp [pollingAtOnce, holding, ofConfig, Memory.writeWords, Region.first, Memory.peek_write]
  have hpointer : pollingAtOnce.memory.peek 0x3001 = DeviceCell.keyboardStatus.address := by
    simp [pollingAtOnce, holding, ofConfig, Memory.writeWords, Region.first, DeviceCell.address]
  have hdecode : Instruction.decode 0xA000 = .ldi .r0 0 := by decide
  have haddress : (pollingAtOnce.mapRegisters RegisterFile.advance).registers.pcRelative 0 =
    0x3001 := by decide
  obtain ⟨next, hexecute⟩ :=
    Effect.execute_ldi_status .r0 0 0xA000 haddress (by decide) hpointer
  rw [step_plain rfl (by decide) hword, hdecode, hexecute]
  exact List.mem_cons_self

end Machine

namespace Report

/-- The report says that a run, which nothing has interrupted, ended with this result and wrote
this output. -/
structure Shows (report : Report) (result : Except Fault RunSummary) (output : Array Byte) :
    Prop where
  output : report.output = output.toList
  completed : ∀ summary, result = .ok summary → summary.ending ≠ .unfinished →
    report.exitCode = some 0
  unfinished : ∀ summary, result = .ok summary → summary.ending = .unfinished →
    report.exitCode = none
  program : ∀ fault, result = .error fault → fault.cause.kind = .program →
    report.exitCode = some 3
  console : ∀ fault, result = .error fault → fault.cause.kind = .console →
    report.exitCode = some 4
  told : ∀ fault, result = .error fault → ∃ journal, report.messages = journal ++ [fault.message]

theorem ofResult_fault {fault : Fault} (hplain : fault.isInterruption = false)
    (streams : Streams) (journal : List String) :
    ofResult ((.error fault : Except Fault RunSummary).mapError .fault) streams journal =
      ⟨some (Failure.fault fault).exitCode, streams.finish.shown.toList,
        journal ++ [fault.message]⟩ := by
  have hreport : (Failure.fault fault).report = [fault.message] :=
    if_neg (by rw [hplain]; decide)
  rw [← hreport]
  exact if_neg (by rw [Failure.isInterruption, hplain]; decide)

theorem ofResult_shows {script : Script} {streams : Streams} (hmirrors : Mirrors script streams)
    {result : Except Fault RunSummary}
    (huninterrupted : ∀ fault, result = .error fault → fault.cause ≠ .console .interrupted)
    (journal : List String) :
    (ofResult (result.mapError .fault) streams journal).Shows result script.output := by
  have hshown : streams.finish.shown = script.output := by
    rw [Streams.finish, if_neg (by simp [hmirrors.room]), ← hmirrors.output, Streams.written]
  cases result with
  | ok summary =>
      refine ⟨congrArg Array.toList hshown, ?_, ?_, ?_, ?_, ?_⟩ <;> rintro _ ⟨⟩
      · intro hfinished
        rcases summary with ⟨steps, ending⟩
        cases ending with
        | halted | limitReached => rfl
        | unfinished => exact absurd rfl hfinished
      · intro hunfinished
        exact congrArg Ending.exitCode hunfinished
  | error fault =>
      have hplain : fault.isInterruption = false := by
        simpa [Fault.isInterruption] using huninterrupted fault rfl
      rw [ofResult_fault hplain]
      refine ⟨congrArg Array.toList hshown, ?_, ?_, ?_, ?_, ?_⟩ <;> rintro _ ⟨⟩
      · intro hkind
        simp [Failure.exitCode, hplain, hkind]
      · intro hkind
        simp [Failure.exitCode, hplain, hkind]
      · exact ⟨journal, rfl⟩

/-- With a file as its input the program does what the machine that holds the images does with
the bytes of the file as its script, up to the first poll that finds no character. There the
program ends. -/
theorem ofCall_agrees {reading : Reading} {environment : Environment} {arguments : List String}
    {options : Options} {images : List Image} (hread : reading.options arguments = .ok options)
    (hload : options.images.mapM environment.image = .ok images) (bytes : List Byte) :
    let machine := Machine.holdingImages options.config images
    let script : Script := { input := bytes }
    let report := ofCall reading environment { input := .file bytes } arguments
    (none ∉ Call.found ((Machine.run machine).calls Script.console script) →
      report.Shows ((Machine.run machine).converse Script.console script).1.1
        ((Machine.run machine).converse Script.console script).2.output) ∧
    (none ∈ Call.found ((Machine.run machine).calls Script.console script) →
      ∃ earlier later count reached between rest,
        (Machine.run machine).calls Script.console script =
            earlier ++ ⟨.poll, .ok none⟩ :: later ∧
          none ∉ Call.found earlier ∧
          Machine.Underway Script.console machine script (earlier ++ [⟨.poll, .ok none⟩]) count
            reached between rest ∧
          report.Shows (.error ⟨reached.registers.pc, .console .closed⟩)
            (Script.console.after script earlier).output) := by
  intro machine script report
  have hmirrors : Mirrors script { input := .file bytes } := .started bytes
  obtain ⟨journal, hreport⟩ : ∃ journal, report = ofResult
      (((Machine.run machine).converse Streams.console { input := .file bytes }).1.1.mapError
        .fault)
      ((Machine.run machine).converse Streams.console { input := .file bytes }).2 journal :=
    ofCall_loaded _ hread hload
  constructor
  · intro hfound
    have hcalls : ∀ call ∈ (Machine.run machine).calls Script.console script,
        call.found? ≠ some none :=
      fun call hmem hnone => hfound (Call.none_mem_found_iff.mpr ⟨call, hmem, hnone⟩)
    obtain ⟨hvalue, _, hafter⟩ := Dialogue.converse_imitated Mirrors.imitates hmirrors hcalls
    rw [hreport, hvalue]
    refine ofResult_shows hafter (fun fault hfault hcause => ?_) journal
    obtain ⟨request, hmem⟩ := ((Machine.run_reported Script.console machine script).console_iff
      .interrupted).mp ⟨fault, hfault, hcause⟩
    exact Script.uninterrupted rfl request hmem
  · intro hfound
    obtain ⟨earlier, later, count, reached, between, rest, final, left, hcalls, hearlier,
      hunderway, hrun, hafter⟩ := Machine.run_closed hmirrors hfound
    refine ⟨earlier, later, count, reached, between, rest, hcalls, hearlier, hunderway, ?_⟩
    rw [hreport, hrun]
    exact ofResult_shows hafter (by rintro _ ⟨⟩; nofun) journal

theorem halt_and_closed_poll :
    (ofCall .standard (.ofFile [0x30, 0x00, 0xF0, 0x25]) { input := .file [] } ["a.obj"]).output =
        TrapService.banner.toUTF8.data.toList ∧
      ∃ pc output,
        (ofCall .standard (.ofFile [0x30, 0x00, 0xA0, 0x00, 0xFE, 0x00]) { input := .file [] }
          ["a.obj"]).Shows (.error ⟨pc, .console .closed⟩) output := by
  have hread : Reading.standard.options ["a.obj"] = .ok { images := ["a.obj"] } := rfl
  have hconfig : Options.config { images := ["a.obj"] } = {} := rfl
  constructor
  · have hload : ["a.obj"].mapM (Environment.ofFile [0x30, 0x00, 0xF0, 0x25]).image =
        .ok [⟨0x3000, [0xF025], false⟩] := rfl
    have hmachine : Machine.holdingImages {} [⟨0x3000, [0xF025], false⟩] = .haltingAtOnce :=
      Machine.holdingImages_program (by decide)
    obtain ⟨final, left, hround, hhalted, houtput, hfound⟩ := Machine.round_haltingAtOnce
    obtain ⟨hrun, hcalls⟩ := Machine.run_once rfl (by decide) hround hhalted
    obtain ⟨hagrees, _⟩ := ofCall_agrees hread hload []
    rw [hconfig, hmachine, hcalls, hfound, hrun] at hagrees
    rw [(hagrees nofun).output, houtput]
  · have hload :
        ["a.obj"].mapM (Environment.ofFile [0x30, 0x00, 0xA0, 0x00, 0xFE, 0x00]).image =
          .ok [⟨0x3000, [0xA000, 0xFE00], false⟩] := rfl
    have hmachine :
        Machine.holdingImages {} [⟨0x3000, [0xA000, 0xFE00], false⟩] = .pollingAtOnce :=
      Machine.holdingImages_program (by decide)
    obtain ⟨later, hcalls⟩ := Machine.exists_calls_run .pollingAtOnce rfl (by decide)
      Script.console { input := [] }
    obtain ⟨_, hagrees⟩ := ofCall_agrees hread hload []
    rw [hconfig, hmachine, hcalls, Machine.calls_round rfl, Call.none_mem_found_iff] at hagrees
    obtain ⟨_, _, _, _, _, _, _, _, _, hshows⟩ := hagrees ⟨_,
      List.mem_append_left _ (List.mem_cons_of_mem _ Machine.polls_pollingAtOnce), rfl⟩
    exact ⟨_, _, hshows⟩

end Report

end LittleComputer

import LittleComputer.Console.Scripted
import LittleComputer.Proofs.Interruptions
import LittleComputer.Proofs.ListedFaults
import LittleComputer.Proofs.RunTranscript

namespace LittleComputer

/-! How a run starts and stops in the journal -/

def Call.BreaksOff (call : Call) : Prop :=
  ∃ error, call = ⟨.interrupt, .error error⟩

theorem Call.not_breaksOff_ok : ¬ BreaksOff ⟨.interrupt, .ok ()⟩ := by
  rintro ⟨error, heq⟩
  cases heq

def Event.debugged (event : Event) : Bool :=
  event.level.within .debug

theorem Fetching.untraced (fetching : Fetching) : fetching.trace.filter Event.debugged = [] := by
  have hkey : ∀ key, Event.debugged (.keyLatched key) = false := fun _ => rfl
  have hevent : ¬ fetching.event.debugged = true := Bool.false_ne_true
  rw [trace, List.filter_append, List.filter_cons_of_neg hevent,
    Call.filter_latches_of_dropped hkey, Call.filter_latches_of_dropped hkey, List.append_nil]

theorem Script.unbroken {α : Type} (dialogue : Dialogue α) {script : Script}
    (hscript : script.interruptPending = false) :
    ∀ call ∈ dialogue.calls Script.console script, ¬ Call.BreaksOff call := by
  rintro call hmem ⟨error, rfl⟩
  cases failing_call_unraised hscript hmem (Call.fails_error .interrupt error)

namespace Machine

variable {σ : Type} {console : Console σ} {machine reached : Machine} {state between : σ}
  {steps : Nat} {outcome : (Except Fault RunSummary × Machine) × σ} {closing : List Moment}

theorem Opens.unbroken {fetching : Fetching} (hopens : Opens console machine state fetching) :
    ∀ call ∈ fetching.before ++ fetching.later, ¬ Call.BreaksOff call := by
  have hword := hopens.word
  rw [← hopens.calls]
  rcases hcheck : console.answer .interrupt state with ⟨error | _, checked⟩
  · simp [opening, hcheck] at hword
  · rw [calls_round hcheck, List.forall_mem_cons]
    refine ⟨Call.not_breaksOff_ok, ?_⟩
    rintro call hmem ⟨error, rfl⟩
    exact (step_unchecked machine).converse console checked _ hmem rfl

inductive StopNoted (steps : Nat) : Except Fault RunSummary × Machine → Event → Prop
  | stopped {ending : Ending} {final : Machine} :
      StopNoted steps (.ok ⟨steps, ending⟩, final)
        (.runStopped final.registers.pc ⟨steps, ending⟩)
  | faulted {fault : Fault} {final : Machine} (hpc : fault.pc = final.registers.pc) :
      StopNoted steps (.error fault, final) (.runFaulted fault steps)

/-- The end of a run, which is noted unless it is a check that failed. -/
inductive ClosingNoted (steps : Nat) : Except Fault RunSummary × Machine → List Moment → Prop
  | noted {result : Except Fault RunSummary × Machine} {moments : List Moment} {stop : Event}
      (hcalls : ∀ call ∈ Moment.calls moments, ¬ Call.BreaksOff call)
      (hevents : (Moment.events moments).filter Event.debugged = [stop])
      (hstop : StopNoted steps result stop) : ClosingNoted steps result moments
  | broken {error : ConsoleFailure} {final : Machine} :
      ClosingNoted steps (.error ⟨final.registers.pc, .console error⟩, final)
        [.exchange .interrupt (.error error)]

theorem Closing.noted (hclosing : Closing console steps reached between outcome closing) :
    ClosingNoted steps outcome.1 closing := by
  cases hclosing with
  | halted | exhausted => exact .noted nofun rfl .stopped
  | broken => exact .broken
  | @faulted fault final left moments hround hchecked hmoments =>
      have hwithdrawn := withdrawn_of_round hround
      have hpc : fault.pc = final.registers.pc := by
        rw [hwithdrawn.pc, hwithdrawn.registers]
      cases hmoments with
      | broken hcheck =>
          rw [hcheck] at hchecked
          cases hchecked
      | unfetched =>
          refine .noted ?_ rfl (.faulted hpc)
          simp [Call.BreaksOff]
      | @fetched fetching _ hopens =>
          refine .noted ?_ ?_ (.faulted hpc)
          · simpa using hopens.unbroken
          · rw [Moment.events_append, List.filter_append, Fetching.events_moments,
              fetching.untraced]
            rfl

/-- The journal of a run holds its start and its stop, unless a check for interrupts failed. Then
the run ends with a fault and the journal does not say so. -/
theorem start_and_stop (console : Console σ) (machine : Machine) (state : σ) :
    let outcome := (run machine).converse console state
    let calls := (run machine).calls console state
    let journal := (run machine).journal console Event.debugged state
    let start := Event.runStarted machine.registers.pc machine.config.limit
    ∃ steps reached between,
      RoundsReach console machine state steps reached between ∧
      outcome.1.2.retired = machine.retired + UInt64.ofNat steps ∧
      ((∀ call ∈ calls, ¬ Call.BreaksOff call) →
        ∃ stop, journal = [start, stop] ∧ StopNoted steps outcome.1 stop) ∧
      ((∃ call ∈ calls, Call.BreaksOff call) → journal = [start] ∧
        ∃ error, outcome.1.1 = .error ⟨outcome.1.2.registers.pc, .console error⟩) := by
  obtain ⟨completed, reached, between, closing, hreaches, hretired, hopened, hclosing,
    htranscript⟩ := run_transcript console machine state
  have hcalls : (run machine).calls console state =
      (completed.flatMap fun fetching => fetching.before ++ fetching.later) ++
        Moment.calls closing := by
    rw [Dialogue.calls, htranscript, Moment.calls_note, Moment.calls_append,
      Fetching.calls_flatMap]
  have hunbroken : ∀ call ∈ completed.flatMap fun fetching => fetching.before ++ fetching.later,
      ¬ Call.BreaksOff call := by
    intro call hcall
    obtain ⟨fetching, hmem, hcall⟩ := List.mem_flatMap.mp hcall
    obtain ⟨current, since, hfetching⟩ := hopened.exists_of_mem hmem
    exact hfetching.unbroken call hcall
  have hjournal : (run machine).journal console Event.debugged state =
      .runStarted machine.registers.pc machine.config.limit ::
        (Moment.events closing).filter Event.debugged := by
    have huntraced : (completed.flatMap Fetching.trace).filter Event.debugged = [] := by
      rw [List.filter_flatMap, List.flatMap_eq_nil_iff]
      exact fun fetching _ => fetching.untraced
    rw [Dialogue.journal_eq, htranscript, Moment.events_note, Moment.events_append,
      Fetching.events_flatMap, List.filter_cons_of_pos rfl, List.filter_append, huntraced,
      List.nil_append]
  refine ⟨completed.length, reached, between, hreaches, hretired, ?_⟩
  rw [hcalls, hjournal]
  have hnoted := hclosing.noted
  generalize ((run machine).converse console state).1 = result at hnoted ⊢
  cases hnoted with
  | @noted _ _ stop hlast hevents hstop =>
      refine ⟨fun _ => ⟨stop, by rw [hevents], hstop⟩, ?_⟩
      rintro ⟨call, hmem, hbreaks⟩
      rcases List.mem_append.mp hmem with hearlier | hclosing
      · exact absurd hbreaks (hunbroken call hearlier)
      · exact absurd hbreaks (hlast call hclosing)
  | @broken error final =>
      refine ⟨fun hchecks => ?_, fun _ => ⟨rfl, error, rfl⟩⟩
      exact absurd ⟨error, rfl⟩ (hchecks _ (List.mem_append_right _ List.mem_cons_self))

theorem start_and_stop_of_refused :
    let machine : Machine := .holding {} [0xD000]
    (∀ call ∈ (run machine).calls Script.console { input := [] }, ¬ Call.BreaksOff call) ∧
      ∃ stop, (run machine).journal Script.console Event.debugged { input := [] } =
          [.runStarted 0x3000 none, stop] ∧
        ∃ steps, stop = .runFaulted ⟨0x3000, .illegal .res 0xD000⟩ steps := by
  intro machine
  have hword : machine.memory.peek 0x3000 = 0xD000 := Memory.peek_write_self Memory.empty _ _
  have hstep : (step machine).converse Script.console { input := [] } =
      ((.error ⟨0x3000, .illegal .res 0xD000⟩, machine), { input := [] }) :=
    step_refused rfl (by decide) hword (by decide)
  have hrun : (run machine).converse Script.console { input := [] } =
      ((.error ⟨0x3000, .illegal .res 0xD000⟩, machine), { input := [] }) :=
    run_faulted (roundsReach_zero_iff.mpr ⟨rfl, rfl⟩) rfl (by decide)
      ((converse_round rfl machine).trans hstep)
  have hchecks : ∀ call ∈ (run machine).calls Script.console { input := [] },
      ¬ Call.BreaksOff call := Script.unbroken (run machine) rfl
  obtain ⟨steps, _, _, _, _, hnoted, _⟩ := start_and_stop Script.console machine { input := [] }
  obtain ⟨stop, hjournal, hstop⟩ := hnoted hchecks
  refine ⟨hchecks, stop, hjournal, ?_⟩
  rw [hrun] at hstop
  cases hstop
  exact ⟨steps, rfl⟩

/-- A run that is broken off before its first instruction starts in the journal and never stops. -/
theorem start_without_stop :
    let machine : Machine := .holding {} [0x0FFF]
    let interrupted : Script := { input := [], interruptPending := true }
    (∃ left, (run machine).converse Script.console interrupted =
      ((.error ⟨0x3000, .console .interrupted⟩, machine), left)) ∧
    (run machine).journal Script.console Event.debugged interrupted =
      [.runStarted 0x3000 none] := by
  intro machine interrupted
  have hbudget : machine.config.budget = UInt64.size - 1 + 1 := rfl
  have hround : (round machine).converse Script.console interrupted =
      ((.error ⟨0x3000, .console .interrupted⟩, machine), { input := [] }) := rfl
  have htranscript : (run machine).transcript Script.console interrupted =
      [.note (.runStarted 0x3000 none), .exchange .interrupt (.error .interrupted)] := by
    rw [run, Dialogue.transcript_note, hbudget, transcript_runFor_succ rfl, hround]
    rfl
  refine ⟨⟨{ input := [] }, ?_⟩, ?_⟩
  · rw [run_eq_runFor, hbudget, runFor_succ rfl, hround]
  · rw [Dialogue.journal_eq, htranscript]
    rfl

end Machine

end LittleComputer

import LittleComputer.Proofs.RunTranscript

namespace LittleComputer

/-! The trace of a run -/

def Event.tracedBy (target : String) (event : Event) : Bool :=
  event.level = .trace && event.target = target

theorem Event.tracedBy_of_level {target : String} (event : Event) (hlevel : event.level ≠ .trace) :
    event.tracedBy target = false := by
  simp [tracedBy, hlevel]

namespace Fetching

def line (fetching : Fetching) : String :=
  fetching.address.hex ++ ": " ++ fetching.word.hex ++ "  " ++
    (Instruction.decode fetching.word).text

variable (fetching : Fetching)

theorem traced : fetching.trace.filter (·.level = .trace) = fetching.trace := by
  rw [trace, List.filter_append, List.filter_cons_of_pos rfl,
    Call.filter_latches_of_kept fun _ => rfl, Call.filter_latches_of_kept fun _ => rfl]

theorem executed :
    fetching.trace.filter (Event.tracedBy "lc3_core::execute") = [fetching.event] := by
  have hkey : ∀ key, Event.tracedBy "lc3_core::execute" (.keyLatched key) = false := fun _ => rfl
  rw [trace, List.filter_append, List.filter_cons_of_pos rfl,
    Call.filter_latches_of_dropped hkey, Call.filter_latches_of_dropped hkey, List.nil_append]

theorem latched :
    fetching.trace.filter (Event.tracedBy "lc3_core::memory") =
      Call.latches (fetching.before ++ fetching.later) := by
  have hevent : ¬ Event.tracedBy "lc3_core::memory" fetching.event = true := Bool.false_ne_true
  have hkey : ∀ key, Event.tracedBy "lc3_core::memory" (.keyLatched key) = true := fun _ => rfl
  rw [trace, List.filter_append, List.filter_cons_of_neg hevent, Call.filter_latches_of_kept hkey,
    Call.filter_latches_of_kept hkey, Call.latches_append]

end Fetching

namespace Machine

variable {σ : Type} {console : Console σ} {machine reached : Machine} {state between : σ}
  {steps : Nat} {outcome : (Except Fault RunSummary × Machine) × σ} {closing : List Moment}

def EndsFetching (console : Console σ) (steps : Nat) (reached : Machine) (between : σ)
    (last : Option Fetching) : (Except Fault RunSummary × Machine) × σ → Prop
  | ((.ok summary, _), _) => last = none ∧ summary.steps = steps
  | ((.error fault, final), left) =>
      (round reached).converse console between = ((.error fault, final), left) ∧
        match ((opening reached).converse console between).1 with
        | none => last = none ∧ ∃ error, fault.cause = .console error
        | some _ => ∃ fetching, last = some fetching ∧ Opens console reached between fetching

theorem Closing.fetches (hclosing : Closing console steps reached between outcome closing) :
    ∃ (last : Option Fetching) (rest : List Moment),
      closing = last.toList.flatMap Fetching.moments ++ rest ∧
      (∀ event ∈ Moment.events rest, event.level ≠ .trace) ∧
      Call.latches (Moment.calls rest) = [] ∧
      EndsFetching console steps reached between last outcome := by
  cases hclosing with
  | halted | exhausted => exact ⟨none, _, rfl, by simp [Event.level], rfl, rfl, rfl⟩
  | broken hcheck =>
      refine ⟨none, _, rfl, nofun, rfl, ?_⟩
      simp [EndsFetching, round, opening, hcheck]
  | @faulted fault final left moments hround hchecked hmoments =>
      cases hmoments with
      | broken hcheck =>
          rw [hcheck] at hchecked
          cases hchecked
      | unfetched hcheck hpc hpoll =>
          refine ⟨none, _, rfl, by simp [Event.level], rfl, hround, ?_⟩
          simp [opening, hcheck, hpc, Memory.read_status, hpoll, Memory.statusAnswered,
            Except.toOption]
      | @fetched fetching _ hopens =>
          refine ⟨some fetching, [.note (.runFaulted fault steps)], by simp, by simp [Event.level],
            rfl, hround, ?_⟩
          rw [hopens.word]
          exact ⟨fetching, rfl, hopens⟩

theorem EndsFetching.opens {fetching : Fetching}
    (hends : EndsFetching console steps reached between (some fetching) outcome) :
    Opens console reached between fetching := by
  rcases outcome with ⟨⟨fault | summary, final⟩, left⟩
  · obtain ⟨_, hends⟩ := hends
    cases hopening : ((opening reached).converse console between).1 with
    | none =>
        rw [hopening] at hends
        cases hends.1
    | some word =>
        rw [hopening] at hends
        obtain ⟨_, hlast, hopens⟩ := hends
        cases hlast
        exact hopens
  · cases hends.1

/-- But for its start and its stop a run says what the instructions say that it fetches. -/
structure Traces (console : Console σ) (machine : Machine) (state : σ)
    (fetchings : List Fetching) : Prop where
  opened : Opened console machine state fetchings
  traced : ∀ keep : Event → Bool, (∀ event, event.level ≠ .trace → keep event = false) →
    (run machine).journal console keep state =
      fetchings.flatMap fun fetching => fetching.trace.filter keep
  latches : Call.latches ((run machine).calls console state) =
    fetchings.flatMap fun fetching => Call.latches (fetching.before ++ fetching.later)

theorem run_traces (console : Console σ) (machine : Machine) (state : σ) :
    ∃ reached between completed last,
      RoundsReach console machine state completed.length reached between ∧
      ((run machine).converse console state).1.2.retired =
        machine.retired + UInt64.ofNat completed.length ∧
      Traces console machine state (completed ++ Option.toList last) ∧
      EndsFetching console completed.length reached between last
        ((run machine).converse console state) := by
  obtain ⟨completed, reached, between, closing, hreaches, hretired, hopened, hclosing,
    htranscript⟩ := run_transcript console machine state
  obtain ⟨last, rest, rfl, hquiet, hunlatched, hends⟩ := hclosing.fetches
  rw [← List.append_assoc, ← List.flatMap_append] at htranscript
  refine ⟨reached, between, completed, last, hreaches, hretired, ⟨?_, ?_, ?_⟩, hends⟩
  · cases last with
    | none => simpa using hopened
    | some fetching => exact hopened.snoc hreaches hends.opens
  · intro keep hkeep
    have hrest : (Moment.events rest).filter keep = [] := by
      rw [List.filter_eq_nil_iff]
      intro event hevent
      simp [hkeep event (hquiet event hevent)]
    have hstart : ¬ keep (.runStarted machine.registers.pc machine.config.limit) = true := by
      rw [hkeep _ (by simp [Event.level])]
      exact Bool.false_ne_true
    rw [Dialogue.journal_eq, htranscript, Moment.events_note, Moment.events_append,
      Fetching.events_flatMap, List.filter_cons_of_neg hstart, List.filter_append, hrest,
      List.append_nil, List.filter_flatMap]
  · rw [Dialogue.calls, htranscript, Moment.calls_note, Moment.calls_append, Call.latches_append,
      hunlatched, List.append_nil, Fetching.calls_flatMap, Call.latches_flatMap]

/-- The trace of a run has an entry for each instruction that was fetched: for all that completed,
and for one more if the run ended in a fault after its fetch. Characters that polls deliver are
entered as well, and those that the fetch itself polls come before the instruction. -/
theorem trace_of_run (console : Console σ) (machine : Machine) (state : σ) :
    let outcome := (run machine).converse console state
    let journal (keep : Event → Bool) := (run machine).journal console keep state
    ∃ (steps : Nat) (reached : Machine) (between : σ) (fetchings : List Fetching),
      RoundsReach console machine state steps reached between ∧
      outcome.1.2.retired = machine.retired + UInt64.ofNat steps ∧
      journal (Event.tracedBy "lc3_core::execute") = fetchings.map Fetching.event ∧
      (journal (Event.tracedBy "lc3_core::execute")).map Event.sentence =
        fetchings.map Fetching.line ∧
      (∀ index fetching, fetchings[index]? = some fetching → ∃ current since,
        RoundsReach console machine state index current since ∧
          Opens console current since fetching) ∧
      (match outcome with
        | ((.ok summary, _), _) => fetchings.length = steps ∧ summary.steps = steps
        | ((.error fault, final), left) =>
            (round reached).converse console between = ((.error fault, final), left) ∧
              match ((opening reached).converse console between).1 with
              | some _ => fetchings.length = steps + 1
              | none => fetchings.length = steps ∧ ∃ error, fault.cause = .console error) ∧
      journal (Event.tracedBy "lc3_core::memory") =
        Call.latches ((run machine).calls console state) ∧
      journal (·.level = .trace) = fetchings.flatMap Fetching.trace := by
  obtain ⟨reached, between, completed, last, hreaches, hretired, htraces, hends⟩ :=
    run_traces console machine state
  have hexecuted : (run machine).journal console (Event.tracedBy "lc3_core::execute") state =
      (completed ++ last.toList).map Fetching.event := by
    rw [htraces.traced _ Event.tracedBy_of_level, List.map_eq_flatMap]
    exact congrArg (List.flatMap · _) (funext Fetching.executed)
  refine ⟨completed.length, reached, between, completed ++ last.toList, hreaches, hretired,
    hexecuted, ?_, htraces.opened, ?_, ?_, ?_⟩
  · dsimp only
    rw [hexecuted, List.map_map]
    rfl
  · rcases hrun : (run machine).converse console state with ⟨⟨fault | summary, final⟩, left⟩
    · rw [hrun] at hends
      obtain ⟨hround, hends⟩ := hends
      refine ⟨hround, ?_⟩
      cases hopening : ((opening reached).converse console between).1 with
      | none =>
          rw [hopening] at hends
          obtain ⟨rfl, herror⟩ := hends
          simpa using herror
      | some word =>
          rw [hopening] at hends
          obtain ⟨fetching, rfl, _⟩ := hends
          simp
    · rw [hrun] at hends
      obtain ⟨rfl, hsteps⟩ := hends
      simpa using hsteps
  · dsimp only
    rw [htraces.traced _ Event.tracedBy_of_level, htraces.latches]
    exact congrArg (List.flatMap · _) (funext Fetching.latched)
  · dsimp only
    rw [htraces.traced _ (fun event hevent => decide_eq_false hevent)]
    exact congrArg (List.flatMap · _) (funext Fetching.traced)

end Machine

end LittleComputer

import LittleComputer.Proofs.Journals
import LittleComputer.Proofs.PreciseFaults

namespace LittleComputer

/-! The transcript of a run -/

/-- An instruction that was fetched, with the calls made for it by then and those made later. -/
structure Fetching where
  before : List Call
  address : Word
  word : Word
  later : List Call

namespace Fetching

variable (fetching : Fetching)

def event : Event :=
  .fetched fetching.address fetching.word

def moments : List Moment :=
  Call.echoes fetching.before ++ .note fetching.event :: Call.echoes fetching.later

def trace : List Event :=
  Call.latches fetching.before ++ fetching.event :: Call.latches fetching.later

@[simp] theorem events_moments : Moment.events fetching.moments = fetching.trace := by
  simp [moments, trace]

@[simp] theorem calls_moments :
    Moment.calls fetching.moments = fetching.before ++ fetching.later := by
  simp [moments]

theorem events_flatMap (fetchings : List Fetching) :
    Moment.events (fetchings.flatMap moments) = fetchings.flatMap trace := by
  induction fetchings with
  | nil => rfl
  | cons fetching fetchings ih => simp [ih]

theorem calls_flatMap (fetchings : List Fetching) :
    Moment.calls (fetchings.flatMap moments) =
      fetchings.flatMap fun fetching => fetching.before ++ fetching.later := by
  induction fetchings with
  | nil => rfl
  | cons fetching fetchings ih => simp [ih]

end Fetching

theorem Memory.read_fails {σ : Type} {console : Console σ} {address : Word}
    {memory after : Memory} {state left : σ} {error : ConsoleFailure}
    (hread : (read address memory).converse console state = ((.error error, after), left)) :
    address = DeviceCell.keyboardStatus.address ∧
      console.answer .poll state = (.error error, left) := by
  by_cases hstatus : address = DeviceCell.keyboardStatus.address
  · rw [hstatus, read_status, Dialogue.converse_ask] at hread
    refine ⟨hstatus, ?_⟩
    rcases hpoll : console.answer .poll state with ⟨failure | _ | key, left⟩
    · rw [hpoll] at hread
      cases hread
      rfl
    · rw [hpoll] at hread
      cases hread
    · rw [hpoll] at hread
      cases hread
  · rw [read_plain hstatus] at hread
    cases hread

namespace Machine

variable {σ : Type} {console : Console σ} {machine reached : Machine} {state between : σ}

def opening (machine : Machine) : Dialogue (Option Word) :=
  .ask .interrupt fun
    | .error _ => .done none
    | .ok () => (Memory.read machine.registers.pc machine.memory).bind fun outcome =>
        .done outcome.1.toOption

structure Opens (console : Console σ) (machine : Machine) (state : σ) (fetching : Fetching) :
    Prop where
  address : fetching.address = machine.registers.pc
  word : ((opening machine).converse console state).1 = some fetching.word
  before : fetching.before = (opening machine).calls console state
  calls : (round machine).calls console state = fetching.before ++ fetching.later

/-- A round that fetches nothing fails at its check or at the poll of its fetch. -/
inductive RoundTranscript (console : Console σ) (machine : Machine) (state : σ) :
    (Except Fault StepResult × Machine) × σ → List Moment → Prop
  | broken {error : ConsoleFailure} {left : σ}
      (hcheck : console.answer .interrupt state = (.error error, left)) :
      RoundTranscript console machine state
        ((.error ⟨machine.registers.pc, .console error⟩, machine), left)
        [.exchange .interrupt (.error error)]
  | unfetched {error : ConsoleFailure} {checked left : σ}
      (hcheck : console.answer .interrupt state = (.ok (), checked))
      (hpc : machine.registers.pc = DeviceCell.keyboardStatus.address)
      (hpoll : console.answer .poll checked = (.error error, left)) :
      RoundTranscript console machine state
        ((.error ⟨machine.registers.pc, .console error⟩, machine), left)
        [.exchange .interrupt (.ok ()), .exchange .poll (.error error)]
  | fetched {fetching : Fetching} {outcome : (Except Fault StepResult × Machine) × σ}
      (hopens : Opens console machine state fetching) :
      RoundTranscript console machine state outcome fetching.moments

theorem transcript_step (hrunning : machine.status = .running) (console : Console σ) (state : σ) :
    (step machine).transcript console state =
      (Memory.read machine.registers.pc machine.memory).transcript console state ++
        match (Memory.read machine.registers.pc machine.memory).converse console state with
        | ((.error _, _), _) => []
        | ((.ok word, memory), after) =>
            (Effect.executeFetched machine.registers.pc word
              { machine with memory := memory }).transcript console after := by
  rw [step_running hrunning, Effect.cycle_eq, Action.bind_apply, Effect.load_eq]
  simp only [Dialogue.transcript_bind, Dialogue.converse_bind, Dialogue.transcript_done,
    List.append_nil]
  congr 1
  rcases (Memory.read machine.registers.pc machine.memory).converse console state with
    ⟨⟨error | word, memory⟩, after⟩
  · rfl
  · rfl

theorem transcript_round {checked : σ}
    (hcheck : console.answer .interrupt state = (.ok (), checked)) (machine : Machine) :
    (round machine).transcript console state =
      .exchange .interrupt (.ok ()) :: (step machine).transcript console checked := by
  rw [round, Dialogue.transcript_ask, hcheck]

theorem opens_of_read (hrunning : machine.status = .running) {word : Word} {memory : Memory}
    {checked after : σ} (hcheck : console.answer .interrupt state = (.ok (), checked))
    (hread : (Memory.read machine.registers.pc machine.memory).converse console checked =
      ((.ok word, memory), after)) :
    ∃ fetching, Opens console machine state fetching ∧
      (round machine).transcript console state = fetching.moments := by
  have hfetch := (Memory.read_echoes machine.registers.pc).transcript console machine.memory checked
  obtain ⟨later, hexecute⟩ := (Effect.execute_echoes (Instruction.decode word) word
    (mapRegisters { machine with memory := memory } RegisterFile.advance)).converse console after
  have htranscript := transcript_round hcheck machine
  rw [transcript_step hrunning, hread] at htranscript
  simp only [Effect.executeFetched, Dialogue.transcript_note, hexecute, hfetch] at htranscript
  let fetching : Fetching :=
    { before := ⟨.interrupt, .ok ()⟩ ::
        (Memory.read machine.registers.pc machine.memory).calls console checked
      address := machine.registers.pc
      word := word
      later := later }
  have hmoments : (round machine).transcript console state = fetching.moments := by
    rw [htranscript]
    rfl
  refine ⟨fetching, ⟨rfl, ?_, ?_, ?_⟩, hmoments⟩
  · simp [fetching, opening, hcheck, Dialogue.converse_bind, hread, Except.toOption]
  · simp [fetching, opening, hcheck, Dialogue.calls_bind]
  · rw [Dialogue.calls, hmoments, Fetching.calls_moments]

theorem round_transcript (hrunning : machine.status = .running) (console : Console σ) (state : σ) :
    RoundTranscript console machine state ((round machine).converse console state)
      ((round machine).transcript console state) := by
  rcases hcheck : console.answer .interrupt state with ⟨error | _, checked⟩
  · have hround : (round machine).converse console state =
        ((.error ⟨machine.registers.pc, .console error⟩, machine), checked) := by
      rw [round, Dialogue.converse_ask, hcheck]
      rfl
    have htranscript : (round machine).transcript console state =
        [.exchange .interrupt (.error error)] := by
      rw [round, Dialogue.transcript_ask, hcheck]
      rfl
    rw [hround, htranscript]
    exact .broken hcheck
  · rcases hread : (Memory.read machine.registers.pc machine.memory).converse console checked with
      ⟨⟨error | word, memory⟩, left⟩
    · obtain ⟨hpc, hpoll⟩ := Memory.read_fails hread
      have hround : (round machine).converse console state =
          ((.error ⟨machine.registers.pc, .console error⟩, machine), left) := by
        rw [converse_round hcheck, converse_step_status hrunning hpc, hpoll]
      have htranscript : (round machine).transcript console state =
          [.exchange .interrupt (.ok ()), .exchange .poll (.error error)] := by
        rw [transcript_round hcheck, transcript_step hrunning, hread, hpc, Memory.read_status,
          Dialogue.transcript_ask, hpoll]
        rfl
      rw [hround, htranscript]
      exact .unfetched hcheck hpc hpoll
    · obtain ⟨fetching, hopens, htranscript⟩ := opens_of_read hrunning hcheck hread
      rw [htranscript]
      exact .fetched hopens

theorem transcript_rounds_succ {next : Machine} {after : σ} {result : StepResult}
    (hround : (round machine).converse console state = ((.ok result, next), after)) (count : Nat) :
    (rounds (count + 1) machine).transcript console state =
      (round machine).transcript console state ++
        (rounds count next).transcript console after := by
  rw [rounds, Action.bind_apply, Dialogue.transcript_bind, hround]

def Opened (console : Console σ) (machine : Machine) (state : σ) (fetchings : List Fetching) :
    Prop :=
  ∀ index fetching, fetchings[index]? = some fetching → ∃ current since,
    RoundsReach console machine state index current since ∧ Opens console current since fetching

theorem Opened.cons {next : Machine} {after : σ} {result : StepResult} {fetching : Fetching}
    {fetchings : List Fetching} (hfirst : Opens console machine state fetching)
    (hround : (round machine).converse console state = ((.ok result, next), after))
    (hrest : Opened console next after fetchings) :
    Opened console machine state (fetching :: fetchings) := by
  intro index other hother
  cases index with
  | zero =>
      cases hother
      exact ⟨machine, state, roundsReach_zero_iff.mpr ⟨rfl, rfl⟩, hfirst⟩
  | succ index =>
      obtain ⟨current, since, hcurrent, hopens⟩ := hrest index other hother
      exact ⟨current, since,
        roundsReach_succ_iff.mpr ⟨result, next, after, hround, hcurrent⟩, hopens⟩

theorem Opened.snoc {fetching : Fetching} {fetchings : List Fetching}
    (hopened : Opened console machine state fetchings)
    (hreaches : RoundsReach console machine state fetchings.length reached between)
    (hlast : Opens console reached between fetching) :
    Opened console machine state (fetchings ++ [fetching]) := by
  intro index other hother
  rcases List.getElem?_eq_some_iff.mp hother with ⟨hindex, rfl⟩
  rw [List.length_append, List.length_singleton] at hindex
  rcases Nat.lt_or_eq_of_le (Nat.le_of_lt_succ hindex) with hearlier | rfl
  · rw [List.getElem_append_left hearlier]
    exact hopened index _ (List.getElem?_eq_getElem hearlier)
  · rw [List.getElem_concat_length rfl]
    exact ⟨reached, between, hreaches, hlast⟩

theorem Opened.exists_of_mem {fetching : Fetching} {fetchings : List Fetching}
    (hopened : Opened console machine state fetchings) (hmem : fetching ∈ fetchings) :
    ∃ current since, Opens console current since fetching := by
  obtain ⟨index, hindex⟩ := List.mem_iff_getElem?.mp hmem
  obtain ⟨current, since, _, hopens⟩ := hopened index fetching hindex
  exact ⟨current, since, hopens⟩

theorem rounds_transcript {count : Nat}
    (hreaches : RoundsReach console machine state count reached between)
    (hrunning : StaysRunning console machine state count) :
    ∃ fetchings : List Fetching, fetchings.length = count ∧
      (rounds count machine).transcript console state = fetchings.flatMap Fetching.moments ∧
      Opened console machine state fetchings := by
  induction count generalizing machine state with
  | zero => exact ⟨[], rfl, rfl, nofun⟩
  | succ count ih =>
      obtain ⟨result, next, after, hround, hrest⟩ := roundsReach_succ_iff.mp hreaches
      obtain ⟨fetchings, hlength, hmoments, hopened⟩ := ih hrest (hrunning.tail hround)
      have hfirst := round_transcript hrunning.head console state
      rw [transcript_rounds_succ hround, hmoments]
      rw [hround] at hfirst
      generalize (round machine).transcript console state = moments at hfirst ⊢
      cases hfirst with
      | @fetched fetching _ hfetching =>
          exact ⟨fetching :: fetchings, congrArg (· + 1) hlength, rfl,
            Opened.cons hfetching hround hopened⟩

theorem transcript_runFor_succ (hrunning : machine.status = .running) (console : Console σ)
    (spent : Ending) (budget steps : Nat) (state : σ) :
    (runFor spent (budget + 1) steps machine).transcript console state =
      (round machine).transcript console state ++
        match (round machine).converse console state, (console.answer .interrupt state).1 with
        | ((.ok _, next), after), _ =>
            (runFor spent budget (steps + 1) next).transcript console after
        | ((.error _, _), _), .error _ => []
        | ((.error fault, _), _), .ok _ => [.note (.runFaulted fault steps)] := by
  rw [runFor, if_pos (machine.isRunning_iff.mpr hrunning)]
  simp only [Dialogue.transcript_ask, Dialogue.converse_ask, round]
  rcases console.answer .interrupt state with ⟨error | _, after⟩
  · rfl
  · simp only [Dialogue.transcript_bind]
    rcases (step machine).converse console after with ⟨⟨fault | result, next⟩, left⟩ <;> rfl

theorem transcript_runFor_reached {count : Nat}
    (hreaches : RoundsReach console machine state count reached between)
    (hrunning : StaysRunning console machine state count) (spent : Ending) (more steps : Nat) :
    (runFor spent (count + more) steps machine).transcript console state =
      (rounds count machine).transcript console state ++
        (runFor spent more (steps + count) reached).transcript console between := by
  induction count generalizing machine state steps with
  | zero =>
      obtain ⟨rfl, rfl⟩ := roundsReach_zero_iff.mp hreaches
      rw [Nat.zero_add]
      rfl
  | succ count ih =>
      obtain ⟨result, next, after, hround, hrest⟩ := roundsReach_succ_iff.mp hreaches
      rw [Nat.add_right_comm, transcript_runFor_succ hrunning.head, hround,
        transcript_rounds_succ hround, List.append_assoc]
      dsimp only
      rw [ih hrest (hrunning.tail hround), Nat.add_right_comm steps 1 count]
      rfl

/-- What the run loop says after its last round that succeeds. There are four ways out of the loop,
and on one of them it does not say that it stops. -/
inductive Closing (console : Console σ) (steps : Nat) (reached : Machine) (between : σ) :
    (Except Fault RunSummary × Machine) × σ → List Moment → Prop
  | halted (hhalted : reached.status = .halted) :
      Closing console steps reached between ((.ok ⟨steps, .halted⟩, reached), between)
        [.note (.runStopped reached.registers.pc ⟨steps, .halted⟩)]
  | exhausted {spent : Ending} (hrunning : reached.status = .running) :
      Closing console steps reached between ((.ok ⟨steps, spent⟩, reached), between)
        [.note (.runStopped reached.registers.pc ⟨steps, spent⟩)]
  | broken {error : ConsoleFailure} {left : σ}
      (hcheck : console.answer .interrupt between = (.error error, left)) :
      Closing console steps reached between
        ((.error ⟨reached.registers.pc, .console error⟩, reached), left)
        [.exchange .interrupt (.error error)]
  | faulted {fault : Fault} {final : Machine} {left : σ} {moments : List Moment}
      (hround : (round reached).converse console between = ((.error fault, final), left))
      (hchecked : (console.answer .interrupt between).1 = .ok ())
      (hmoments : RoundTranscript console reached between ((.error fault, final), left) moments) :
      Closing console steps reached between ((.error fault, final), left)
        (moments ++ [.note (.runFaulted fault steps)])

theorem transcript_runFor_halted (hhalted : machine.status = .halted) (console : Console σ)
    (spent : Ending) (budget steps : Nat) (state : σ) :
    (runFor spent budget steps machine).transcript console state =
      [.note (.runStopped machine.registers.pc ⟨steps, .halted⟩)] := by
  rw [runFor.eq_def, if_neg (by simp [isRunning, hhalted])]
  rfl

theorem transcript_runFor_zero (hrunning : machine.status = .running) (console : Console σ)
    (spent : Ending) (steps : Nat) (state : σ) :
    (runFor spent 0 steps machine).transcript console state =
      [.note (.runStopped machine.registers.pc ⟨steps, spent⟩)] := by
  rw [runFor, if_pos (machine.isRunning_iff.mpr hrunning)]
  rfl

theorem closing_of_loopEnd {spent : Ending} {budget steps : Nat}
    {outcome : (Except Fault RunSummary × Machine) × σ}
    (hend : LoopEnd console spent (steps + budget) 0 steps reached between outcome) :
    Closing console steps reached between outcome
      ((runFor spent budget steps reached).transcript console between) := by
  cases hend with
  | halted hhalted =>
      rw [transcript_runFor_halted hhalted, Nat.zero_add]
      exact .halted hhalted
  | exhausted hrunning hcount =>
      obtain rfl : budget = 0 := by omega
      rw [transcript_runFor_zero hrunning, Nat.zero_add]
      exact .exhausted hrunning
  | faulted hrunning hcount hround =>
      obtain ⟨more, rfl⟩ : ∃ more, budget = more + 1 := ⟨budget - 1, by omega⟩
      have htranscript := round_transcript hrunning console between
      rw [hround] at htranscript
      rw [transcript_runFor_succ hrunning, hround]
      rcases hcheck : console.answer .interrupt between with ⟨error | _, checked⟩
      · rw [round, Dialogue.converse_ask, hcheck] at hround
        cases hround
        rw [round, Dialogue.transcript_ask, hcheck]
        exact .broken hcheck
      · exact .faulted hround (by rw [hcheck]) htranscript

theorem Closing.retired {steps : Nat} {outcome : (Except Fault RunSummary × Machine) × σ}
    {closing : List Moment} (hclosing : Closing console steps reached between outcome closing) :
    outcome.1.2.retired = reached.retired := by
  cases hclosing with
  | halted | exhausted | broken => rfl
  | faulted hround => exact (frame_eq_iff.mp (withdrawn_of_round hround).frame).2.2

/-- A run says that it starts, then what its completed instructions say, and then how it ends. -/
theorem run_transcript (console : Console σ) (machine : Machine) (state : σ) :
    ∃ (completed : List Fetching) (reached : Machine) (between : σ) (closing : List Moment),
      RoundsReach console machine state completed.length reached between ∧
      ((run machine).converse console state).1.2.retired =
        machine.retired + UInt64.ofNat completed.length ∧
      Opened console machine state completed ∧
      Closing console completed.length reached between ((run machine).converse console state)
        closing ∧
      (run machine).transcript console state =
        .note (.runStarted machine.registers.pc machine.config.limit) ::
          (completed.flatMap Fetching.moments ++ closing) := by
  obtain ⟨_, reached, between, hle, hreaches, hrunning, hend⟩ := run_loop console machine state
  obtain ⟨completed, rfl, hmoments, hopened⟩ := rounds_transcript hreaches hrunning
  obtain ⟨more, hmore⟩ := Nat.exists_eq_add_of_le hle
  have htranscript := transcript_runFor_reached hreaches hrunning machine.config.spent more 0
  rw [← hmore, Nat.zero_add, hmoments] at htranscript
  rw [hmore] at hend
  have hclosing := closing_of_loopEnd hend
  refine ⟨completed, reached, between, _, hreaches, ?_, hopened, hclosing,
    congrArg (_ :: ·) htranscript⟩
  rw [hclosing.retired, hreaches.retired hrunning]

end Machine

end LittleComputer

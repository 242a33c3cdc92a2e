import LittleComputer.Proofs.ReportedFailures

namespace LittleComputer

/-! When output is flushed -/

namespace Call

def isOutput : Call → Bool
  | ⟨.write _, _⟩ | ⟨.flush, _⟩ => true
  | _ => false

/-- Behind every write comes a flush that succeeded. -/
def Flushed (calls : List Call) : Prop :=
  ∀ earlier bytes answer later, calls = earlier ++ ⟨.write bytes, answer⟩ :: later →
    ⟨.flush, .ok ()⟩ ∈ later

theorem flushed_of_unwritten {calls : List Call}
    (hcalls : ∀ bytes answer, ⟨.write bytes, answer⟩ ∉ calls) : Flushed calls := by
  intro earlier bytes answer later heq
  exact absurd (heq ▸ List.mem_append_right _ List.mem_cons_self) (hcalls bytes answer)

theorem flushed_single {call : Call} (hcall : call.isOutput = false) : Flushed [call] := by
  apply flushed_of_unwritten
  intro bytes answer hmem
  rw [← List.mem_singleton.mp hmem] at hcall
  cases hcall

theorem flushed_append {first second : List Call} (hfirst : Flushed first)
    (hsecond : Flushed second) : Flushed (first ++ second) := by
  intro earlier bytes answer later heq
  rcases List.append_eq_append_iff.mp heq with ⟨between, rfl, hrest⟩ | ⟨between, rfl, hrest⟩
  · exact hsecond between bytes answer later hrest
  · cases between with
    | nil => exact hsecond [] bytes answer later hrest.symm
    | cons call between =>
        obtain ⟨rfl, rfl⟩ := List.cons.inj hrest
        exact List.mem_append_left _ (hfirst earlier bytes answer between rfl)

theorem flushed_of_flush (calls : List Call) : Flushed (calls ++ [⟨.flush, .ok ()⟩]) := by
  intro earlier bytes answer later heq
  rcases List.eq_nil_or_concat later with rfl | ⟨between, final, rfl⟩
  · obtain ⟨_, hlast⟩ := List.append_inj' heq rfl
    cases hlast
  · rw [List.concat_eq_append, ← List.cons_append, ← List.append_assoc] at heq
    obtain ⟨_, hlast⟩ := List.append_inj' heq rfl
    rw [List.concat_eq_append, ← hlast]
    exact List.mem_append_right _ (List.mem_singleton_self _)

/-- After `history`, the calls ask for nothing and end in nothing but a failure of the console
as long as some output is not flushed. -/
structure Settled {ε α : Type} (cause : ε → Fault.Cause) (history calls : List Call)
    (result : Except ε α) : Prop where
  before : ∀ earlier call later, calls = earlier ++ call :: later → call.isOutput = false →
    Flushed (history ++ earlier)
  atEnd : (∀ error, result = .error error → (cause error).kind = .program) →
    Flushed (history ++ calls)

namespace Settled

variable {ε α β : Type} {cause : ε → Fault.Cause} {history calls : List Call}

theorem silent (hhistory : Flushed history) (result : Except ε α) :
    Settled cause history [] result where
  before _ _ _ hcalls := by simp at hcalls
  atEnd _ := by rwa [List.append_nil]

theorem single (hhistory : Flushed history) {call : Call} (hcall : call.isOutput = false)
    (result : Except ε α) : Settled cause history [call] result where
  before earlier _ _ hcalls _ := by
    cases earlier with
    | nil => rwa [List.append_nil]
    | cons _ earlier => simp at hcalls
  atEnd _ := flushed_append hhistory (flushed_single hcall)

theorem error {error : ε} (hsettled : Settled cause history calls (.error error : Except ε α)) :
    Settled cause history calls (.error error : Except ε β) where
  before := hsettled.before
  atEnd hprogram := hsettled.atEnd fun _ herror => by
    cases herror
    exact hprogram error rfl

theorem append {later : List Call} {value : α} {result : Except ε β}
    (hfirst : Settled cause history calls (.ok value : Except ε α))
    (hsecond : Settled cause (history ++ calls) later result) :
    Settled cause history (calls ++ later) result where
  before earlier call rest heq hcall := by
    rcases List.append_eq_append_iff.mp heq with ⟨between, rfl, hrest⟩ | ⟨between, rfl, hrest⟩
    · rw [← List.append_assoc]
      exact hsecond.before between call rest hrest hcall
    · cases between with
      | nil => simpa using hsecond.before [] call rest hrest.symm hcall
      | cons next between =>
          obtain ⟨rfl, rfl⟩ := List.cons.inj hrest
          exact hfirst.before earlier call between rfl hcall
  atEnd hprogram := by
    rw [← List.append_assoc]
    exact hsecond.atEnd hprogram

theorem of_map {result : Except ε α} {change : α → β}
    (hsettled : Settled cause history calls (result.map change)) :
    Settled cause history calls result := by
  cases result with
  | ok value => exact ⟨hsettled.before, fun _ => hsettled.atEnd nofun⟩
  | error error => exact hsettled.error

end Settled

end Call

namespace Action

variable {σ ε α β : Type}

def Settles (cause : ε → Fault.Cause) (action : Action σ ε α) : Prop :=
  action.Ensures fun _ moments result _ =>
    ∀ history, Call.Flushed history → Call.Settled cause history (Moment.calls moments) result

theorem Settles.bind {cause : ε → Fault.Cause} {action : Action σ ε α}
    {after : α → Action σ ε β} (haction : action.Settles cause)
    (hafter : ∀ value, (after value).Settles cause) : (action >>= after).Settles cause := by
  refine Ensures.bind haction hafter ?_ fun _ _ _ _ hfirst history hhistory =>
    (hfirst history hhistory).error
  intro _ before _ _ moments _ _ hfirst hsecond history hhistory
  have hbefore := hfirst history hhistory
  rw [Moment.calls_append]
  exact hbefore.append (hsecond _ (hbefore.atEnd nofun))

end Action

namespace Effect

def Outputs {α : Type} (effect : Effect α) : Prop :=
  effect.Ensures fun _ moments _ _ => ∀ call ∈ Moment.calls moments, Call.isOutput call = true

theorem outputs_write (bytes : List Byte) : Outputs (ask (.write bytes)) := by
  intro machine answer call hmem
  rw [List.mem_singleton.mp hmem]
  rfl

theorem outputs_writeEach (bytes : List Byte) : Outputs (writeEach bytes) := by
  induction bytes with
  | nil => exact fun _ _ hmem => absurd hmem List.not_mem_nil
  | cons byte bytes ih =>
      refine Action.Ensures.bind (outputs_write [byte]) (fun _ => ih) ?_ ?_
      · intro _ before _ _ moments _ _ hfirst hsecond
        rw [Moment.calls_append]
        exact List.forall_mem_append.mpr ⟨hfirst, hsecond⟩
      · intro _ _ _ _ hfirst
        exact hfirst

theorem settles_flush {α : Type} {effect : Effect α} (houtputs : Outputs effect)
    (haccepted : Accepted effect) : (effect >>= fun _ => ask .flush).Settles id := by
  have hbefore {history calls earlier later : List Call} {call : Call}
      (hcalls : ∀ call ∈ calls, call.isOutput = true) (heq : calls = earlier ++ call :: later)
      (hcall : call.isOutput = false) : Call.Flushed (history ++ earlier) := by
    have houtput := hcalls call (heq ▸ List.mem_append_right _ List.mem_cons_self)
    rw [hcall] at houtput
    cases houtput
  intro machine
  rw [Action.bind_apply, Dialogue.ensures_bind]
  apply ((houtputs machine).and (haccepted machine)).mono
  intro moments outcome ⟨hcalls, hkind⟩
  rcases outcome with ⟨cause | value, after⟩
  · intro history hhistory
    rw [List.append_nil]
    refine ⟨fun _ _ _ heq hcall => hbefore hcalls heq hcall, fun hprogram => ?_⟩
    exact nomatch (hkind cause rfl).symm.trans (hprogram cause rfl)
  · intro answer history hhistory
    rw [Moment.calls_append]
    have hflush : ∀ call ∈ Moment.calls moments ++ [⟨.flush, answer⟩],
        Call.isOutput call = true := by
      refine List.forall_mem_append.mpr ⟨hcalls, fun call hmem => ?_⟩
      rw [List.mem_singleton.mp hmem]
      rfl
    refine ⟨fun _ _ _ heq hcall => hbefore hflush heq hcall, fun hprogram => ?_⟩
    cases answer with
    | error failure => cases hprogram _ rfl
    | ok _ =>
        rw [← List.append_assoc]
        exact Call.flushed_of_flush _

theorem settles_shown {α β : Type} {effect : Effect α} {after : Effect β}
    (houtputs : Outputs effect) (haccepted : Accepted effect) (hafter : after.Settles id) :
    (effect >>= fun _ => ask .flush >>= fun _ => after).Settles id := by
  rw [← Action.bind_assoc]
  exact (settles_flush houtputs haccepted).bind fun _ => hafter

theorem parts_settle : InstructionParts fun effect => effect.Settles id where
  pure _ _ _ hhistory := .silent hhistory _
  bind := .bind
  registers _ _ hhistory := .silent hhistory _
  changeRegisters _ _ _ hhistory := .silent hhistory _
  load address := by
    intro machine
    by_cases hstatus : address = DeviceCell.keyboardStatus.address
    · subst hstatus
      rw [load_status]
      intro answer
      rcases answer with failure | _ | key <;>
        exact fun history hhistory => .single hhistory rfl _
    · rw [load_plain hstatus]
      exact fun history hhistory => .silent hhistory _
  store _ _ _ _ hhistory := .silent hhistory _
  note _ _ _ hhistory := .silent hhistory _

theorem read_settles : (ask .read).Settles id :=
  fun _ _ _ hhistory => .single hhistory rfl _

theorem write_settles {after : Effect StepResult} (bytes : List Byte)
    (hafter : after.Settles id) :
    (ask (.write bytes) >>= fun _ => ask .flush >>= fun _ => after).Settles id :=
  settles_shown (outputs_write bytes) (ask_accepted _) hafter

theorem string_settles (view : Machine → List Byte) :
    (do
      let bytes ← Action.inspect view
      writeEach bytes
      ask .flush
      return StepResult.completed : Effect StepResult).Settles id := by
  refine Action.Settles.bind (fun _ _ hhistory => .silent hhistory _) fun bytes => ?_
  exact settles_shown (outputs_writeEach bytes) (parts_accepted.writeEach bytes)
    (parts_settle.pure _)

theorem service_settles (requested : TrapService) : (service requested).Settles id := by
  cases requested with
  | getc => exact read_settles.bind fun _ => parts_settle.retire _
  | out =>
      exact parts_settle.registers.bind fun _ => write_settles _ (parts_settle.pure _)
  | puts | putsp => exact string_settles _
  | input =>
      refine (settles_flush (outputs_write _) (ask_accepted _)).bind fun _ =>
        read_settles.bind fun byte => ?_
      exact write_settles [byte] (parts_settle.retire _)
  | halt =>
      refine Action.Settles.bind (fun _ _ hhistory => .silent hhistory _) fun banner => ?_
      cases banner with
      | false => exact parts_settle.pure _
      | true =>
          exact (settles_flush (outputs_write _) (ask_accepted _)).bind fun _ =>
            parts_settle.pure _

theorem cycle_settles : cycle.Settles id :=
  parts_settle.cycle service_settles fun _ _ _ _ hhistory => .silent hhistory _

end Effect

namespace Machine

variable {σ : Type}

theorem settle_settled (before : RegisterFile)
    {outcome : Except Fault.Cause StepResult × Machine} {history calls : List Call}
    (hsettled : Call.Settled id history calls outcome.1) :
    Call.Settled Fault.cause history calls (settle before outcome).1 := by
  rcases outcome with ⟨cause | result, after⟩
  · refine ⟨hsettled.before, fun hprogram => hsettled.atEnd fun _ herror => ?_⟩
    cases herror
    exact hprogram _ rfl
  · exact ⟨hsettled.before, fun _ => hsettled.atEnd nofun⟩

theorem step_settles : step.Settles Fault.cause := by
  intro machine
  cases hstatus : machine.status with
  | running =>
      rw [step_running hstatus, Dialogue.ensures_bind]
      apply (Effect.cycle_settles machine).mono
      intro moments outcome hsettled
      rw [Dialogue.ensures_done, List.append_nil]
      exact fun history hhistory => settle_settled machine.registers (hsettled history hhistory)
  | halted =>
      rw [step_halted hstatus]
      exact fun history hhistory => .silent hhistory _

theorem round_settles : round.Settles Fault.cause := by
  intro machine answer
  cases answer with
  | error failure => exact fun history hhistory => .single hhistory rfl _
  | ok reply =>
      apply (step_settles machine).mono
      intro moments outcome hsettled history hhistory
      have hasked : Call.Settled Fault.cause history [⟨.interrupt, .ok reply⟩] (.ok ()) :=
        .single hhistory rfl _
      exact hasked.append (hsettled _ (hasked.atEnd nofun))

theorem flushing_law : StepLaw fun action => action.Settles Fault.cause where
  pure _ _ _ hhistory := .silent hhistory _
  bind := .bind
  step := step_settles
  round := round_settles

theorem run_settled (console : Console σ) (machine : Machine) (state : σ) {history : List Call}
    (hhistory : Call.Flushed history) :
    Call.Settled Fault.cause history ((run machine).calls console state)
      ((run machine).converse console state).1.1 := by
  have hrounds count := (flushing_law.rounds count machine).converse console state history hhistory
  exact (run_of_rounds hrounds).of_map

structure FlushesInTime {α : Type} (console : Console σ)
    (dialogue : Dialogue (Except Fault α × Machine)) (state : σ) (history : List Call) :
    Prop where
  before : ∀ earlier call later,
    dialogue.calls console state = earlier ++ call :: later → call.isOutput = false →
      Call.Flushed (history ++ earlier)
  completed : ∀ value final left,
    dialogue.converse console state = ((.ok value, final), left) →
      Call.Flushed (history ++ dialogue.calls console state)
  faulted : ∀ fault final left,
    dialogue.converse console state = ((.error fault, final), left) →
      Call.Flushed (history ++ dialogue.calls console state) ∨
        ∃ earlier request failure,
          dialogue.calls console state = earlier ++ [⟨request, .error failure⟩] ∧
            Call.isOutput ⟨request, .error failure⟩ = true ∧ fault.cause = .console failure

theorem flushesInTime {α : Type} {console : Console σ}
    {dialogue : Dialogue (Except Fault α × Machine)} {state : σ} {history : List Call}
    (hreported : Call.Reported Fault.cause (dialogue.calls console state)
      (dialogue.converse console state).1.1)
    (hsettled : Call.Settled Fault.cause history (dialogue.calls console state)
      (dialogue.converse console state).1.1) :
    FlushesInTime console dialogue state history where
  before := hsettled.before
  completed value final left hconverse := by
    rw [hconverse] at hsettled
    exact hsettled.atEnd nofun
  faulted fault final left hconverse := by
    rw [hconverse] at hreported hsettled
    generalize dialogue.calls console state = calls at hreported hsettled
    cases hreported with
    | unfailed _ hprogram => exact .inl (hsettled.atEnd hprogram)
    | @failed earlier request failure _ _ hcause =>
        cases houtput : Call.isOutput ⟨request, .error failure⟩ with
        | true => exact .inr ⟨earlier, request, failure, rfl, houtput, hcause⟩
        | false =>
            -- All output was flushed when the failing call was made, and it wrote nothing.
            have hearlier := hsettled.before earlier _ [] rfl houtput
            rw [← List.append_assoc]
            exact .inl (Call.flushed_append hearlier (Call.flushed_single houtput))

/-- Steps and runs that begin with all output flushed ask the console for nothing else as long as
some is not, and leave none when they end, unless the console fails to take it. -/
theorem output_flushed (console : Console σ) (machine : Machine) (state : σ)
    (history : List Call) (hhistory : Call.Flushed history) :
    (∀ count, FlushesInTime console (steps count machine) state history) ∧
      FlushesInTime console (run machine) state history := by
  constructor
  · intro count
    exact flushesInTime ((failures_law.steps count machine).converse console state)
      ((flushing_law.steps count machine).converse console state history hhistory)
  · exact flushesInTime (run_reported console machine state)
      (run_settled console machine state hhistory)

theorem prompt_flushed :
    Call.Flushed ([⟨.write [0x3E], .ok ()⟩, ⟨.flush, .ok ()⟩] ++
      [⟨.write TrapService.prompt.toUTF8.data.toList, .ok ()⟩, ⟨.flush, .ok ()⟩]) ∧
    Call.Flushed ([⟨.write [0x3E], .ok ()⟩, ⟨.flush, .ok ()⟩] ++
      (steps 1 (holding {} [0xF023])).calls Script.console { input := [0x61] }) := by
  let machine := holding {} [0xF023]
  have hrequests : machine.Requests .input := requests_holding (by decide)
  have hstep : (steps 1 machine).calls Script.console { input := [0x61] } =
      [⟨.write TrapService.prompt.toUTF8.data.toList, .ok ()⟩, ⟨.flush, .ok ()⟩] ++
        ⟨.read, .ok 0x61⟩ :: [⟨.write [0x61], .ok ()⟩, ⟨.flush, .ok ()⟩] := by
    rw [steps, Action.bind_apply, step_requested hrequests]
    rfl
  obtain ⟨final, left, hcompleted⟩ : ∃ final left,
      (steps 1 machine).converse Script.console { input := [0x61] } =
        ((.ok (), final), left) := by
    rw [steps, Action.bind_apply, step_requested hrequests]
    exact ⟨_, _, rfl⟩
  obtain ⟨hsteps, _⟩ := output_flushed Script.console machine { input := [0x61] }
    [⟨.write [0x3E], .ok ()⟩, ⟨.flush, .ok ()⟩] (Call.flushed_of_flush [⟨.write [0x3E], .ok ()⟩])
  exact ⟨(hsteps 1).before _ _ _ hstep rfl, (hsteps 1).completed () final left hcompleted⟩

end Machine

end LittleComputer

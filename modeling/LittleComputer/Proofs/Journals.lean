import LittleComputer.Proofs.Calls
import LittleComputer.Proofs.Parts

namespace LittleComputer

/-! What is written into a journal -/

namespace Moment

def event? : Moment → Option Event
  | note event => some event
  | exchange .. => none

def events (moments : List Moment) : List Event :=
  moments.filterMap event?

@[simp] theorem events_nil : events [] = [] := rfl

@[simp] theorem events_note (event : Event) (moments : List Moment) :
    events (note event :: moments) = event :: events moments := rfl

@[simp] theorem events_exchange (request : Request) (answer : Answer request)
    (moments : List Moment) : events (exchange request answer :: moments) = events moments := rfl

@[simp] theorem events_append (first second : List Moment) :
    events (first ++ second) = events first ++ events second :=
  List.filterMap_append

end Moment

namespace Dialogue

variable {α σ : Type}

def journal (console : Console σ) (keep : Event → Bool) (dialogue : Dialogue α) (state : σ) :
    List Event :=
  (dialogue.record console keep state #[]).2.toList

theorem record_snd (console : Console σ) (keep : Event → Bool) (dialogue : Dialogue α)
    (state : σ) (journal : Array Event) :
    (dialogue.record console keep state journal).2.toList =
      journal.toList ++ (Moment.events (dialogue.transcript console state)).filter keep := by
  induction dialogue generalizing state journal with
  | done value => simp [record]
  | note event rest ih =>
      simp only [record, ih, transcript_note, Moment.events_note, List.filter_cons]
      split <;> simp
  | ask request next ih => simp [record, ih]

theorem journal_eq (console : Console σ) (keep : Event → Bool) (dialogue : Dialogue α)
    (state : σ) :
    dialogue.journal console keep state =
      (Moment.events (dialogue.transcript console state)).filter keep := by
  simp [journal, record_snd]

end Dialogue

/-! Characters that polls deliver -/

namespace Call

def latched? : Call → Option Byte
  | ⟨.poll, .ok found⟩ => found
  | _ => none

def echo (call : Call) : List Moment :=
  .exchange call.1 call.2 :: call.latched?.toList.map fun key => .note (.keyLatched key)

def echoes (calls : List Call) : List Moment :=
  calls.flatMap echo

def latches (calls : List Call) : List Event :=
  (calls.filterMap latched?).map .keyLatched

@[simp] theorem echoes_nil : echoes [] = [] := rfl

@[simp] theorem echoes_append (first second : List Call) :
    echoes (first ++ second) = echoes first ++ echoes second :=
  List.flatMap_append

@[simp] theorem latches_nil : latches [] = [] := rfl

theorem latches_cons (call : Call) (calls : List Call) :
    latches (call :: calls) = call.latched?.toList.map .keyLatched ++ latches calls := by
  rw [latches, List.filterMap_cons]
  cases call.latched? <;> rfl

@[simp] theorem latches_append (first second : List Call) :
    latches (first ++ second) = latches first ++ latches second := by
  simp [latches]

theorem latches_flatMap {α : Type} (calls : α → List Call) (items : List α) :
    latches (items.flatMap calls) = items.flatMap fun item => latches (calls item) := by
  simp [latches, List.filterMap_flatMap, List.map_flatMap]

theorem calls_echo (call : Call) : Moment.calls call.echo = [call] := by
  rw [echo, Moment.calls_exchange]
  cases call.latched? <;> rfl

theorem events_echo (call : Call) :
    Moment.events call.echo = call.latched?.toList.map .keyLatched := by
  rw [echo, Moment.events_exchange]
  cases call.latched? <;> rfl

@[simp] theorem calls_echoes (calls : List Call) : Moment.calls (echoes calls) = calls := by
  induction calls with
  | nil => rfl
  | cons call calls ih =>
      rw [echoes, List.flatMap_cons, Moment.calls_append, calls_echo]
      exact congrArg (call :: ·) ih

@[simp] theorem events_echoes (calls : List Call) :
    Moment.events (echoes calls) = latches calls := by
  induction calls with
  | nil => rfl
  | cons call calls ih =>
      rw [echoes, List.flatMap_cons, Moment.events_append, events_echo, latches_cons]
      exact congrArg (_ ++ ·) ih

theorem filter_latches_of_kept {keep : Event → Bool} {calls : List Call}
    (hkeep : ∀ key, keep (.keyLatched key) = true) :
    (latches calls).filter keep = latches calls := by
  rw [List.filter_eq_self, latches, List.forall_mem_map]
  exact fun key _ => hkeep key

theorem filter_latches_of_dropped {keep : Event → Bool} {calls : List Call}
    (hkeep : ∀ key, keep (.keyLatched key) = false) :
    (latches calls).filter keep = [] := by
  rw [List.filter_eq_nil_iff, latches, List.forall_mem_map]
  exact fun key _ => by simp [hkeep key]

end Call

namespace Action

variable {σ ε α β : Type}

/-- Nothing but the characters that polls deliver is noted, each of them at once. -/
def Echoes (action : Action σ ε α) : Prop :=
  action.Ensures fun _ moments _ _ => ∃ calls, moments = Call.echoes calls

theorem Echoes.bind {action : Action σ ε α} {after : α → Action σ ε β}
    (haction : action.Echoes) (hafter : ∀ value, (after value).Echoes) :
    (action >>= after).Echoes := by
  refine Ensures.bind haction hafter ?_ fun _ _ _ _ hfirst => hfirst
  rintro _ _ _ _ _ _ _ ⟨earlier, rfl⟩ ⟨later, rfl⟩
  exact ⟨earlier ++ later, (Call.echoes_append earlier later).symm⟩

theorem Echoes.transcript {action : Action σ ε α} (haction : action.Echoes) {τ : Type}
    (console : Console τ) (before : σ) (state : τ) :
    (action before).transcript console state =
      Call.echoes ((action before).calls console state) := by
  obtain ⟨calls, hcalls⟩ := (haction before).converse console state
  rw [Dialogue.calls, hcalls, Call.calls_echoes]

end Action

theorem Memory.read_echoes (address : Word) : (read address).Echoes := by
  intro memory
  by_cases hstatus : address = DeviceCell.keyboardStatus.address
  · subst hstatus
    rw [read_status]
    intro answer
    rcases answer with failure | _ | key <;> exact ⟨[⟨.poll, _⟩], rfl⟩
  · rw [read_plain hstatus]
    exact ⟨[], rfl⟩

namespace Effect

theorem ask_echoes {request : Request} (hrequest : request ≠ .poll) : (ask request).Echoes := by
  intro machine answer
  refine ⟨[⟨request, answer⟩], ?_⟩
  cases request with
  | poll => exact absurd rfl hrequest
  | read | write | flush | interrupt => rfl

theorem load_echoes (address : Word) : (load address).Echoes := by
  intro machine
  rw [load_eq, Dialogue.ensures_bind]
  apply (Memory.read_echoes address machine.memory).mono
  intro moments outcome hmoments
  rwa [Dialogue.ensures_done, List.append_nil]

theorem basicParts_echo : BasicParts fun effect => effect.Echoes where
  pure _ _ := ⟨[], rfl⟩
  bind := .bind
  registers _ := ⟨[], rfl⟩
  changeRegisters _ _ := ⟨[], rfl⟩

theorem executionParts_echo : ExecutionParts fun effect => effect.Echoes where
  toBasicParts := basicParts_echo
  load := load_echoes
  store _ _ _ := ⟨[], rfl⟩

theorem serviceParts_echo : ServiceParts fun effect => effect.Echoes where
  toBasicParts := basicParts_echo
  write _ := ask_echoes nofun
  flush := ask_echoes nofun
  string _ := ⟨[], rfl⟩
  packedString _ := ⟨[], rfl⟩
  banner _ := ⟨[], rfl⟩

theorem execute_echoes (instruction : Instruction) (word : Word) :
    (execute instruction word).Echoes :=
  executionParts_echo.execute instruction word
    (fun requested _ => serviceParts_echo.service requested fun _ => ask_echoes nofun)
    fun _ _ _ => ⟨[], rfl⟩

end Effect

end LittleComputer

import LittleComputer.Proofs.Footprint
import LittleComputer.Proofs.Frame

namespace LittleComputer

/-! What trap services ask -/

namespace Effect

def Deaf {α : Type} (effect : Effect α) : Prop :=
  effect.Ensures fun _ moments _ _ => Call.inputs (Moment.calls moments) = 0

theorem deaf_bind {α β : Type} {effect : Effect α} {after : α → Effect β}
    (heffect : Deaf effect) (hafter : ∀ value, Deaf (after value)) :
    Deaf (effect >>= after) := by
  refine Action.Ensures.bind heffect hafter ?_ ?_
  · intro _ before _ _ moments _ _ hfirst hsecond
    rw [Moment.calls_append, Call.inputs_append, hfirst, hsecond]
  · intro _ _ _ _ hfirst
    exact hfirst

theorem parts_deaf : ServiceParts fun effect => Deaf effect where
  pure _ _ := rfl
  bind := deaf_bind
  registers _ := rfl
  changeRegisters _ _ := rfl
  string _ := rfl
  packedString _ := rfl
  banner _ := rfl
  write _ _ _ := rfl
  flush _ _ := rfl

theorem reader_of_read {σ : Type} {console : Console σ} {state : σ} {requested : TrapService}
    {machine : Machine} {answer : Answer .read}
    (hmem : ⟨.read, answer⟩ ∈ (service requested machine).calls console state) :
    requested = .getc ∨ requested = .input := by
  refine Decidable.byContradiction fun hreader => ?_
  have hdeaf := parts_deaf.service requested (fun hreads => absurd hreads hreader) machine
  cases Call.inputs_eq_zero_iff.mp (hdeaf.converse console state) _ hmem

/-- What a trap service hears. Where one reads a character, it gives it to the program,
unless it fails to show it. -/
inductive Heard {ε : Type} (requested : TrapService) (fault : ConsoleFailure → ε)
    (result : Except ε StepResult) (file : RegisterFile) : List Call → Prop
  | nothing {calls : List Call} (hcalls : Call.inputs calls = 0) :
      Heard requested fault result file calls
  | refused (earlier : List Call) (error : ConsoleFailure) (hearlier : Call.inputs earlier = 0) :
      Heard requested fault result file (earlier ++ [⟨.read, .error error⟩])
  | answered (earlier later : List Call) (byte : Byte)
      (hreader : requested = .getc ∨ requested = .input)
      (hearlier : Call.inputs earlier = 0) (hlater : Call.inputs later = 0)
      (hresult : result = .ok .completed) (hcharacter : file.read .r0 = byte.toUInt16) :
      Heard requested fault result file (earlier ++ ⟨.read, .ok byte⟩ :: later)
  | lost (earlier later : List Call) (byte : Byte) (request : Request) (error : ConsoleFailure)
      (hreader : requested = .input) (hearlier : Call.inputs earlier = 0)
      (hlater : Call.inputs (later ++ [⟨request, .error error⟩]) = 0)
      (hresult : result = .error (fault error)) :
      Heard requested fault result file
        (earlier ++ ⟨.read, .ok byte⟩ :: (later ++ [⟨request, .error error⟩]))

theorem service_heard (requested : TrapService) :
    (service requested).Ensures fun _ moments result after =>
      Heard requested Fault.Cause.console result after.registers (Moment.calls moments) := by
  by_cases hreader : requested = .getc ∨ requested = .input
  · -- The two readers are followed call by call.
    intro machine
    rcases hreader with rfl | rfl
    · intro answer
      rcases answer with error | byte
      · exact .refused [] error rfl
      · exact .answered [] [] byte (.inl rfl) rfl rfl rfl (RegisterFile.read_write_self ..)
    · intro prompted
      rcases prompted with error | ⟨⟩
      · exact .nothing rfl
      intro shown
      rcases shown with error | ⟨⟩
      · exact .nothing rfl
      intro answer
      rcases answer with error | byte
      · exact .refused [_, _] error rfl
      intro echoed
      rcases echoed with error | ⟨⟩
      · exact .lost [_, _] [] byte _ error rfl rfl rfl rfl
      intro flushed
      rcases flushed with error | ⟨⟩
      · exact .lost [_, _] [_] byte _ error rfl rfl rfl rfl
      · exact .answered [_, _] [_, _] byte (.inr rfl) rfl rfl rfl
          (RegisterFile.read_write_self ..)
  · have hdeaf := parts_deaf.service requested fun hreads => absurd hreads hreader
    exact Action.Ensures.mono hdeaf fun _ _ _ _ hcalls => .nothing hcalls

section

variable {ε δ : Type} {requested : TrapService} {fault : ConsoleFailure → ε}
  {result : Except ε StepResult} {file : RegisterFile} {calls : List Call}

theorem Heard.reads (hheard : Heard requested fault result file calls) :
    Call.inputs calls = 0 ∨ ∃ earlier answer later,
      calls = earlier ++ ⟨.read, answer⟩ :: later ∧
        Call.inputs earlier = 0 ∧ Call.inputs later = 0 := by
  cases hheard with
  | nothing hcalls => exact .inl hcalls
  | refused earlier error hearlier => exact .inr ⟨earlier, _, [], rfl, hearlier, rfl⟩
  | answered earlier later byte _ hearlier hlater =>
      exact .inr ⟨earlier, _, later, rfl, hearlier, hlater⟩
  | lost earlier later byte request error _ hearlier hlater =>
      exact .inr ⟨earlier, _, _, rfl, hearlier, hlater⟩

theorem Heard.inputs_le (hheard : Heard requested fault result file calls) :
    Call.inputs calls ≤ 1 := by
  obtain hcalls | ⟨earlier, answer, later, rfl, hearlier, hlater⟩ := hheard.reads
  · omega
  · simp [Call.inputs_cons, hearlier, hlater]

theorem Heard.unpolled (hheard : Heard requested fault result file calls)
    (answer : Answer .poll) : ⟨.poll, answer⟩ ∉ calls := by
  have hsilent {silent : List Call} (hcalls : Call.inputs silent = 0) :
      ⟨.poll, answer⟩ ∉ silent :=
    fun hmem => nomatch Call.inputs_eq_zero_iff.mp hcalls _ hmem
  obtain hcalls | ⟨earlier, answer, later, rfl, hearlier, hlater⟩ := hheard.reads
  · exact hsilent hcalls
  · simp [hsilent hearlier, hsilent hlater]

end

end Effect

namespace Machine

variable {σ : Type}

theorem settle_heard (before : RegisterFile) {requested : TrapService}
    {outcome : Except Fault.Cause StepResult × Machine} {calls : List Call}
    (hheard : Effect.Heard requested Fault.Cause.console outcome.1 outcome.2.registers calls) :
    Effect.Heard requested (fun error => (⟨before.pc, .console error⟩ : Fault))
      (settle before outcome).1 (settle before outcome).2.registers calls := by
  rcases outcome with ⟨cause | result, after⟩
  · cases hheard with
    | nothing hcalls => exact .nothing hcalls
    | refused earlier error hearlier => exact .refused earlier error hearlier
    | answered _ _ _ _ _ _ hresult => cases hresult
    | lost earlier later byte request error hreader hearlier hlater hresult =>
        cases hresult
        exact .lost earlier later byte request error hreader hearlier hlater rfl
  · cases hheard with
    | nothing hcalls => exact .nothing hcalls
    | refused earlier error hearlier => exact .refused earlier error hearlier
    | answered earlier later byte hreader hearlier hlater hresult hcharacter =>
        cases hresult
        exact .answered earlier later byte hreader hearlier hlater rfl hcharacter
    | lost _ _ _ _ _ _ _ _ hresult => cases hresult

theorem requests_holding {requested : TrapService} {word : Word}
    (hdecode : Instruction.decode word = .trap requested.vector) :
    (holding {} [word]).Requests requested where
  running := rfl
  plain := show (0x3000 : Word) ≠ DeviceCell.keyboardStatus.address by decide
  decodes := by
    rw [← hdecode]
    simp only [holding, ofConfig, Memory.writeWords, RegisterFile.pc_startingAt,
      Memory.peek_write_self]

def serving (machine : Machine) : Machine :=
  machine.mapRegisters fun file => file.advance.write .link file.advance.pc

theorem step_requested {machine : Machine} {requested : TrapService}
    (hrequests : machine.Requests requested) :
    step machine =
      .note (.fetched machine.registers.pc (machine.memory.peek machine.registers.pc))
        ((Effect.service requested machine.serving).bind fun outcome =>
          .done (settle machine.registers outcome)) := by
  obtain ⟨hrunning, hplain, hdecodes⟩ := hrequests
  rw [step_plain hrunning hplain rfl, hdecodes, Effect.execute, Effect.trap,
    TrapService.ofVector?_vector]
  rfl

theorem step_heard (console : Console σ) {machine : Machine} {requested : TrapService}
    (hrequests : machine.Requests requested) (state : σ) :
    Effect.Heard requested (fun error => (⟨machine.registers.pc, .console error⟩ : Fault))
        ((step machine).converse console state).1.1
        ((step machine).converse console state).1.2.registers
        ((step machine).calls console state) ∧
      ((step machine).converse console state).1.2.memory = machine.memory := by
  rw [step_requested hrequests]
  simp only [Dialogue.calls_note, Dialogue.calls_bind, Dialogue.converse_note,
    Dialogue.converse_bind, Dialogue.calls_done, Dialogue.converse_done, List.append_nil,
    settle_memory]
  constructor
  · exact settle_heard machine.registers ((Effect.service_heard requested _).converse console state)
  · exact (Effect.service_preserves (fun _ _ => rfl) requested _).converse console state

end Machine

end LittleComputer

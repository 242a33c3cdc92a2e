import Mathlib.Logic.ExistsUnique
import LittleComputer.Console.Failing
import LittleComputer.Console.Scripted
import LittleComputer.Proofs.Attempts
import LittleComputer.Proofs.ServiceCalls

namespace LittleComputer

/-! What becomes of the input -/

namespace Memory

variable {ε : Type} {memory after : Memory} {stores : Word → Word → Prop}
  {fault : ConsoleFailure → ε} {calls : List Call} {result : Except ε StepResult}

theorem Polls.received {byte : Byte} (hpolls : memory.Polls calls after)
    (hbyte : byte ∈ Call.received calls) :
    calls = [⟨.poll, .ok (some byte)⟩] ∧ after = memory.latchKey byte := by
  cases hpolls with
  | unasked => cases hbyte
  | answered found =>
      cases found with
      | none => cases hbyte
      | some key =>
          obtain rfl := List.mem_singleton.mp hbyte
          exact ⟨rfl, rfl⟩

theorem Footprint.inputs_le (hfootprint : memory.Footprint stores fault calls result after) :
    Call.inputs calls ≤ 1 := by
  cases hfootprint with
  | polled _ hpolls | stored hpolls =>
      cases hpolls with
      | unasked => exact Nat.zero_le 1
      | answered found => exact Nat.le_refl 1
  | failed error => exact Nat.le_refl 1

theorem Footprint.latched {byte : Byte}
    (hfootprint : memory.Footprint stores fault calls result after)
    (hbyte : byte ∈ Call.received calls) :
    calls = [⟨.poll, .ok (some byte)⟩] ∧
      after.peek DeviceCell.keyboardStatus.address = keyReady ∧
      after.peek DeviceCell.keyboardData.address = byte.toUInt16 := by
  cases hfootprint with
  | polled _ hpolls =>
      obtain ⟨hcalls, rfl⟩ := hpolls.received hbyte
      exact ⟨hcalls, peek_latchKey_status memory byte, peek_latchKey_data memory byte⟩
  | failed error => cases hbyte
  | stored hpolls _ hpointer =>
      obtain ⟨hcalls, rfl⟩ := hpolls.received hbyte
      refine ⟨hcalls, ?_⟩
      -- The pointer was polled, so it is the address of neither cell.
      obtain hnone | rfl | rfl := hpointer
      · rw [hcalls] at hnone
        cases hnone
      · rw [peek_write_of_ne _ _ (by decide), peek_write_of_ne _ _ (by decide)]
        exact ⟨peek_latchKey_status memory byte, peek_latchKey_data memory byte⟩
      · rw [peek_write_of_ne _ _ (by decide), peek_write_of_ne _ _ (by decide)]
        exact ⟨peek_latchKey_status memory byte, peek_latchKey_data memory byte⟩

end Memory

namespace Console

variable {σ : Type}

/-- The console plays a script, but for calls that fail and do not reach it. -/
def Plays (console : Console σ) (script : σ → Script) : Prop :=
  ∀ request state,
    ((∃ error, (console.answer request state).1 = .error error) ∧
        script (console.answer request state).2 = script state) ∨
      ((console.answer request state).1 = (Script.answer request (script state)).1 ∧
        script (console.answer request state).2 = (Script.answer request (script state)).2)

theorem plays_script : Script.console.Plays id :=
  fun _ _ => .inr ⟨rfl, rfl⟩

theorem plays_failing : Script.console.failing.Plays Failing.inner := by
  intro request state
  simp only [failing]
  rcases PlannedFailure.charge request.kind state.plans with ⟨_ | error, plans⟩
  · exact .inr ⟨rfl, rfl⟩
  · exact .inl ⟨⟨error, rfl⟩, rfl⟩

end Console

theorem Script.received_append_input (request : Request) (script : Script) :
    (Call.received? ⟨request, (answer request script).1⟩).toList ++
      (answer request script).2.input = script.input := by
  rcases script with ⟨input, output, interruptPending, flushes⟩
  cases request with
  | poll | read => cases input <;> rfl
  | write | flush => rfl
  | interrupt => cases interruptPending <;> rfl

theorem Call.received?_error (request : Request) (error : ConsoleFailure) :
    received? ⟨request, .error error⟩ = none := by
  cases request <;> rfl

theorem Dialogue.received_append_input {α σ : Type} {console : Console σ}
    {script : σ → Script} (hplays : console.Plays script) (dialogue : Dialogue α) (state : σ) :
    Call.received (dialogue.calls console state) ++
      (script (dialogue.converse console state).2).input = (script state).input := by
  induction dialogue generalizing state with
  | done value => rfl
  | note event rest ih => exact ih state
  | ask request next ih =>
      rw [calls_ask, Call.received_cons, converse_ask, List.append_assoc, ih]
      obtain ⟨⟨error, herror⟩, hscript⟩ | ⟨hanswer, hscript⟩ := hplays request state
      · rw [herror, hscript, Call.received?_error]
        rfl
      · rw [hanswer, hscript]
        exact (script state).received_append_input request

namespace Machine

variable {σ : Type}

/-- What has become of a byte that a step has consumed. -/
inductive InputUse where
  | character
  | latched
  /-- It was read and could not be shown. -/
  | lost

def InputUse.Describes (machine : Machine) (calls : List Call)
    (outcome : Except Fault StepResult × Machine) (byte : Byte) : InputUse → Prop
  | character =>
      (machine.Requests .getc ∨ machine.Requests .input) ∧ outcome.1 = .ok .completed ∧
        outcome.2.registers.read .r0 = byte.toUInt16
  | latched =>
      ⟨.poll, .ok (some byte)⟩ ∈ calls ∧ outcome.2.memory.peek 0xFE00 = 0x8000 ∧
        outcome.2.memory.peek 0xFE02 = byte.toUInt16
  | lost =>
      machine.Requests .input ∧ ∃ earlier later request error,
        calls = earlier ++ ⟨.read, .ok byte⟩ :: (later ++ [⟨request, .error error⟩]) ∧
          outcome.1 = .error ⟨machine.registers.pc, .console error⟩

section

variable {machine : Machine} {console : Console σ} {state : σ}

theorem step_inputs_le (console : Console σ) (machine : Machine) (state : σ) :
    Call.inputs ((step machine).calls console state) ≤ 1 := by
  by_cases hservice : ∃ requested, machine.Requests requested
  · obtain ⟨requested, hrequests⟩ := hservice
    exact (step_heard console hrequests state).1.inputs_le
  · exact (step_footprint console (not_exists.mp hservice) state).inputs_le

theorem describes_polled {byte : Byte} (hservice : ¬ ∃ requested, machine.Requests requested)
    (hbyte : byte ∈ Call.received ((step machine).calls console state)) :
    ∃! use : InputUse, use.Describes machine ((step machine).calls console state)
      ((step machine).converse console state).1 byte := by
  obtain ⟨hcalls, hstatus, hdata⟩ :=
    (step_footprint console (not_exists.mp hservice) state).latched hbyte
  refine ⟨.latched, ⟨?_, hstatus, hdata⟩, fun use huse => ?_⟩
  · rw [hcalls]
    exact List.mem_singleton_self _
  · cases use with
    | character => exact absurd (huse.1.elim (⟨_, ·⟩) (⟨_, ·⟩)) hservice
    | latched => rfl
    | lost => exact absurd ⟨_, huse.1⟩ hservice

theorem describes_read {byte : Byte} {requested : TrapService}
    (hrequests : machine.Requests requested)
    (hbyte : byte ∈ Call.received ((step machine).calls console state)) :
    ∃! use : InputUse, use.Describes machine ((step machine).calls console state)
      ((step machine).converse console state).1 byte := by
  obtain ⟨hheard, _⟩ := step_heard console hrequests state
  have hunpolled := hheard.unpolled (.ok (some byte))
  generalize (step machine).calls console state = calls at hheard hbyte hunpolled ⊢
  generalize ((step machine).converse console state).1 = outcome at hheard ⊢
  cases hheard with
  | nothing hcalls =>
      rw [Call.received_of_inputs hcalls] at hbyte
      cases hbyte
  | refused earlier error hearlier =>
      rw [Call.received_append, Call.received_of_inputs hearlier] at hbyte
      cases hbyte
  | answered earlier later read hreader hearlier hlater hresult hcharacter =>
      obtain rfl : byte = read := by
        simpa [Call.received_cons, Call.received_of_inputs hearlier,
          Call.received_of_inputs hlater, Call.received?] using hbyte
      refine ⟨.character, ⟨?_, hresult, hcharacter⟩, fun use huse => ?_⟩
      · rcases hreader with rfl | rfl
        · exact .inl hrequests
        · exact .inr hrequests
      · cases use with
        | character => rfl
        | latched => exact absurd huse.1 hunpolled
        | lost =>
            obtain ⟨_, _, _, _, _, _, hfault⟩ := huse
            rw [hresult] at hfault
            cases hfault
  | lost earlier later read request error hreader hearlier hlater hresult =>
      obtain rfl : byte = read := by
        simpa [Call.received_cons, Call.received_of_inputs hearlier,
          Call.received_of_inputs hlater, Call.received?] using hbyte
      refine ⟨.lost, ⟨hreader ▸ hrequests, earlier, later, request, error, rfl, hresult⟩,
        fun use huse => ?_⟩
      cases use with
      | character =>
          obtain ⟨_, hcompleted, _⟩ := huse
          rw [hresult] at hcompleted
          cases hcompleted
      | latched => exact absurd huse.1 hunpolled
      | lost => rfl

end

/-- A step asks for input at most once, and a byte that it has consumed is found again in one
place, unless it could not be shown. After any number of steps the bytes consumed and those
still pending are the input of the script. -/
theorem input_accounted (console : Console σ) (machine : Machine) (state : σ) :
    Call.inputs ((step machine).calls console state) ≤ 1 ∧
    (∀ byte ∈ Call.received ((step machine).calls console state),
      ∃! use : InputUse, use.Describes machine ((step machine).calls console state)
        ((step machine).converse console state).1 byte) ∧
    ∀ script : σ → Script, console.Plays script → ∀ count,
      Call.received ((attempts count machine).calls console state) ++
          (script ((attempts count machine).converse console state).2).input =
        (script state).input := by
  refine ⟨step_inputs_le console machine state, fun byte hbyte => ?_,
    fun script hplays count => (attempts count machine).received_append_input hplays state⟩
  by_cases hservice : ∃ requested, machine.Requests requested
  · obtain ⟨requested, hrequests⟩ := hservice
    exact describes_read hrequests hbyte
  · exact describes_polled hservice hbyte

theorem input_of_status_fetch :
    (∃! use : InputUse, use.Describes (ofConfig { entry := 0xFE00 })
      [⟨.poll, .ok (some 0x61)⟩]
      ((step (ofConfig { entry := 0xFE00 })).converse Script.console.failing
        ⟨{ input := [0x61, 0x62] }, [⟨.poll, 1, .closed⟩]⟩).1 0x61) ∧
    Call.received ((attempts 2 (ofConfig { entry := 0xFE00 })).calls Script.console.failing
        ⟨{ input := [0x61, 0x62] }, [⟨.poll, 1, .closed⟩]⟩) ++
      ((attempts 2 (ofConfig { entry := 0xFE00 })).converse Script.console.failing
        ⟨{ input := [0x61, 0x62] }, [⟨.poll, 1, .closed⟩]⟩).2.inner.input = [0x61, 0x62] := by
  have hrunning : (ofConfig { entry := 0xFE00 }).status = .running := rfl
  have hcalls := calls_step_status hrunning rfl Script.console.failing
    ⟨{ input := [0x61, 0x62] }, [⟨.poll, 1, .closed⟩]⟩
  obtain ⟨_, hdescribed, haccounted⟩ := input_accounted Script.console.failing
    (ofConfig { entry := 0xFE00 }) ⟨{ input := [0x61, 0x62] }, [⟨.poll, 1, .closed⟩]⟩
  rw [hcalls] at hdescribed
  exact ⟨hdescribed 0x61 (by decide), haccounted Failing.inner Console.plays_failing 2⟩

end Machine

end LittleComputer

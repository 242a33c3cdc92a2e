import LittleComputer.Proofs.Calls
import LittleComputer.Proofs.Step

namespace LittleComputer

/-! What a step does to memory -/

namespace Memory

def statusWord : Option Byte → Word
  | some _ => keyReady
  | none => 0

def refreshed (memory : Memory) : Option Byte → Memory
  | some key => memory.latchKey key
  | none => memory.clearReady

theorem statusWord_eq (found : Option Byte) :
    statusWord found = 0 ∨ statusWord found = keyReady := by
  cases found with
  | none => exact .inl rfl
  | some key => exact .inr rfl

theorem statusWord_plain (found : Option Byte) :
    statusWord found ≠ DeviceCell.keyboardStatus.address := by
  cases found <;> exact of_decide_eq_true rfl

/-- What calls of the console, if any, are those of one poll, and what it has left. -/
inductive Polls (memory : Memory) : List Call → Memory → Prop
  | unasked : Polls memory [] memory
  | answered (found : Option Byte) :
      Polls memory [⟨.poll, .ok found⟩] (memory.refreshed found)

/-- How an instruction that is no trap service leaves the memory, what it calls and how it
ends, where `stores` says what it may store and `fault` what a failing console gives. -/
inductive Footprint {ε : Type} (memory : Memory) (stores : Word → Word → Prop)
    (fault : ConsoleFailure → ε) : List Call → Except ε StepResult → Memory → Prop
  | polled {calls : List Call} {after : Memory} (result : Except ε StepResult)
      (hpolls : Polls memory calls after) : Footprint memory stores fault calls result after
  | failed (error : ConsoleFailure) :
      Footprint memory stores fault [⟨.poll, .error error⟩] (.error (fault error)) memory
  | stored {calls : List Call} {polled : Memory} {address value : Word}
      (hpolls : Polls memory calls polled) (hstores : stores address value)
      (hpointer : calls = [] ∨ address = 0 ∨ address = keyReady) :
      Footprint memory stores fault calls (.ok .completed) (polled.write address value)

theorem Footprint.convert {ε δ : Type} {memory after : Memory}
    {stores weaker : Word → Word → Prop} {fault : ConsoleFailure → ε} {calls : List Call}
    {result : Except ε StepResult} (convert : ε → δ)
    (hfootprint : memory.Footprint stores fault calls result after)
    (hstores : ∀ address value, stores address value → weaker address value) :
    memory.Footprint weaker (convert ∘ fault) calls (result.mapError convert) after := by
  cases hfootprint with
  | polled _ hpolls => exact .polled _ hpolls
  | failed error => exact .failed error
  | stored hpolls hstored hpointer => exact .stored hpolls (hstores _ _ hstored) hpointer

theorem Footprint.poll_of_mem {ε : Type} {memory after : Memory} {stores : Word → Word → Prop}
    {fault : ConsoleFailure → ε} {calls : List Call} {result : Except ε StepResult}
    (hfootprint : memory.Footprint stores fault calls result after) {call : Call}
    (hmem : call ∈ calls) : call.1 = .poll := by
  cases hfootprint with
  | polled _ hpolls | stored hpolls =>
      cases hpolls with
      | unasked => cases hmem
      | answered found => rw [List.mem_singleton.mp hmem]
  | failed error => rw [List.mem_singleton.mp hmem]

end Memory

namespace Effect

variable {σ : Type}

/-- The cell that an instruction stores to and the word it stores there. A pointer is read
as the instruction reads it. -/
def storing : Instruction → Effect (Option (Word × Word))
  | .st source offset => do
      let file ← registers
      return some (file.pcRelative offset, file.read source)
  | .sti source offset => do
      let file ← registers
      let pointer ← load (file.pcRelative offset)
      return some (pointer, file.read source)
  | .str source base offset => do
      let file ← registers
      return some (file.baseOffset base offset, file.read source)
  | _ => return none

theorem storing_indirect (source : Register) (offset : Word) (machine : Machine) :
    storing (.sti source offset) machine =
      (load (machine.registers.pcRelative offset) >>= fun pointer =>
        pure (some (pointer, machine.registers.read source))) machine := rfl

theorem fetch_plain {machine : Machine}
    (hplain : machine.registers.pc ≠ DeviceCell.keyboardStatus.address) :
    fetch machine =
      .note (.fetched machine.registers.pc (machine.memory.peek machine.registers.pc))
        (.done (.ok (machine.memory.peek machine.registers.pc),
          machine.mapRegisters RegisterFile.advance)) := by
  simp only [fetch, registers, changeRegisters, Action.bind_apply, Action.inspect_apply,
    Dialogue.bind_done, load_plain hplain]
  rfl

section

variable {console : Console σ} {machine : Machine} {state : σ} {address : Word}
  {stores : Word → Word → Prop} {after : Word → Effect StepResult}

theorem converse_load_status {found : Option Byte} {between : σ}
    (hanswer : console.answer .poll state = (.ok found, between)) :
    (load DeviceCell.keyboardStatus.address machine).converse console state =
      ((.ok (Memory.statusWord found),
        { machine with memory := machine.memory.refreshed found }), between) := by
  rw [load_status, Dialogue.converse_ask, hanswer]
  cases found <;> rfl

theorem calls_load_status {found : Option Byte} {between : σ}
    (hanswer : console.answer .poll state = (.ok found, between)) :
    (load DeviceCell.keyboardStatus.address machine).calls console state =
      [⟨.poll, .ok found⟩] := by
  rw [load_status, Dialogue.calls_ask, hanswer]
  cases found <;> rfl

theorem storing_sti {source : Register} {offset pointer : Word} {loaded : Machine} {between : σ}
    (hload : (load (machine.registers.pcRelative offset) machine).converse console state =
      ((.ok pointer, loaded), between)) :
    ((storing (.sti source offset) machine).converse console state).1.1 =
      .ok (some (pointer, machine.registers.read source)) := by
  rw [storing_indirect, Action.bind_apply, Dialogue.converse_bind, hload]
  rfl

/-- A load that polls is the last thing that an instruction asks. -/
theorem footprint_load
    (hplain : address ≠ DeviceCell.keyboardStatus.address →
      machine.memory.Footprint stores Fault.Cause.console
        ((after (machine.memory.peek address) machine).calls console state)
        ((after (machine.memory.peek address) machine).converse console state).1.1
        ((after (machine.memory.peek address) machine).converse console state).1.2.memory)
    (hpolled : ∀ found between,
      (load address machine).converse console state = ((.ok (Memory.statusWord found),
        { machine with memory := machine.memory.refreshed found }), between) →
      ∃ result final,
        after (Memory.statusWord found)
            { machine with memory := machine.memory.refreshed found } =
          .done (result, final) ∧
        machine.memory.Footprint stores Fault.Cause.console [⟨.poll, .ok found⟩] result
          final.memory) :
    machine.memory.Footprint stores Fault.Cause.console
      (((load address >>= after) machine).calls console state)
      (((load address >>= after) machine).converse console state).1.1
      (((load address >>= after) machine).converse console state).1.2.memory := by
  by_cases hstatus : address = DeviceCell.keyboardStatus.address
  · subst hstatus
    rw [Action.bind_apply, Dialogue.calls_bind, Dialogue.converse_bind]
    rcases hanswer : console.answer .poll state with ⟨error | found, between⟩
    · rw [load_status, Dialogue.calls_ask, Dialogue.converse_ask, hanswer]
      exact .failed error
    · obtain ⟨result, final, hdone, hfootprint⟩ :=
        hpolled found between (converse_load_status hanswer)
      rw [converse_load_status hanswer, calls_load_status hanswer]
      simp only [hdone]
      exact hfootprint
  · rw [Action.bind_apply, load_plain hstatus]
    exact hplain hstatus

end

theorem execute_footprint (console : Console σ) {instruction : Instruction}
    (hservice : ∀ requested : TrapService, instruction ≠ .trap requested.vector)
    (word : Word) (machine : Machine) (state : σ) :
    machine.memory.Footprint
      (fun address value =>
        ((storing instruction machine).converse console state).1.1 = .ok (some (address, value)))
      Fault.Cause.console ((execute instruction word machine).calls console state)
      ((execute instruction word machine).converse console state).1.1
      ((execute instruction word machine).converse console state).1.2.memory := by
  cases instruction with
  | br | add | and | not | lea | jmp | jsr | jsrr => exact .polled _ .unasked
  | ld | ldr =>
      refine footprint_load (fun _ => .polled _ .unasked) fun found _ _ => ?_
      exact ⟨_, _, rfl, .polled _ (.answered found)⟩
  | ldi =>
      refine footprint_load (fun _ => ?_) fun found _ _ => ?_
      · refine footprint_load (fun _ => .polled _ .unasked) fun found _ _ => ?_
        exact ⟨_, _, rfl, .polled _ (.answered found)⟩
      · -- What a poll leaves to be read is not the address of the status: it is not polled twice.
        rw [Action.bind_apply, load_plain (Memory.statusWord_plain found)]
        exact ⟨_, _, rfl, .polled _ (.answered found)⟩
  | st | str => exact .stored .unasked rfl (.inl rfl)
  | sti source offset =>
      refine footprint_load (fun hplain => ?_) fun found between hload => ?_
      · exact .stored .unasked (storing_sti (by rw [load_plain hplain]; rfl)) (.inl rfl)
      · exact ⟨_, _, rfl, .stored (.answered found) (storing_sti hload)
          (.inr (Memory.statusWord_eq found))⟩
  | trap vector =>
      rw [execute, trap]
      cases hvector : TrapService.ofVector? vector with
      | none => exact .polled _ .unasked
      | some requested =>
          have hrequested := TrapService.ofVector?_eq_some_iff.mp hvector
          exact absurd (congrArg Instruction.trap hrequested.symm) (hservice requested)
  | rti | reserved => exact .polled _ .unasked

end Effect

namespace Machine

variable {σ : Type}

structure Requests (machine : Machine) (requested : TrapService) : Prop where
  running : machine.status = .running
  plain : machine.registers.pc ≠ DeviceCell.keyboardStatus.address
  decodes : Instruction.decode (machine.memory.peek machine.registers.pc) =
    .trap requested.vector

def Stores (console : Console σ) (machine : Machine) (state : σ) (address value : Word) : Prop :=
  machine.status = .running ∧
    (((Effect.fetch >>= fun word => Effect.storing (Instruction.decode word)) machine).converse
      console state).1.1 = .ok (some (address, value))

theorem Stores.plain {console : Console σ} {machine : Machine} {state : σ} {address value : Word}
    (hstores : Stores console machine state address value) :
    machine.registers.pc ≠ DeviceCell.keyboardStatus.address := by
  intro hstatus
  obtain ⟨_, hstored⟩ := hstores
  simp only [Effect.fetch, Effect.registers, Action.bind_apply, Action.inspect_apply,
    Dialogue.bind_done, hstatus, Effect.load_status, Dialogue.bind_ask,
    Dialogue.converse_ask] at hstored
  generalize console.answer .poll state = reply at hstored
  rcases reply with ⟨error | _ | key, between⟩ <;> cases hstored

theorem settle_result (before : RegisterFile) (outcome : Except Fault.Cause StepResult × Machine) :
    (settle before outcome).1 = outcome.1.mapError fun cause => ⟨before.pc, cause⟩ := by
  rcases outcome with ⟨cause | result, after⟩ <;> rfl

theorem settle_memory (before : RegisterFile) (outcome : Except Fault.Cause StepResult × Machine) :
    (settle before outcome).2.memory = outcome.2.memory := by
  rcases outcome with ⟨cause | ⟨_ | _⟩, after⟩ <;> rfl

theorem calls_step_status {machine : Machine} (hrunning : machine.status = .running)
    (hstatus : machine.registers.pc = DeviceCell.keyboardStatus.address) (console : Console σ)
    (state : σ) :
    (step machine).calls console state = [⟨.poll, (console.answer .poll state).1⟩] := by
  rw [step_running hrunning, Effect.cycle_status hstatus, Dialogue.bind_ask, Dialogue.calls_ask]
  rcases (console.answer .poll state).1 with error | _ | key <;> rfl

theorem step_footprint (console : Console σ) {machine : Machine}
    (hservice : ∀ requested, ¬ machine.Requests requested) (state : σ) :
    machine.memory.Footprint (Stores console machine state)
      (fun error => (⟨machine.registers.pc, .console error⟩ : Fault))
      ((step machine).calls console state) ((step machine).converse console state).1.1
      ((step machine).converse console state).1.2.memory := by
  cases hstatus : machine.status with
  | halted =>
      rw [step_halted hstatus]
      exact .polled _ .unasked
  | running =>
      by_cases hplain : machine.registers.pc = DeviceCell.keyboardStatus.address
      · rw [converse_step_status hstatus hplain, calls_step_status hstatus hplain]
        rcases console.answer .poll state with ⟨error | _ | key, between⟩
        · exact .failed error
        · exact .polled _ (.answered none)
        · exact .polled _ (.answered (some key))
      · have hinstruction (requested : TrapService) :
            Instruction.decode (machine.memory.peek machine.registers.pc) ≠
              .trap requested.vector :=
          fun hdecode => hservice requested ⟨hstatus, hplain, hdecode⟩
        have hfootprint := Effect.execute_footprint console hinstruction
          (machine.memory.peek machine.registers.pc) (machine.mapRegisters RegisterFile.advance)
          state
        rw [step_plain hstatus hplain rfl]
        simp only [Dialogue.calls_note, Dialogue.calls_bind, Dialogue.converse_note,
          Dialogue.converse_bind, Dialogue.calls_done, Dialogue.converse_done, List.append_nil,
          settle_result, settle_memory]
        refine hfootprint.convert _ fun address value hstored => ⟨hstatus, ?_⟩
        rw [Action.bind_apply, Effect.fetch_plain hplain]
        exact hstored

end Machine

end LittleComputer

import LittleComputer.Proofs.Footprint
import LittleComputer.Proofs.Frame

namespace LittleComputer

/-! Instructions that retire -/

/-- The register that receives the result of an instruction. What else an instruction writes,
a return address above all, is no result. -/
def Instruction.result? : Instruction → Option Register
  | add destination .. | and destination .. | not destination .. | ld destination ..
  | ldi destination .. | ldr destination .. | lea destination .. => some destination
  | trap vector =>
      match TrapService.ofVector? vector with
      | some .getc | some .input => some .r0
      | _ => none
  | _ => none

def Instruction.stepResult : Instruction → StepResult
  | trap vector => if vector = TrapService.halt.vector then .halted else .completed
  | _ => .completed

theorem Instruction.stepResult_eq_halted_iff {instruction : Instruction} :
    instruction.stepResult = .halted ↔ instruction = .trap TrapService.halt.vector := by
  cases instruction with
  | trap vector =>
      rw [stepResult]
      split <;> simp_all
  | _ => simp [stepResult]

def Machine.condition (machine : Machine) : Condition :=
  machine.registers.condition

namespace Instruction

def isCall : Instruction → Bool
  | jsr _ | jsrr _ | trap _ => true
  | _ => false

def Writes (instruction : Instruction) (register : Register) : Prop :=
  instruction.result? = some register ∨ (instruction.isCall = true ∧ register = .link)

/-- What an instruction that retires makes of the registers it finds, with the program counter
already behind it. The condition is the sign of the result and stays where there is none. -/
structure Turns (instruction : Instruction) (before after : RegisterFile) : Prop where
  kept : ∀ register, ¬ instruction.Writes register → after.read register = before.read register
  condition : after.condition =
    match instruction.result? with
    | none => before.condition
    | some target => Condition.ofWord (after.read target)
  linked : instruction.isCall = true → after.read .link = before.pc
  jumped : ∀ base, instruction = .jmp base → after.pc = before.read base

namespace Turns

variable {instruction : Instruction} {before after : RegisterFile} {target : Register}

theorem of_result (hresult : instruction.result? = some target)
    (hcall : instruction.isCall = false) (value : Word) :
    instruction.Turns before (before.writeResult target value) where
  kept register hwrites := by
    have hne : register ≠ target := fun heq => hwrites (.inl (heq ▸ hresult))
    rw [RegisterFile.read_writeResult, if_neg hne]
  condition := by
    rw [hresult]
    exact congrArg Condition.ofWord (before.read_write_self target value).symm
  linked hlinks := by
    rw [hcall] at hlinks
    cases hlinks
  jumped base hjump := by
    rw [hjump] at hresult
    cases hresult

theorem of_kept (hresult : instruction.result? = none) (hcall : instruction.isCall = false)
    (hkept : ∀ register, after.read register = before.read register)
    (hcondition : after.condition = before.condition)
    (hjumped : ∀ base, instruction = .jmp base → after.pc = before.read base) :
    instruction.Turns before after where
  kept register _ := hkept register
  condition := by
    rw [hresult]
    exact hcondition
  linked hlinks := by
    rw [hcall] at hlinks
    cases hlinks
  jumped := hjumped

theorem of_link (hresult : instruction.result? = none) (hcall : instruction.isCall = true)
    (hread : ∀ register, after.read register = (before.write .link before.pc).read register)
    (hcondition : after.condition = before.condition) : instruction.Turns before after where
  kept register hwrites := by
    have hne : register ≠ .link := fun heq => hwrites (.inr ⟨hcall, heq⟩)
    rw [hread, RegisterFile.read_write, if_neg hne]
  condition := by
    rw [hresult]
    exact hcondition
  linked _ := (hread .link).trans (before.read_write_self .link before.pc)
  jumped base hjump := by
    rw [hjump] at hcall
    cases hcall

theorem of_link_result (hresult : instruction.result? = some target)
    (hcall : instruction.isCall = true) (hne : target ≠ .link) (value : Word) :
    instruction.Turns before
      ((before.write .link before.pc).writeResult target value) where
  kept register hwrites := by
    have htarget : register ≠ target := fun heq => hwrites (.inl (heq ▸ hresult))
    have hlink : register ≠ .link := fun heq => hwrites (.inr ⟨hcall, heq⟩)
    rw [RegisterFile.read_writeResult, if_neg htarget, RegisterFile.read_write, if_neg hlink]
  condition := by
    rw [hresult]
    exact congrArg Condition.ofWord (RegisterFile.read_write_self _ target value).symm
  linked _ := by
    rw [RegisterFile.read_writeResult, if_neg hne.symm, RegisterFile.read_write_self]
  jumped base hjump := by
    rw [hjump] at hresult
    cases hresult

end Turns

end Instruction

namespace Effect

def Relates (given : StepResult) (relation : RegisterFile → RegisterFile → Prop)
    (effect : Effect StepResult) : Prop :=
  effect.Ensures fun before _ result after => ∀ value, result = .ok value →
    value = given ∧ relation before.registers after.registers

section

variable {α : Type} {given : StepResult} {relation : RegisterFile → RegisterFile → Prop}

theorem Relates.bind {effect : Effect α} {after : α → Effect StepResult}
    (heffect : effect.Preserves Machine.registers)
    (hafter : ∀ value, Relates given relation (after value)) :
    Relates given relation (effect >>= after) := by
  refine Action.Ensures.bind heffect hafter ?_ fun _ _ _ _ _ => nofun
  intro start _ _ middle _ result finish hfirst hsecond value hvalue
  rw [← hfirst]
  exact hsecond value hvalue

theorem relates_pure (hrefl : ∀ file, relation file file) :
    Relates given relation (pure given) := by
  intro machine value hvalue
  cases hvalue
  exact ⟨rfl, hrefl machine.registers⟩

theorem relates_fail (cause : Fault.Cause) : Relates given relation (Action.fail cause) :=
  fun _ => nofun

theorem relates_retire {change : RegisterFile → RegisterFile}
    (hchange : ∀ file, relation file (change file)) :
    Relates .completed relation (retire change) := by
  intro machine value hvalue
  cases hvalue
  exact ⟨rfl, hchange machine.registers⟩

end

theorem load_preserves_registers (address : Word) :
    (load address).Preserves Machine.registers := by
  intro machine
  rw [load_eq, Dialogue.ensures_bind]
  exact Dialogue.ensures_of_forall (fun _ _ => rfl) _

theorem writeEach_preserves {κ : Type} {view : Machine → κ} (bytes : List Byte) :
    (writeEach bytes).Preserves view := by
  induction bytes with
  | nil => exact .pure ()
  | cons byte bytes ih => exact .bind (ask_preserves _) fun _ => ih

theorem service_relates (requested : TrapService) :
    Relates (Instruction.trap requested.vector).stepResult
      (fun before after =>
        match (Instruction.trap requested.vector).result? with
        | none => after = before
        | some target => ∃ value, after = before.writeResult target value)
      (service requested) := by
  rw [Instruction.result?, TrapService.ofVector?_vector]
  have hcharacter (byte : Byte) :
      Relates .completed (fun before after => ∃ value, after = before.writeResult .r0 value)
        (do setCharacter byte; return .completed) := by
    intro machine value hvalue
    cases hvalue
    exact ⟨rfl, _, rfl⟩
  have hflush : Relates .completed (fun before after => after = before)
      (do ask .flush; return .completed) :=
    .bind (ask_preserves _) fun _ => relates_pure fun _ => rfl
  cases requested with
  | getc => exact .bind (ask_preserves _) hcharacter
  | out => exact .bind (.inspect _) fun _ => .bind (ask_preserves _) fun _ => hflush
  | puts | putsp =>
      exact .bind (.inspect _) fun bytes => .bind (writeEach_preserves bytes) fun _ => hflush
  | input =>
      exact .bind (.bind (ask_preserves _) fun _ => ask_preserves _) fun _ =>
        .bind (ask_preserves _) fun byte => .bind (ask_preserves _) fun _ =>
          .bind (ask_preserves _) fun _ => hcharacter byte
  | halt =>
      refine .bind (.inspect _) fun banner => ?_
      cases banner with
      | false => exact relates_pure fun _ => rfl
      | true =>
          exact .bind (.bind (ask_preserves _) fun _ => ask_preserves _) fun _ =>
            relates_pure fun _ => rfl

theorem trap_turns (requested : TrapService) :
    Relates (Instruction.trap requested.vector).stepResult
      (Instruction.trap requested.vector).Turns (trap requested.vector) := by
  rw [trap, TrapService.ofVector?_vector]
  intro machine
  apply (service_relates requested
    (machine.mapRegisters fun file => file.write .link file.pc)).mono
  intro _ outcome hservice value hvalue
  obtain ⟨hgiven, hregisters⟩ := hservice value hvalue
  refine ⟨hgiven, ?_⟩
  split at hregisters
  next hresult =>
    rw [hregisters]
    exact .of_link hresult rfl (fun _ => rfl) rfl
  next target hresult =>
    obtain ⟨written, hwritten⟩ := hregisters
    have hne : target ≠ .link := by
      rintro rfl
      cases requested <;> exact absurd hresult (by decide)
    rw [hwritten]
    exact .of_link_result hresult rfl hne written

theorem relates_result {instruction : Instruction} {target : Register}
    (hresult : instruction.result? = some target) (hcall : instruction.isCall = false)
    {opcode : Opcode} (hopcode : opcode.setsCondition = true) (compute : RegisterFile → Word) :
    Relates .completed instruction.Turns
      (retire fun file => file.commit opcode target (compute file)) :=
  relates_retire fun file => by
    rw [RegisterFile.commit, if_pos hopcode]
    exact .of_result hresult hcall _

theorem execute_turns (instruction : Instruction) (word : Word) :
    Relates instruction.stepResult instruction.Turns (execute instruction word) := by
  cases instruction with
  | add target | and target | not target | lea target =>
      exact relates_result rfl rfl rfl _
  | br =>
      exact relates_retire fun file =>
        .of_kept rfl rfl (fun _ => by split <;> rfl) (by split <;> rfl) nofun
  | jmp =>
      refine relates_retire fun file => .of_kept rfl rfl (fun _ => rfl) rfl fun _ hjump => ?_
      cases hjump
      rfl
  | jsr | jsrr => exact relates_retire fun file => .of_link rfl rfl (fun _ => rfl) rfl
  | ld target | ldr target =>
      exact .bind (.inspect _) fun _ => .bind (load_preserves_registers _) fun value =>
        relates_result rfl rfl rfl fun _ => value
  | ldi target =>
      exact .bind (.inspect _) fun _ => .bind (load_preserves_registers _) fun pointer =>
        .bind (load_preserves_registers pointer) fun value =>
          relates_result rfl rfl rfl fun _ => value
  | st | str =>
      exact .bind (.inspect _) fun _ => .bind (.update fun _ => rfl) fun _ =>
        relates_pure fun _ => .of_kept rfl rfl (fun _ => rfl) rfl nofun
  | sti =>
      exact .bind (.inspect _) fun _ => .bind (load_preserves_registers _) fun _ =>
        .bind (.update fun _ => rfl) fun _ =>
          relates_pure fun _ => .of_kept rfl rfl (fun _ => rfl) rfl nofun
  | trap vector =>
      cases hvector : TrapService.ofVector? vector with
      | none =>
          rw [execute, trap, hvector]
          exact relates_fail _
      | some requested =>
          obtain rfl := TrapService.ofVector?_eq_some_iff.mp hvector
          exact trap_turns requested
  | rti | reserved => exact relates_fail _

end Effect

namespace Machine

variable {σ : Type} {console : Console σ} {machine after : Machine} {state left : σ}

structure Fetches (console : Console σ) (machine : Machine) (state : σ) (word : Word) : Prop where
  running : machine.status = .running
  read : ((Memory.read machine.registers.pc machine.memory).converse console state).1.1 = .ok word

theorem fetches_plain (hrunning : machine.status = .running)
    (hplain : machine.registers.pc ≠ DeviceCell.keyboardStatus.address) :
    Fetches console machine state (machine.memory.peek machine.registers.pc) :=
  ⟨hrunning, by rw [Memory.read_plain hplain]; rfl⟩

theorem Fetches.unique {word other : Word} (hfetches : Fetches console machine state word)
    (hother : Fetches console machine state other) : other = word :=
  Except.ok.inj (hother.read.symm.trans hfetches.read)

theorem Fetches.requests {word : Word} {requested : TrapService}
    (hfetches : Fetches console machine state word)
    (hdecode : Instruction.decode word = .trap requested.vector) : machine.Requests requested := by
  by_cases hplain : machine.registers.pc = DeviceCell.keyboardStatus.address
  · have hread := hfetches.read
    rw [hplain, Memory.read_status, Dialogue.converse_ask] at hread
    rcases hanswer : console.answer .poll state with ⟨error | _ | key, between⟩ <;>
      rw [hanswer] at hread <;> cases hread
    · rw [Effect.decode_zero] at hdecode
      cases hdecode
    · rw [Effect.decode_keyReady] at hdecode
      cases hdecode
  · obtain rfl := hfetches.unique (fetches_plain hfetches.running hplain)
    exact ⟨hfetches.running, hplain, hdecode⟩

structure Retires (console : Console σ) (machine : Machine) (state : σ) (word : Word)
    (result : StepResult) (after : Machine) : Prop extends Retired machine after result where
  fetches : Fetches console machine state word
  result : result = (Instruction.decode word).stepResult
  condition : after.condition =
    match (Instruction.decode word).result? with
    | none => machine.condition
    | some target => Condition.ofWord (after.registers.read target)

theorem Retires.halted_iff {word : Word} {result : StepResult}
    (hretires : Retires console machine state word result after) :
    after.status = .halted ↔ Instruction.decode word = .trap TrapService.halt.vector := by
  have hrunning := hretires.running_iff
  rw [← Instruction.stepResult_eq_halted_iff, ← hretires.result]
  cases hstatus : after.status <;> cases hresult : result <;> simp_all

theorem step_turns (hrunning : machine.status = .running)
    (hplain : machine.registers.pc ≠ DeviceCell.keyboardStatus.address) {word : Word}
    (hword : machine.memory.peek machine.registers.pc = word) :
    (step machine).Ensures fun _ outcome => ∀ value, outcome.1 = .ok value →
      value = (Instruction.decode word).stepResult ∧
        (Instruction.decode word).Turns machine.registers.advance outcome.2.registers := by
  rw [step_plain hrunning hplain hword, Dialogue.ensures_note, Dialogue.ensures_bind]
  apply (Effect.execute_turns _ _ _).mono
  intro moments outcome hexecuted
  rcases outcome with ⟨cause | value, final⟩
  · exact nofun
  · obtain ⟨hvalue, hturns⟩ := hexecuted value rfl
    intro _ hok
    cases hok
    refine ⟨hvalue, ?_⟩
    cases value <;> exact hturns

theorem turns_of_step {result : StepResult} (hrunning : machine.status = .running)
    (hstep : (step machine).converse console state = ((.ok result, after), left)) :
    ∃ word, Fetches console machine state word ∧
      result = (Instruction.decode word).stepResult ∧
      (Instruction.decode word).Turns machine.registers.advance after.registers := by
  by_cases hplain : machine.registers.pc = DeviceCell.keyboardStatus.address
  · -- Only the word of an idle keyboard retires there, a branch that is never taken.
    rw [converse_step_status hrunning hplain] at hstep
    rcases hanswer : console.answer .poll state with ⟨error | _ | key, between⟩
    · rw [hanswer] at hstep
      cases hstep
    · rw [hanswer] at hstep
      cases hstep
      refine ⟨0, ⟨hrunning, ?_⟩, rfl, .of_kept rfl rfl (fun _ => rfl) rfl nofun⟩
      rw [hplain, Memory.read_status, Dialogue.converse_ask, hanswer]
      rfl
    · rw [hanswer] at hstep
      cases hstep
  · have hturns := (step_turns hrunning hplain rfl).converse console state
    rw [hstep] at hturns
    exact ⟨_, fetches_plain hrunning hplain, hturns result rfl⟩

theorem retires_of_step {result : StepResult} (hrunning : machine.status = .running)
    (hstep : (step machine).converse console state = ((.ok result, after), left)) :
    ∃ word, Retires console machine state word result after := by
  have houtcome := (step_outcome machine).converse console state
  rw [hstep] at houtcome
  obtain ⟨_, hretired⟩ | ⟨hhalted, _⟩ := houtcome
  · obtain ⟨word, hfetches, hresult, hturns⟩ := turns_of_step hrunning hstep
    exact ⟨word, hretired, hfetches, hresult, hturns.condition⟩
  · rw [hrunning] at hhalted
    cases hhalted

end Machine

structure Retirement where
  instruction : Instruction
  registers : RegisterFile

def Retirement.result? (retirement : Retirement) : Option Word :=
  retirement.instruction.result?.map retirement.registers.read

namespace Machine

variable {σ : Type} {console : Console σ} {machine after : Machine} {state left : σ}

/-- What the next step retires. A halted machine and a faulting instruction retire nothing. -/
def retirement? (console : Console σ) (machine : Machine) (state : σ) : Option Retirement :=
  match machine.status, (step machine).converse console state with
  | .running, ((.ok _, after), _) =>
      match ((Memory.read machine.registers.pc machine.memory).converse console state).1.1 with
      | .ok word => some ⟨Instruction.decode word, after.registers⟩
      | .error _ => none
  | _, _ => none

theorem retirement?_halted (hhalted : machine.status = .halted) :
    retirement? console machine state = none := by
  rw [retirement?, hhalted]

theorem retirement?_fault {fault : Fault}
    (hstep : (step machine).converse console state = ((.error fault, after), left)) :
    retirement? console machine state = none := by
  rw [retirement?, hstep]
  cases machine.status <;> rfl

theorem Retires.retirement? {word : Word} {result : StepResult}
    (hretires : Retires console machine state word result after)
    (hstep : (step machine).converse console state = ((.ok result, after), left)) :
    retirement? console machine state = some ⟨Instruction.decode word, after.registers⟩ := by
  rw [Machine.retirement?, hretires.fetches.running, hstep]
  dsimp only
  rw [hretires.fetches.read]

theorem retirement?_plain {result : StepResult} (hrunning : machine.status = .running)
    (hplain : machine.registers.pc ≠ DeviceCell.keyboardStatus.address)
    (hstep : (step machine).converse console state = ((.ok result, after), left)) :
    retirement? console machine state =
      some ⟨Instruction.decode (machine.memory.peek machine.registers.pc), after.registers⟩ := by
  obtain ⟨word, hretires⟩ := retires_of_step hrunning hstep
  obtain rfl := hretires.fetches.unique (fetches_plain hrunning hplain)
  exact hretires.retirement? hstep

theorem exists_retires {retirement : Retirement}
    (hretired : retirement? console machine state = some retirement) :
    ∃ word result after left,
      (step machine).converse console state = ((.ok result, after), left) ∧
        Retires console machine state word result after ∧
        retirement = ⟨Instruction.decode word, after.registers⟩ := by
  cases hstatus : machine.status with
  | halted =>
      rw [retirement?_halted hstatus] at hretired
      cases hretired
  | running =>
      rcases hstep : (step machine).converse console state with ⟨⟨fault | result, after⟩, left⟩
      · rw [retirement?_fault hstep] at hretired
        cases hretired
      · obtain ⟨word, hretires⟩ := retires_of_step hstatus hstep
        rw [hretires.retirement? hstep] at hretired
        exact ⟨word, result, after, left, rfl, hretires, (Option.some.inj hretired).symm⟩

end Machine

end LittleComputer

import LittleComputer.Proofs.Cycle

namespace LittleComputer

/-! Instructions from their parts

What the parts of an instruction have in common, and what holds of two effects in sequence
when it holds of both, holds of every instruction. -/

namespace Effect

variable {law : ∀ {α : Type}, Effect α → Prop}

structure BasicParts (law : ∀ {α : Type}, Effect α → Prop) : Prop where
  pure : ∀ {α : Type} (value : α), law (Pure.pure value : Effect α)
  bind : ∀ {α β : Type} {effect : Effect α} {after : α → Effect β},
    law effect → (∀ value, law (after value)) → law (effect >>= after)
  registers : law registers
  changeRegisters : ∀ change, law (changeRegisters change)

structure OutputParts (law : ∀ {α : Type}, Effect α → Prop) : Prop
    extends BasicParts law where
  write : ∀ bytes, law (ask (.write bytes))
  flush : law (ask .flush)

/-- A law of what trap services are made of, but for the reading of a character. -/
structure ServiceParts (law : ∀ {α : Type}, Effect α → Prop) : Prop
    extends OutputParts law where
  string : law (Action.inspect fun machine : Machine =>
    machine.memory.string (machine.registers.read .r0))
  packedString : law (Action.inspect fun machine : Machine =>
    machine.memory.packedString (machine.registers.read .r0))
  banner : law (Action.inspect fun machine : Machine => machine.config.banner)

structure ExecutionParts (law : ∀ {α : Type}, Effect α → Prop) : Prop
    extends BasicParts law where
  load : ∀ address, law (load address)
  store : ∀ address value, law (store address value)

structure InstructionParts (law : ∀ {α : Type}, Effect α → Prop) : Prop
    extends ExecutionParts law where
  note : ∀ event, law (Action.note event)

/-- A law of everything that an instruction cycle is made of, but for refusals. -/
structure CycleParts (law : ∀ {α : Type}, Effect α → Prop) : Prop
    extends ServiceParts law, InstructionParts law where
  read : law (ask .read)

namespace BasicParts

variable (parts : BasicParts law)

include parts

theorem retire (change : RegisterFile → RegisterFile) : law (retire change) :=
  parts.bind (parts.changeRegisters change) fun _ => parts.pure _

theorem trap (vector : Byte)
    (hservice : ∀ requested, vector = requested.vector → law (service requested))
    (hrefused : TrapService.ofVector? vector = none →
      law (Action.fail (.undefinedTrap vector) : Effect StepResult)) :
    law (trap vector) := by
  rw [Effect.trap]
  cases hvector : TrapService.ofVector? vector with
  | none => exact hrefused hvector
  | some requested =>
      exact parts.bind (parts.changeRegisters _) fun _ =>
        hservice requested (TrapService.ofVector?_eq_some_iff.mp hvector).symm

end BasicParts

namespace OutputParts

variable (parts : OutputParts law)

include parts

theorem writeEach (bytes : List Byte) : law (writeEach bytes) := by
  induction bytes with
  | nil => exact parts.pure ()
  | cons byte bytes ih => exact parts.bind (parts.write [byte]) fun _ => ih

theorem writeText (text : String) : law (writeText text) :=
  parts.bind (parts.write _) fun _ => parts.flush

theorem service (requested : TrapService)
    (hread : requested = .getc ∨ requested = .input → law (Effect.ask .read))
    (hstring : requested = .puts → law (Action.inspect fun machine : Machine =>
      machine.memory.string (machine.registers.read .r0)))
    (hpackedString : requested = .putsp → law (Action.inspect fun machine : Machine =>
      machine.memory.packedString (machine.registers.read .r0)))
    (hbanner : requested = .halt → law (Action.inspect fun machine : Machine =>
      machine.config.banner)) :
    law (service requested) := by
  cases requested with
  | getc =>
      exact parts.bind (hread (.inl rfl)) fun _ =>
        parts.bind (parts.changeRegisters _) fun _ => parts.pure _
  | out =>
      exact parts.bind parts.registers fun _ => parts.bind (parts.write _) fun _ =>
        parts.bind parts.flush fun _ => parts.pure _
  | puts =>
      exact parts.bind (hstring rfl) fun bytes => parts.bind (parts.writeEach bytes) fun _ =>
        parts.bind parts.flush fun _ => parts.pure _
  | input =>
      exact parts.bind (parts.writeText _) fun _ => parts.bind (hread (.inr rfl)) fun _ =>
        parts.bind (parts.write _) fun _ => parts.bind parts.flush fun _ =>
          parts.bind (parts.changeRegisters _) fun _ => parts.pure _
  | putsp =>
      exact parts.bind (hpackedString rfl) fun bytes =>
        parts.bind (parts.writeEach bytes) fun _ =>
          parts.bind parts.flush fun _ => parts.pure _
  | halt =>
      refine parts.bind (hbanner rfl) fun banner => ?_
      cases banner with
      | false => exact parts.pure _
      | true => exact parts.bind (parts.writeText _) fun _ => parts.pure _

end OutputParts

theorem ServiceParts.service (parts : ServiceParts law) (requested : TrapService)
    (hread : requested = .getc ∨ requested = .input → law (Effect.ask .read)) :
    law (service requested) :=
  parts.toOutputParts.service requested hread (fun _ => parts.string)
    (fun _ => parts.packedString) fun _ => parts.banner

def refusal? (instruction : Instruction) (word : Word) : Option Fault.Cause :=
  match instruction with
  | .trap vector =>
      if TrapService.ofVector? vector = none then some (.undefinedTrap vector) else none
  | .rti | .reserved => some (.illegal instruction.opcode word)
  | _ => none

theorem refusal?_trap (vector : Byte) (word : Word) :
    refusal? (.trap vector) word =
      if TrapService.ofVector? vector = none then some (.undefinedTrap vector) else none := rfl

theorem refusal?_service (requested : TrapService) (word : Word) :
    refusal? (.trap requested.vector) word = none := by
  rw [refusal?_trap, TrapService.ofVector?_vector, if_neg (Option.some_ne_none requested)]

theorem execute_refused {instruction : Instruction} {word : Word} {cause : Fault.Cause}
    (hrefused : refusal? instruction word = some cause) :
    execute instruction word = Action.fail cause := by
  cases instruction with
  | trap vector =>
      rw [refusal?_trap] at hrefused
      split at hrefused
      next hvector =>
        cases hrefused
        rw [execute, trap, hvector]
      next => cases hrefused
  | rti | reserved =>
      cases hrefused
      rfl
  | _ => cases hrefused

theorem kind_of_refused {instruction : Instruction} {word : Word} {cause : Fault.Cause}
    (hrefused : refusal? instruction word = some cause) : cause.kind = .program := by
  cases instruction with
  | trap vector =>
      rw [refusal?_trap] at hrefused
      split at hrefused <;> cases hrefused
      rfl
  | rti | reserved =>
      cases hrefused
      rfl
  | _ => cases hrefused

theorem ExecutionParts.execute (parts : ExecutionParts law) (instruction : Instruction)
    (word : Word)
    (hservice : ∀ requested, instruction = .trap requested.vector → law (service requested))
    (hrefused : ∀ cause, refusal? instruction word = some cause →
      law (Action.fail cause : Effect StepResult)) :
    law (execute instruction word) := by
  cases instruction with
  | br | add | and | not | lea | jmp | jsr | jsrr => exact parts.retire _
  | ld | ldr =>
      exact parts.bind parts.registers fun _ =>
        parts.bind (parts.load _) fun _ => parts.retire _
  | ldi =>
      exact parts.bind parts.registers fun _ => parts.bind (parts.load _) fun pointer =>
        parts.bind (parts.load pointer) fun _ => parts.retire _
  | st | str =>
      exact parts.bind parts.registers fun _ =>
        parts.bind (parts.store _ _) fun _ => parts.pure _
  | sti =>
      exact parts.bind parts.registers fun _ => parts.bind (parts.load _) fun pointer =>
        parts.bind (parts.store pointer _) fun _ => parts.pure _
  | trap vector =>
      exact parts.trap vector
        (fun requested hvector => hservice requested (congrArg Instruction.trap hvector))
        fun hvector => hrefused _ (if_pos hvector)
  | rti | reserved => exact hrefused _ rfl

theorem InstructionParts.cycle (parts : InstructionParts law)
    (hservice : ∀ requested, law (service requested))
    (hrefused : ∀ cause : Fault.Cause, cause.kind = .program →
      law (Action.fail cause : Effect StepResult)) : law cycle :=
  parts.bind (parts.bind parts.registers fun file => parts.bind (parts.load file.pc) fun word =>
      parts.bind (parts.changeRegisters _) fun _ =>
        parts.bind (parts.note _) fun _ => parts.pure word)
    fun word => parts.execute _ word (fun requested _ => hservice requested) fun cause hcause =>
      hrefused cause (kind_of_refused hcause)

namespace CycleParts

variable (parts : CycleParts law)

include parts

theorem execute (instruction : Instruction) (word : Word)
    (hrefused : ∀ cause, refusal? instruction word = some cause →
      law (Action.fail cause : Effect StepResult)) :
    law (execute instruction word) :=
  parts.toInstructionParts.execute instruction word
    (fun requested _ => parts.service requested fun _ => parts.read) hrefused

theorem cycle (hrefused : ∀ cause : Fault.Cause, cause.kind = .program →
    law (Action.fail cause : Effect StepResult)) : law cycle :=
  parts.toInstructionParts.cycle
    (fun requested => parts.service requested fun _ => parts.read) hrefused

end CycleParts

end Effect

end LittleComputer

import LittleComputer.Proofs.Parts

namespace LittleComputer

/-! What execution sees of the configuration

Only the halt service looks at it, and only for its banner. -/

namespace Action

variable {σ ε δ α β : Type}

/-- The action goes on alike before and after the change, and leaves the change in place. -/
def Ignores (change : σ → σ) (action : Action σ ε α) : Prop :=
  ∀ state, action (change state) =
    (action state).bind fun outcome => .done (outcome.1, change outcome.2)

namespace Ignores

variable {change : σ → σ}

theorem pure (value : α) : Ignores change (Pure.pure value : Action σ ε α) :=
  fun _ => rfl

theorem fail (error : ε) : Ignores change (Action.fail error : Action σ ε α) :=
  fun _ => rfl

theorem note (event : Event) : Ignores change (Action.note event : Action σ ε Unit) :=
  fun _ => rfl

theorem ask (request : Request) : Ignores change (Action.ask request) :=
  fun _ => rfl

theorem inspect {look : σ → α} (hlook : ∀ state, look (change state) = look state) :
    Ignores change (Action.inspect look : Action σ ε α) := by
  intro state
  rw [inspect_apply, hlook]
  rfl

theorem update {step : σ → σ} (hstep : ∀ state, step (change state) = change (step state)) :
    Ignores change (Action.update step : Action σ ε Unit) := by
  intro state
  rw [update_apply, hstep]
  rfl

theorem mapError (convert : ε → δ) {action : Action σ ε α} (haction : Ignores change action) :
    Ignores change (action.mapError convert) := by
  intro state
  rw [mapError_apply, haction, mapError_apply, Dialogue.bind_assoc, Dialogue.bind_assoc]
  rfl

theorem bind {action : Action σ ε α} {after : α → Action σ ε β}
    (haction : Ignores change action) (hafter : ∀ value, Ignores change (after value)) :
    Ignores change (action >>= after) := by
  intro state
  rw [bind_apply, haction, bind_apply, Dialogue.bind_assoc, Dialogue.bind_assoc]
  congr 1
  funext outcome
  rcases outcome with ⟨error | value, between⟩
  · rfl
  · exact hafter value between

end Ignores

end Action

namespace Machine

def reconfigure (machine : Machine) (change : Config → Config) : Machine :=
  { machine with config := change machine.config }

def withLimit (machine : Machine) (limit : Option UInt64) : Machine :=
  machine.reconfigure fun config => { config with limit := limit }

@[simp] theorem withLimit_withLimit (machine : Machine) (first second : Option UInt64) :
    (machine.withLimit first).withLimit second = machine.withLimit second := rfl

@[simp] theorem budget_withLimit_some (machine : Machine) (limit : UInt64) :
    (machine.withLimit (some limit)).config.budget = limit.toNat := rfl

@[simp] theorem budget_withLimit_none (machine : Machine) :
    (machine.withLimit none).config.budget = UInt64.size := rfl

end Machine

namespace Effect

section

variable (change : Config → Config)

theorem outputParts_ignore :
    OutputParts fun effect => effect.Ignores fun machine => machine.reconfigure change where
  pure := .pure
  bind := .bind
  registers := .inspect fun _ => rfl
  changeRegisters _ := .update fun _ => rfl
  write _ := .mapError _ (.ask _)
  flush := .mapError _ (.ask _)

theorem instructionParts_ignore :
    InstructionParts fun effect => effect.Ignores fun machine => machine.reconfigure change where
  toBasicParts := (outputParts_ignore change).toBasicParts
  load address := by
    intro machine
    rw [load_eq, load_eq, Dialogue.bind_assoc]
    rfl
  store _ _ := .update fun _ => rfl
  note := .note

theorem execute_ignores {instruction : Instruction}
    (hgoes : instruction ≠ .trap TrapService.halt.vector) (word : Word) :
    (execute instruction word).Ignores fun machine => machine.reconfigure change := by
  refine (instructionParts_ignore change).execute instruction word ?_ fun cause _ => .fail cause
  intro requested hrequested
  exact (outputParts_ignore change).service requested (fun _ => .mapError _ (.ask _))
    (fun _ => .inspect fun _ => rfl) (fun _ => .inspect fun _ => rfl)
    fun hhalt => absurd (hhalt ▸ hrequested) hgoes

end

end Effect

section

variable {change : Config → Config} (hbanner : ∀ config, (change config).banner = config.banner)

include hbanner

theorem Effect.parts_ignore_configuration :
    Effect.CycleParts fun effect => effect.Ignores fun machine => machine.reconfigure change where
  toOutputParts := Effect.outputParts_ignore change
  string := .inspect fun _ => rfl
  packedString := .inspect fun _ => rfl
  banner := .inspect fun machine => hbanner machine.config
  read := .mapError _ (.ask _)
  load := (Effect.instructionParts_ignore change).load
  store := (Effect.instructionParts_ignore change).store
  note := .note

namespace Machine

theorem step_ignores_configuration :
    Action.Ignores (fun machine => machine.reconfigure change) step := by
  intro machine
  cases hstatus : machine.status with
  | running =>
      have hreconfigured : (machine.reconfigure change).status = .running := hstatus
      rw [step_running hstatus, step_running hreconfigured,
        (Effect.parts_ignore_configuration hbanner).cycle (fun cause _ => .fail cause) machine,
        Dialogue.bind_assoc, Dialogue.bind_assoc]
      congr 1
      funext outcome
      rcases outcome with ⟨cause | ⟨_ | _⟩, after⟩ <;> rfl
  | halted =>
      have hreconfigured : (machine.reconfigure change).status = .halted := hstatus
      rw [step_halted hstatus, step_halted hreconfigured]
      rfl

theorem runFor_ignores_configuration (spent : Ending) (budget steps : Nat) :
    Action.Ignores (fun machine => machine.reconfigure change) (runFor spent budget steps) := by
  have hrunning (machine : Machine) :
      (machine.reconfigure change).isRunning = machine.isRunning := rfl
  induction budget generalizing steps with
  | zero =>
      intro machine
      rw [runFor, runFor, hrunning]
      split <;> rfl
  | succ budget ih =>
      intro machine
      rw [runFor, runFor, hrunning]
      split
      · rw [Dialogue.bind_ask]
        congr 1
        funext answer
        rcases answer with error | ⟨⟩
        · rfl
        · rw [step_ignores_configuration hbanner machine, Dialogue.bind_assoc,
            Dialogue.bind_assoc]
          apply congrArg (step machine).bind
          funext outcome
          rcases outcome with ⟨fault | result, after⟩
          · rfl
          · exact ih (steps + 1) after
      · rfl

end Machine

end

end LittleComputer

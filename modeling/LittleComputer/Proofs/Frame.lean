import LittleComputer.Proofs.Parts

namespace LittleComputer

/-! What instructions leave alone -/

namespace Action

variable {σ ε δ κ α β : Type}

/-- What `view` shows of the state stays as it is, also when the action fails. -/
def Preserves (view : σ → κ) (action : Action σ ε α) : Prop :=
  action.Ensures fun before _ _ after => view after = view before

namespace Preserves

variable {view : σ → κ}

theorem pure (value : α) : Preserves view (Pure.pure value : Action σ ε α) :=
  fun _ => rfl

theorem fail (error : ε) : Preserves view (Action.fail error : Action σ ε α) :=
  fun _ => rfl

theorem inspect (look : σ → α) :
    Preserves view (Action.inspect look : Action σ ε α) :=
  fun _ => rfl

theorem note (event : Event) : Preserves view (Action.note event : Action σ ε Unit) :=
  fun _ => rfl

theorem ask (request : Request) : Preserves view (Action.ask request) :=
  fun _ _ => rfl

theorem update {change : σ → σ} (hchange : ∀ state, view (change state) = view state) :
    Preserves view (Action.update change : Action σ ε Unit) :=
  hchange

theorem mapError (convert : ε → δ) {action : Action σ ε α}
    (haction : Preserves view action) : Preserves view (action.mapError convert) :=
  Ensures.mapError convert haction fun _ _ _ _ hview => hview

theorem bind {action : Action σ ε α} {after : α → Action σ ε β}
    (haction : Preserves view action) (hafter : ∀ value, Preserves view (after value)) :
    Preserves view (action >>= after) :=
  Ensures.bind haction hafter
    (fun _ _ _ _ _ _ _ hfirst hsecond => hsecond.trans hfirst)
    (fun _ _ _ _ hfirst => hfirst)

end Preserves

end Action

namespace Effect

variable {κ : Type} {view : Machine → κ}

theorem ask_preserves (request : Request) : Action.Preserves view (ask request) :=
  .mapError _ (.ask request)

section

variable (hregisters : ∀ (machine : Machine) (file : RegisterFile),
  view { machine with registers := file } = view machine)

include hregisters

theorem serviceParts_preserve : ServiceParts fun effect => effect.Preserves view where
  pure := .pure
  bind := .bind
  registers := .inspect _
  changeRegisters change := .update fun machine => hregisters machine (change machine.registers)
  string := .inspect _
  packedString := .inspect _
  banner := .inspect _
  write _ := ask_preserves _
  flush := ask_preserves _

theorem service_preserves (requested : TrapService) :
    Action.Preserves view (service requested) :=
  (serviceParts_preserve hregisters).service requested fun _ => ask_preserves _

theorem trap_preserves (vector : Byte) : Action.Preserves view (trap vector) :=
  (serviceParts_preserve hregisters).trap vector
    (fun requested _ => service_preserves hregisters requested) fun _ => .fail _

variable (hmemory : ∀ (machine : Machine) (memory : Memory),
  view { machine with memory := memory } = view machine)

include hmemory

theorem cycleParts_preserve : CycleParts fun effect => effect.Preserves view where
  toServiceParts := serviceParts_preserve hregisters
  read := ask_preserves _
  load address := by
    intro machine
    rw [load_eq, Dialogue.ensures_bind]
    refine Dialogue.ensures_of_forall (fun _ outcome => ?_) _
    exact hmemory machine outcome.2
  store address value := .update fun machine =>
    hmemory machine (machine.memory.write address value)
  note := .note

end

end Effect

namespace Machine

structure Frame where
  status : Status
  config : Config
  retired : UInt64

def frame (machine : Machine) : Frame :=
  ⟨machine.status, machine.config, machine.retired⟩

theorem frame_eq_iff {left right : Machine} :
    left.frame = right.frame ↔
      left.status = right.status ∧ left.config = right.config ∧
        left.retired = right.retired := by
  simp [frame]

theorem cycle_preserves_frame : Action.Preserves frame Effect.cycle :=
  (Effect.cycleParts_preserve (fun _ _ => rfl) fun _ _ => rfl).cycle fun cause _ => .fail cause

end Machine

end LittleComputer

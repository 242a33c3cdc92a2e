import LittleComputer.Console.Scripted
import LittleComputer.Proofs.Transcript

namespace LittleComputer

/-! Calls of the console -/

namespace Call

def isInput : Call → Bool
  | ⟨.poll, _⟩ | ⟨.read, _⟩ => true
  | _ => false

def received? : Call → Option Byte
  | ⟨.poll, .ok (some key)⟩ => some key
  | ⟨.read, .ok key⟩ => some key
  | _ => none

def found? : Call → Option (Option Byte)
  | ⟨.poll, .ok found⟩ => some found
  | _ => none

@[simp] theorem isInput_poll (answer : Answer .poll) : isInput ⟨.poll, answer⟩ = true := rfl

@[simp] theorem isInput_read (answer : Answer .read) : isInput ⟨.read, answer⟩ = true := rfl

@[simp] theorem isInput_write (bytes : List Byte) (answer : Answer (.write bytes)) :
    isInput ⟨.write bytes, answer⟩ = false := rfl

@[simp] theorem isInput_flush (answer : Answer .flush) : isInput ⟨.flush, answer⟩ = false := rfl

theorem received?_of_not_isInput {call : Call} (hcall : call.isInput = false) :
    call.received? = none := by
  rcases call with ⟨request, answer⟩
  cases request <;> first | rfl | cases hcall

def received (calls : List Call) : List Byte :=
  calls.filterMap received?

def found (calls : List Call) : List (Option Byte) :=
  calls.filterMap found?

def inputs (calls : List Call) : Nat :=
  calls.countP isInput

theorem received_cons (call : Call) (calls : List Call) :
    received (call :: calls) = call.received?.toList ++ received calls := by
  rw [received, List.filterMap_cons]
  cases call.received? <;> rfl

theorem inputs_cons (call : Call) (calls : List Call) :
    inputs (call :: calls) = inputs calls + if call.isInput then 1 else 0 :=
  List.countP_cons

theorem inputs_eq_zero_iff {calls : List Call} :
    inputs calls = 0 ↔ ∀ call ∈ calls, call.isInput = false := by
  simp [inputs, List.countP_eq_zero]

theorem received_of_inputs {calls : List Call} (hcalls : inputs calls = 0) :
    received calls = [] := by
  rw [received, List.filterMap_eq_nil_iff]
  intro call hmem
  exact received?_of_not_isInput (inputs_eq_zero_iff.mp hcalls call hmem)

theorem found_of_unpolled {calls : List Call}
    (hunpolled : ∀ answer : Answer .poll, ⟨.poll, answer⟩ ∉ calls) : found calls = [] := by
  rw [found, List.filterMap_eq_nil_iff]
  intro call hmem
  rcases call with ⟨request, answer⟩
  cases request with
  | poll => exact absurd hmem (hunpolled answer)
  | read | write | flush | interrupt => rfl

@[simp] theorem received_append (first second : List Call) :
    received (first ++ second) = received first ++ received second :=
  List.filterMap_append

@[simp] theorem found_append (first second : List Call) :
    found (first ++ second) = found first ++ found second :=
  List.filterMap_append

@[simp] theorem inputs_append (first second : List Call) :
    inputs (first ++ second) = inputs first + inputs second :=
  List.countP_append

end Call

namespace Dialogue

variable {α σ : Type}

theorem forall_calls_of_invariant {console : Console σ} (invariant : σ → Prop)
    {property : Call → Prop}
    (hanswer : ∀ request state, invariant state →
      property ⟨request, (console.answer request state).1⟩ ∧
        invariant (console.answer request state).2)
    (dialogue : Dialogue α) {state : σ} (hstate : invariant state) :
    ∀ call ∈ dialogue.calls console state, property call := by
  induction dialogue generalizing state with
  | done value => exact nofun
  | note event rest ih => exact ih hstate
  | ask request next ih =>
      obtain ⟨hcall, hafter⟩ := hanswer request state hstate
      rw [calls_ask, List.forall_mem_cons]
      exact ⟨hcall, ih _ hafter⟩

theorem forall_calls {console : Console σ} {property : Call → Prop}
    (hanswer : ∀ request state, property ⟨request, (console.answer request state).1⟩)
    (dialogue : Dialogue α) (state : σ) : ∀ call ∈ dialogue.calls console state, property call :=
  forall_calls_of_invariant (fun _ => True)
    (fun request state _ => ⟨hanswer request state, trivial⟩) dialogue trivial

end Dialogue

namespace Script

theorem failing_answer {request : Request} {script : Script}
    (hfails : Call.Fails ⟨request, (console.answer request script).1⟩) :
    (⟨request, (console.answer request script).1⟩ : Call) = ⟨.read, .error .closed⟩ ∨
      (⟨request, (console.answer request script).1⟩ : Call) =
        ⟨.interrupt, .error .interrupted⟩ := by
  rcases script with ⟨input, output, interruptPending, flushes⟩
  cases request with
  | poll => cases input <;> exact absurd hfails (Call.not_fails_ok _ _)
  | read =>
      cases input with
      | nil => exact .inl rfl
      | cons key input => exact absurd hfails (Call.not_fails_ok _ _)
  | write | flush => exact absurd hfails (Call.not_fails_ok _ _)
  | interrupt =>
      cases interruptPending with
      | true => exact .inr rfl
      | false => exact absurd hfails (Call.not_fails_ok _ _)

variable {α : Type} {dialogue : Dialogue α} {script : Script} {call : Call}

theorem failing_call (hmem : call ∈ dialogue.calls console script) (hfails : call.Fails) :
    call = ⟨.read, .error .closed⟩ ∨ call = ⟨.interrupt, .error .interrupted⟩ := by
  have hcalls : ∀ call ∈ dialogue.calls console script, call.Fails →
      call = ⟨.read, .error .closed⟩ ∨ call = ⟨.interrupt, .error .interrupted⟩ :=
    Dialogue.forall_calls (fun _ _ => failing_answer) dialogue script
  exact hcalls call hmem hfails

/-- An interrupt that was not raised before the conversation is not raised in it. -/
theorem failing_call_unraised (hunraised : script.interruptPending = false)
    (hmem : call ∈ dialogue.calls console script) (hfails : call.Fails) :
    call = ⟨.read, .error .closed⟩ := by
  have hcalls : ∀ call ∈ dialogue.calls console script,
      call ≠ ⟨.interrupt, .error .interrupted⟩ := by
    refine Dialogue.forall_calls_of_invariant (fun script => script.interruptPending = false)
      ?_ dialogue hunraised
    rintro request ⟨input, output, _, flushes⟩ rfl
    cases request with
    | poll | read => cases input <;> exact ⟨nofun, rfl⟩
    | write | flush | interrupt => exact ⟨nofun, rfl⟩
  exact (failing_call hmem hfails).resolve_right (hcalls call hmem)

end Script

end LittleComputer

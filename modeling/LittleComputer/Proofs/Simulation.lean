import LittleComputer.Proofs.FailingCalls

namespace LittleComputer

/-! One conversation held with two consoles -/

namespace Console

variable {σ τ : Type}

def after (console : Console σ) : σ → List Call → σ
  | state, [] => state
  | state, call :: calls => console.after (console.answer call.1 state).2 calls

theorem after_append (console : Console σ) (state : σ) (first second : List Call) :
    console.after state (first ++ second) = console.after (console.after state first) second := by
  induction first generalizing state with
  | nil => rfl
  | cons call first ih => exact ih _

theorem after_of_invariant {console : Console σ} (invariant : σ → Prop)
    (hanswer : ∀ request state, invariant state → invariant (console.answer request state).2)
    {state : σ} (hstate : invariant state) (calls : List Call) :
    invariant (console.after state calls) := by
  induction calls generalizing state with
  | nil => exact hstate
  | cons call calls ih => exact ih (hanswer call.1 state hstate)

/-- As long as the answers of `first` are allowed, `second` gives the same ones, and the states
stay related. -/
def Imitates (second : Console τ) (first : Console σ) (related : σ → τ → Prop)
    (allowed : Call → Prop) : Prop :=
  ∀ request state other, related state other →
    allowed ⟨request, (first.answer request state).1⟩ →
      (second.answer request other).1 = (first.answer request state).1 ∧
        related (first.answer request state).2 (second.answer request other).2

end Console

namespace Dialogue

variable {α σ τ : Type}

theorem after_calls (console : Console σ) (dialogue : Dialogue α) (state : σ) :
    console.after state (dialogue.calls console state) = (dialogue.converse console state).2 := by
  induction dialogue generalizing state with
  | done value => rfl
  | note event rest ih => exact ih state
  | ask request next ih => exact ih _ _

section

variable {first : Console σ} {second : Console τ} {related : σ → τ → Prop}
  {allowed : Call → Prop} (himitates : second.Imitates first related allowed)

include himitates

theorem converse_imitated {dialogue : Dialogue α} {state : σ} {other : τ}
    (hrelated : related state other) (hcalls : ∀ call ∈ dialogue.calls first state, allowed call) :
    (dialogue.converse second other).1 = (dialogue.converse first state).1 ∧
      dialogue.calls second other = dialogue.calls first state ∧
      related (dialogue.converse first state).2 (dialogue.converse second other).2 := by
  induction dialogue generalizing state other with
  | done value => exact ⟨rfl, rfl, hrelated⟩
  | note event rest ih => exact ih hrelated hcalls
  | ask request next ih =>
      rw [calls_ask, List.forall_mem_cons] at hcalls
      obtain ⟨hcall, hrest⟩ := hcalls
      obtain ⟨hanswer, hafter⟩ := himitates request state other hrelated hcall
      rw [converse_ask, converse_ask, calls_ask, calls_ask, hanswer]
      obtain ⟨hvalue, hlater, hfinal⟩ := ih _ hafter hrest
      exact ⟨hvalue, congrArg (List.cons _) hlater, hfinal⟩

/-- Otherwise they part at the first answer that is not. -/
theorem calls_parted {dialogue : Dialogue α} {state : σ} {other : τ}
    (hrelated : related state other)
    (hcalls : ¬ ∀ call ∈ dialogue.calls first state, allowed call) :
    ∃ earlier request later rest,
      let before := first.after state earlier
      let beside := second.after other earlier
      dialogue.calls first state =
          earlier ++ ⟨request, (first.answer request before).1⟩ :: later ∧
        dialogue.calls second other =
          earlier ++ ⟨request, (second.answer request beside).1⟩ :: rest ∧
        (∀ call ∈ earlier, allowed call) ∧
        ¬ allowed ⟨request, (first.answer request before).1⟩ ∧ related before beside := by
  induction dialogue generalizing state other with
  | done value => exact absurd nofun hcalls
  | note event rest ih => exact ih hrelated hcalls
  | ask request next ih =>
      by_cases hallowed : allowed ⟨request, (first.answer request state).1⟩
      · rw [calls_ask, List.forall_mem_cons] at hcalls
        obtain ⟨hanswer, hafter⟩ := himitates request state other hrelated hallowed
        obtain ⟨earlier, parting, later, rest, hfirst, hsecond, hearlier, hparted⟩ :=
          ih (first.answer request state).1 hafter fun hrest => hcalls ⟨hallowed, hrest⟩
        refine ⟨⟨request, (first.answer request state).1⟩ :: earlier, parting, later, rest,
          congrArg (List.cons _) hfirst, ?_, List.forall_mem_cons.mpr ⟨hallowed, hearlier⟩,
          hparted⟩
        rw [calls_ask, hanswer]
        exact congrArg (List.cons _) hsecond
      · exact ⟨[], request, _, _, rfl, rfl, nofun, hallowed, hrelated⟩

end

end Dialogue

end LittleComputer

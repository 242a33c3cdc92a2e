import LittleComputer.Proofs.Step

namespace LittleComputer

/-! Rounds of the run loop -/

namespace Machine

variable {σ : Type}

/-- What the run loop does between its tests: the console may break it off, and otherwise
one instruction is executed. -/
def round : Action Machine Fault StepResult := fun machine =>
  .ask .interrupt fun
    | .error error => .done (.error ⟨machine.registers.pc, .console error⟩, machine)
    | .ok () => step machine

theorem converse_round {console : Console σ} {state after : σ}
    (hunbroken : console.answer .interrupt state = (.ok (), after)) (machine : Machine) :
    (round machine).converse console state = (step machine).converse console after := by
  rw [round, Dialogue.converse_ask, hunbroken]

def rounds : (count : Nat) → Action Machine Fault Unit
  | 0 => pure ()
  | count + 1 => do
      let _ ← round
      rounds count

theorem round_outcome : round.Ensures fun before _ result after =>
    match result with
    | .ok result =>
        (before.status = .running ∧ Retired before after result) ∨
          (before.status = .halted ∧ result = .halted ∧ after = before)
    | .error fault => Withdrawn before after fault := by
  intro before answer
  cases answer with
  | error error => exact ⟨rfl, rfl, rfl⟩
  | ok _ =>
      apply (step_outcome before).mono
      intro moments outcome houtcome
      rcases outcome with ⟨_ | result, after⟩
      · exact houtcome.2
      · exact houtcome

def RoundsReach (console : Console σ) (machine : Machine) (state : σ) (count : Nat)
    (reached : Machine) (between : σ) : Prop :=
  (rounds count machine).converse console state = ((.ok (), reached), between)

section

variable {console : Console σ} {machine reached : Machine} {state between : σ}

theorem roundsReach_zero_iff :
    RoundsReach console machine state 0 reached between ↔
      reached = machine ∧ between = state := by
  simp only [RoundsReach, rounds, Action.pure_apply, Dialogue.converse_done, Prod.mk.injEq,
    true_and, eq_comm]

theorem roundsReach_succ_iff {count : Nat} :
    RoundsReach console machine state (count + 1) reached between ↔
      ∃ result next after,
        (round machine).converse console state = ((.ok result, next), after) ∧
          RoundsReach console next after count reached between := by
  simp only [RoundsReach, rounds, Action.bind_apply, Dialogue.converse_bind]
  rcases (round machine).converse console state with ⟨⟨error | result, next⟩, after⟩
  · simp
  · constructor
    · intro hrest
      exact ⟨result, next, after, rfl, hrest⟩
    · intro ⟨_, _, _, heq, hrest⟩
      cases heq
      exact hrest

theorem roundsReach_succ_iff_last {count : Nat} :
    RoundsReach console machine state (count + 1) reached between ↔
      ∃ middle before result,
        RoundsReach console machine state count middle before ∧
          (round middle).converse console before = ((.ok result, reached), between) := by
  induction count generalizing machine state with
  | zero =>
      simp only [roundsReach_succ_iff, roundsReach_zero_iff]
      constructor
      · intro ⟨result, next, after, hround, hreached, hbetween⟩
        subst hreached hbetween
        exact ⟨_, _, result, ⟨rfl, rfl⟩, hround⟩
      · intro ⟨middle, before, result, ⟨hmiddle, hbefore⟩, hround⟩
        subst hmiddle hbefore
        exact ⟨result, _, _, hround, rfl, rfl⟩
  | succ count ih =>
      constructor
      · intro hreached
        obtain ⟨first, next, after, hfirst, hrest⟩ := roundsReach_succ_iff.mp hreached
        obtain ⟨middle, before, result, hmiddle, hlast⟩ := ih.mp hrest
        exact ⟨middle, before, result,
          roundsReach_succ_iff.mpr ⟨first, next, after, hfirst, hmiddle⟩, hlast⟩
      · intro ⟨middle, before, result, hreached, hlast⟩
        obtain ⟨first, next, after, hfirst, hmiddle⟩ := roundsReach_succ_iff.mp hreached
        exact roundsReach_succ_iff.mpr
          ⟨first, next, after, hfirst, ih.mpr ⟨middle, before, result, hmiddle, hlast⟩⟩

theorem RoundsReach.faults {count : Nat} {fault : Fault} {final : Machine} {left : σ}
    (hreached : RoundsReach console machine state count reached between)
    (hround : (round reached).converse console between = ((.error fault, final), left)) :
    (rounds (count + 1) machine).converse console state = ((.error fault, final), left) := by
  induction count generalizing machine state with
  | zero =>
      obtain ⟨rfl, rfl⟩ := roundsReach_zero_iff.mp hreached
      simp only [rounds, Action.bind_apply, Dialogue.converse_bind, hround,
        Dialogue.converse_done]
  | succ count ih =>
      obtain ⟨result, next, after, hfirst, hrest⟩ := roundsReach_succ_iff.mp hreached
      rw [rounds, Action.bind_apply, Dialogue.converse_bind, hfirst]
      exact ih hrest

theorem roundsReach_logged_iff {count : Nat} {log later : List Call} :
    RoundsReach console.logged machine (state, log) count reached (between, later) ↔
      RoundsReach console machine state count reached between ∧
        later = log ++ (rounds count machine).calls console state := by
  rw [RoundsReach, RoundsReach, Dialogue.converse_logged]
  simp only [Prod.ext_iff, and_assoc, eq_comm]

theorem RoundsReach.unique {count : Nat} {other : Machine} {elsewhere : σ}
    (hreached : RoundsReach console machine state count reached between)
    (hother : RoundsReach console machine state count other elsewhere) :
    other = reached ∧ elsewhere = between := by
  rw [RoundsReach, hreached] at hother
  simp only [Prod.mk.injEq, true_and] at hother
  exact ⟨hother.1.symm, hother.2.symm⟩

theorem RoundsReach.of_le {count fewer : Nat} (hle : fewer ≤ count)
    (hreached : RoundsReach console machine state count reached between) :
    ∃ middle before, RoundsReach console machine state fewer middle before := by
  induction count generalizing reached between with
  | zero =>
      obtain rfl : fewer = 0 := Nat.le_zero.mp hle
      exact ⟨_, _, hreached⟩
  | succ count ih =>
      rcases Nat.lt_or_eq_of_le hle with hlt | rfl
      · obtain ⟨middle, before, result, hmiddle, hlast⟩ :=
          roundsReach_succ_iff_last.mp hreached
        exact ih (Nat.le_of_lt_succ hlt) hmiddle
      · exact ⟨_, _, hreached⟩

theorem RoundsReach.config {count : Nat}
    (hreached : RoundsReach console machine state count reached between) :
    reached.config = machine.config := by
  induction count generalizing machine state with
  | zero =>
      obtain ⟨rfl, rfl⟩ := roundsReach_zero_iff.mp hreached
      rfl
  | succ count ih =>
      obtain ⟨result, next, after, hround, hrest⟩ := roundsReach_succ_iff.mp hreached
      have hnext : next.config = machine.config := by
        have houtcome := (round_outcome machine).converse console state
        rw [hround] at houtcome
        rcases houtcome with ⟨_, hretired⟩ | ⟨_, _, rfl⟩
        · exact hretired.config
        · rfl
      exact (ih hrest).trans hnext

def StaysRunning (console : Console σ) (machine : Machine) (state : σ) (count : Nat) : Prop :=
  ∀ fewer < count, ∀ middle before,
    RoundsReach console machine state fewer middle before → middle.status = .running

theorem StaysRunning.zero : StaysRunning console machine state 0 :=
  fun fewer hfewer => absurd hfewer (Nat.not_lt_zero fewer)

theorem StaysRunning.succ {next : Machine} {after : σ} {result : StepResult} {count : Nat}
    (hrunning : machine.status = .running)
    (hround : (round machine).converse console state = ((.ok result, next), after))
    (hrest : StaysRunning console next after count) :
    StaysRunning console machine state (count + 1) := by
  intro fewer hfewer middle before hmiddle
  cases fewer with
  | zero =>
      obtain ⟨rfl, rfl⟩ := roundsReach_zero_iff.mp hmiddle
      exact hrunning
  | succ fewer =>
      obtain ⟨_, _, _, hfirst, hreached⟩ := roundsReach_succ_iff.mp hmiddle
      rw [hround] at hfirst
      cases hfirst
      exact hrest fewer (Nat.lt_of_succ_lt_succ hfewer) middle before hreached

theorem StaysRunning.head {count : Nat}
    (hrunning : StaysRunning console machine state (count + 1)) : machine.status = .running :=
  hrunning 0 (Nat.succ_pos count) machine state (roundsReach_zero_iff.mpr ⟨rfl, rfl⟩)

theorem StaysRunning.tail {next : Machine} {after : σ} {result : StepResult} {count : Nat}
    (hrunning : StaysRunning console machine state (count + 1))
    (hround : (round machine).converse console state = ((.ok result, next), after)) :
    StaysRunning console next after count := by
  intro fewer hfewer middle before hmiddle
  exact hrunning (fewer + 1) (Nat.succ_lt_succ hfewer) middle before
    (roundsReach_succ_iff.mpr ⟨result, next, after, hround, hmiddle⟩)

theorem StaysRunning.snoc {count : Nat}
    (hstays : StaysRunning console machine state count)
    (hreached : RoundsReach console machine state count reached between)
    (hrunning : reached.status = .running) :
    StaysRunning console machine state (count + 1) := by
  intro fewer hfewer middle before hmiddle
  rcases Nat.lt_or_eq_of_le (Nat.le_of_lt_succ hfewer) with hlt | rfl
  · exact hstays fewer hlt middle before hmiddle
  · obtain ⟨rfl, rfl⟩ := hreached.unique hmiddle
    exact hrunning

theorem RoundsReach.retired {count : Nat}
    (hreached : RoundsReach console machine state count reached between)
    (hrunning : StaysRunning console machine state count) :
    reached.retired = machine.retired + UInt64.ofNat count := by
  induction count generalizing reached between with
  | zero =>
      obtain ⟨rfl, rfl⟩ := roundsReach_zero_iff.mp hreached
      simp
  | succ count ih =>
      obtain ⟨middle, before, result, hmiddle, hlast⟩ :=
        roundsReach_succ_iff_last.mp hreached
      have hstatus := hrunning count (Nat.lt_succ_self count) middle before hmiddle
      have hbefore := ih hmiddle fun fewer hfewer =>
        hrunning fewer (Nat.lt_succ_of_lt hfewer)
      have houtcome := (round_outcome middle).converse console before
      rw [hlast] at houtcome
      rcases houtcome with ⟨_, hretired⟩ | ⟨hhalted, _⟩
      · rw [hretired.retired, hbefore, UInt64.ofNat_add, UInt64.add_assoc]
        rfl
      · rw [hstatus] at hhalted
        cases hhalted

end

end Machine

end LittleComputer

import Mathlib.Algebra.GroupWithZero.Nat
import Mathlib.Data.Finset.Card
import LittleComputer.Proofs.Composition
import LittleComputer.Proofs.RunCalls
import LittleComputer.Proofs.Simulation

namespace LittleComputer

/-! Runs that are broken off and called again -/

namespace Console

variable {σ τ : Type}

structure Relays (other : Console τ) (console : Console σ) (inner : τ → σ) (pending : τ → Nat)
    (request : Request) (state : τ) : Prop where
  answer : (other.answer request state).1 = (console.answer request (inner state)).1
  inner : inner (other.answer request state).2 = (console.answer request (inner state)).2
  pending : pending (other.answer request state).2 = pending state

structure BreaksOff (other : Console τ) (inner : τ → σ) (pending : τ → Nat) (state : τ) :
    Prop where
  answer : (other.answer .interrupt state).1 = .error .interrupted
  inner : inner (other.answer .interrupt state).2 = inner state
  pending : pending (other.answer .interrupt state).2 < pending state

/-- The console is another one with interrupts of its own, of which so many are pending. Each is
reported once, when the run asks for it, and has no other effect. -/
structure Interjects (other : Console τ) (console : Console σ) (inner : τ → σ)
    (pending : τ → Nat) : Prop where
  relays : ∀ request state, request ≠ .interrupt → Relays other console inner pending request state
  checks : ∀ state,
    Relays other console inner pending .interrupt state ∨ BreaksOff other inner pending state

/-- Breaks off the checks with these numbers. They are counted from zero. -/
def interruptedAt (console : Console σ) (broken : Finset Nat) : Console (σ × Nat) where
  answer
    | .interrupt, (state, checks) =>
        if checks ∈ broken then
          (.error .interrupted, state, checks + 1)
        else
          let (answer, after) := console.answer .interrupt state
          (answer, after, checks + 1)
    | request, (state, checks) =>
        let (answer, after) := console.answer request state
        (answer, after, checks)

theorem interruptedAt_interjects (console : Console σ) (broken : Finset Nat) :
    (console.interruptedAt broken).Interjects console Prod.fst
      fun state => (broken.filter (state.2 ≤ ·)).card where
  relays request state hrequest := by
    cases request with
    | poll | read | write | flush => exact ⟨rfl, rfl, rfl⟩
    | interrupt => exact absurd rfl hrequest
  checks := by
    intro ⟨state, checks⟩
    by_cases hbroken : checks ∈ broken
    · right
      refine ⟨by simp [interruptedAt, hbroken], by simp [interruptedAt, hbroken], ?_⟩
      simp only [interruptedAt, hbroken, if_true]
      apply Finset.card_lt_card
      refine Finset.ssubset_iff_subset_ne.mpr ⟨fun later hlater => ?_, fun heq => ?_⟩
      · rw [Finset.mem_filter] at hlater ⊢
        exact ⟨hlater.1, Nat.le_of_succ_le hlater.2⟩
      · have hmem : checks ∈ broken.filter (checks ≤ ·) :=
          Finset.mem_filter.mpr ⟨hbroken, Nat.le_refl checks⟩
        rw [← heq, Finset.mem_filter] at hmem
        exact Nat.not_succ_le_self checks hmem.2
    · left
      refine ⟨by simp [interruptedAt, hbroken], by simp [interruptedAt, hbroken], ?_⟩
      simp only [interruptedAt, hbroken, if_false]
      congr 1
      apply Finset.filter_congr
      intro later hlater
      have hne : checks ≠ later := fun heq => hbroken (heq ▸ hlater)
      omega

end Console

theorem Script.raised_interjects :
    Script.console.Interjects Script.console
      (fun script => { script with interruptPending := false })
      fun script => script.interruptPending.toNat where
  relays request script hrequest := by
    rcases script with ⟨input, output, interruptPending, flushes⟩
    cases request with
    | poll | read => cases input <;> exact ⟨rfl, rfl, rfl⟩
    | write | flush => exact ⟨rfl, rfl, rfl⟩
    | interrupt => exact absurd rfl hrequest
  checks script := by
    rcases script with ⟨input, output, interruptPending, flushes⟩
    cases interruptPending with
    | false => exact .inl ⟨rfl, rfl, rfl⟩
    | true => exact .inr ⟨rfl, rfl, Nat.zero_lt_one⟩

namespace Action

variable {σ ε α β : Type}

def Unchecked (action : Action σ ε α) : Prop :=
  action.Ensures fun _ moments _ _ => ∀ call ∈ Moment.calls moments, call.1 ≠ .interrupt

theorem Unchecked.bind {action : Action σ ε α} {after : α → Action σ ε β}
    (haction : action.Unchecked) (hafter : ∀ value, (after value).Unchecked) :
    (action >>= after).Unchecked := by
  refine Ensures.bind haction hafter ?_ fun _ _ _ _ hfirst => hfirst
  intro _ before _ _ moments _ _ hfirst hsecond
  rw [Moment.calls_append]
  exact List.forall_mem_append.mpr ⟨hfirst, hsecond⟩

end Action

namespace Effect

theorem ask_unchecked {request : Request} (hrequest : request ≠ .interrupt) :
    (ask request).Unchecked := by
  intro machine answer call hmem
  rwa [List.mem_singleton.mp hmem]

theorem load_unchecked (address : Word) : (load address).Unchecked := by
  intro machine
  by_cases hstatus : address = DeviceCell.keyboardStatus.address
  · subst hstatus
    rw [load_status]
    intro answer
    rcases answer with failure | _ | key <;>
      exact fun call hmem => List.mem_singleton.mp hmem ▸ nofun
  · rw [load_plain hstatus]
    exact nofun

theorem parts_unchecked : CycleParts fun effect => effect.Unchecked where
  pure _ _ := nofun
  bind := .bind
  registers _ := nofun
  changeRegisters _ _ := nofun
  string _ := nofun
  packedString _ := nofun
  banner _ := nofun
  write _ := ask_unchecked nofun
  flush := ask_unchecked nofun
  read := ask_unchecked nofun
  load := load_unchecked
  store _ _ _ := nofun
  note _ _ := nofun

end Effect

namespace Machine

theorem step_unchecked : step.Unchecked := by
  intro machine
  cases hstatus : machine.status with
  | running =>
      rw [step_running hstatus, Dialogue.ensures_bind]
      apply (Effect.parts_unchecked.cycle (fun _ _ _ => nofun) machine).mono
      intro moments outcome hcalls
      rwa [Dialogue.ensures_done, List.append_nil]
  | halted =>
      rw [step_halted hstatus]
      exact nofun

section

variable {σ τ : Type} {console : Console σ} {other : Console τ} {inner : τ → σ}
  {pending : τ → Nat}

/-- A run that an interrupt has broken off before an instruction of which nothing is done yet,
after `count` others. The machine and the console inside are where so many undisturbed rounds
lead, and the machine still runs. -/
structure BrokenOff (console : Console σ) (other : Console τ) (inner : τ → σ) (machine : Machine)
    (state : τ) (count : Nat) (middle : Machine) (between : τ) : Prop where
  fault : (run machine).converse other state =
    ((.error ⟨middle.registers.pc, .console .interrupted⟩, middle), between)
  reaches : RoundsReach console machine (inner state) count middle (inner between)
  running : middle.status = .running
  retired : middle.retired = machine.retired + UInt64.ofNat count

/-- Runs one after the other, of which all but the last were broken off, after so many
instructions each. -/
inductive Resumed (console : Console σ) (other : Console τ) (inner : τ → σ) :
    Machine → τ → List Nat → (Except Fault RunSummary × Machine) × τ → Prop
  | last (machine : Machine) (state : τ) :
      Resumed console other inner machine state [] ((run machine).converse other state)
  | again {machine middle : Machine} {state between : τ} {count : Nat} {counts : List Nat}
      {outcome : (Except Fault RunSummary × Machine) × τ}
      (hbroken : BrokenOff console other inner machine state count middle between)
      (hrest : Resumed console other inner middle between counts outcome) :
      Resumed console other inner machine state (count :: counts) outcome

theorem step_relayed (hinterjects : other.Interjects console inner pending) (machine : Machine)
    (state : τ) :
    ((step machine).converse console (inner state)).1 = ((step machine).converse other state).1 ∧
      inner ((step machine).converse other state).2 =
        ((step machine).converse console (inner state)).2 ∧
      pending ((step machine).converse other state).2 = pending state := by
  have himitates : console.Imitates other
      (fun outside inside => inner outside = inside ∧ pending outside = pending state)
      fun call => call.1 ≠ .interrupt := by
    rintro request outside _ ⟨rfl, hpending⟩ hrequest
    obtain ⟨hanswer, hinner, hleft⟩ := hinterjects.relays request outside hrequest
    exact ⟨hanswer.symm, hinner, hleft.trans hpending⟩
  obtain ⟨hvalue, _, hrelated⟩ := Dialogue.converse_imitated himitates ⟨rfl, rfl⟩
    ((step_unchecked machine).converse other state)
  exact ⟨hvalue, hrelated⟩

theorem round_relayed (hinterjects : other.Interjects console inner pending) (machine : Machine)
    (state : τ) :
    (∃ outcome after, (round machine).converse other state = (outcome, after) ∧
      (round machine).converse console (inner state) = (outcome, inner after) ∧
      pending after = pending state) ∨
    ∃ after, (round machine).converse other state =
        ((.error ⟨machine.registers.pc, .console .interrupted⟩, machine), after) ∧
      inner after = inner state ∧ pending after < pending state := by
  simp only [round, Dialogue.converse_ask]
  rcases hinterjects.checks state with hrelays | hbreaks
  · left
    rcases hanswer : other.answer .interrupt state with ⟨failure | ⟨⟩, after⟩
    · obtain ⟨hsame, hinner, hleft⟩ := hrelays
      rw [hanswer] at hsame hinner hleft
      rw [← hsame, ← hinner]
      exact ⟨_, after, rfl, rfl, hleft⟩
    · obtain ⟨hsame, hinner, hleft⟩ := hrelays
      rw [hanswer] at hsame hinner hleft
      rw [← hsame, ← hinner]
      obtain ⟨hvalue, hfinal, hrest⟩ := step_relayed hinterjects machine after
      exact ⟨_, _, rfl, Prod.ext hvalue hfinal.symm, hrest.trans hleft⟩
  · right
    obtain ⟨hanswer, hinner, hleft⟩ := hbreaks
    rw [hanswer]
    exact ⟨_, rfl, hinner, hleft⟩

theorem runFor_relayed (hinterjects : other.Interjects console inner pending)
    (spent : Ending) (budget steps : Nat) (machine : Machine) (state : τ) :
    (∃ outcome after, (runFor spent budget steps machine).converse other state = (outcome, after) ∧
      (runFor spent budget steps machine).converse console (inner state) = (outcome, inner after)) ∨
    ∃ count middle between,
      (runFor spent budget steps machine).converse other state =
          ((.error ⟨middle.registers.pc, .console .interrupted⟩, middle), between) ∧
        RoundsReach console machine (inner state) count middle (inner between) ∧
        middle.status = .running ∧ count < budget ∧ pending between < pending state := by
  induction budget generalizing steps machine state with
  | zero =>
      left
      cases hstatus : machine.status with
      | running =>
          simp only [runFor_zero hstatus]
          exact ⟨_, state, rfl, rfl⟩
      | halted =>
          simp only [runFor_halted hstatus]
          exact ⟨_, state, rfl, rfl⟩
  | succ budget ih =>
      cases hstatus : machine.status with
      | halted =>
          simp only [runFor_halted hstatus]
          exact .inl ⟨_, state, rfl, rfl⟩
      | running =>
          simp only [runFor_succ hstatus]
          rcases round_relayed hinterjects machine state with
            ⟨⟨fault | result, next⟩, after, hother, hconsole, hpending⟩ |
            ⟨after, hother, hinner, hpending⟩
          · rw [hother, hconsole]
            exact .inl ⟨_, after, rfl, rfl⟩
          · rw [hother, hconsole]
            rcases ih (steps + 1) next after with hsame |
              ⟨count, middle, between, hrun, hreaches, hrunning, hcount, hfewer⟩
            · exact .inl hsame
            · exact .inr ⟨count + 1, middle, between, hrun,
                roundsReach_succ_iff.mpr ⟨result, next, inner after, hconsole, hreaches⟩,
                hrunning, Nat.succ_lt_succ hcount, hpending ▸ hfewer⟩
          · rw [hother]
            exact .inr ⟨0, machine, after, rfl, roundsReach_zero_iff.mpr ⟨rfl, hinner⟩, hstatus,
              Nat.succ_pos budget, hpending⟩

theorem run_relayed (hinterjects : other.Interjects console inner pending) (machine : Machine)
    (state : τ) :
    (∃ outcome after, (run machine).converse other state = (outcome, after) ∧
      (run machine).converse console (inner state) = (outcome, inner after)) ∨
    ∃ count middle between, BrokenOff console other inner machine state count middle between ∧
      count < machine.config.budget ∧ pending between < pending state := by
  rcases runFor_relayed hinterjects machine.config.spent machine.config.budget 0 machine state
    with hsame | ⟨count, middle, between, hrun, hreaches, hrunning, hcount, hfewer⟩
  · exact .inl hsame
  · exact .inr ⟨count, middle, between,
      ⟨hrun, hreaches, hrunning, hreaches.retired_of_running hrunning⟩, hcount, hfewer⟩

end

end Machine

/-! Runs that end, in pieces -/

namespace RunSummary

@[simp] theorem after_zero (summary : RunSummary) : summary.after 0 = summary := by
  simp [after]

theorem after_after (first second : Nat) (summary : RunSummary) :
    (summary.after second).after first = summary.after (first + second) := by
  simp [after, Nat.add_assoc]

end RunSummary

namespace Machine

variable {σ τ : Type} {console : Console σ} {machine middle final : Machine}
  {state between left : σ} {result : Except Fault RunSummary}

theorem runFor_of_ended {spent : Ending} {budget steps : Nat}
    (hrun : (runFor spent budget steps machine).converse console state = ((result, final), left))
    (hspent : spent ≠ .halted) (hends : ∀ summary, result = .ok summary → summary.ending = .halted)
    (other : Ending) (more : Nat) :
    (runFor other (budget + more) steps machine).converse console state =
      ((result, final), left) := by
  rw [runFor_add console spent, hrun]
  cases result with
  | error fault => rfl
  | ok summary =>
      obtain ⟨count, reached, before, hloop⟩ :=
        runFor_loop console spent budget steps machine state
      have hend := hloop.ends
      rw [hrun] at hend
      cases hend with
      | halted hhalted => exact runFor_halted hhalted console other more _ left
      | exhausted => exact absurd (hends _ rfl) hspent

theorem run_of_reached {count : Nat} (hcount : count < machine.config.budget)
    (hreaches : RoundsReach console machine state count middle between)
    (hrunning : middle.status = .running)
    (hrun : (run machine).converse console state = ((result, final), left))
    (hends : ∀ summary, result = .ok summary → summary.ending = .halted) :
    ∃ rest, (run middle).converse console between = ((rest, final), left) ∧
      result = rest.map (.after count) ∧
      ∀ summary, rest = .ok summary → summary.ending = .halted := by
  obtain ⟨more, hbudget⟩ := Nat.exists_eq_add_of_le (Nat.le_of_lt hcount)
  rcases hrest : (runFor machine.config.spent more 0 middle).converse console between with
    ⟨⟨rest, last⟩, after⟩
  have hwhole := hrun
  rw [run_eq_runFor, hbudget, (runFor_reached hreaches hrunning _ more 0).1, Nat.zero_add] at hwhole
  have hlater := runFor_after console _ more count 0 hrest
  obtain ⟨⟨rfl, rfl⟩, rfl⟩ : (result = rest.map (.after count) ∧ final = last) ∧ left = after := by
    simpa only [Prod.mk.injEq] using hwhole.symm.trans hlater
  have hrests : ∀ summary, rest = .ok summary → summary.ending = .halted := by
    rintro summary rfl
    exact hends (summary.after count) rfl
  refine ⟨rest, ?_, rfl, hrests⟩
  rw [run_eq_runFor, hreaches.config, hbudget, Nat.add_comm]
  exact runFor_of_ended hrest machine.config.spent_ne_halted hrests _ count

/-- Interrupts between instructions are transparent. When a run is broken off by them and called
again each time, it halts or faults as one that they do not disturb: nothing is done by halves,
done twice or lost. -/
theorem interruptions_transparent {other : Console τ} {inner : τ → σ} {pending : τ → Nat}
    (hinterjects : other.Interjects console inner pending) (start : τ)
    (hrun : (run machine).converse console (inner start) = ((result, final), left))
    (hends : ∀ summary, result = .ok summary → summary.ending = .halted) :
    ∃ counts rest after,
      Resumed console other inner machine start counts ((rest, final), after) ∧
        result = rest.map (.after counts.sum) ∧ inner after = left ∧
        counts.length ≤ pending start := by
  induction hpending : pending start using Nat.strong_induction_on
    generalizing machine start result with
  | _ interrupts ih =>
    rcases run_relayed hinterjects machine start with ⟨outcome, after, hother, hconsole⟩ |
      ⟨count, middle, between, hbroken, hcount, hfewer⟩
    · rw [hrun] at hconsole
      cases hconsole
      refine ⟨[], result, after, hother ▸ .last machine start, ?_, rfl, Nat.zero_le _⟩
      cases result <;> simp [Except.map]
    · obtain ⟨rest, hrest, rfl, hrests⟩ :=
        run_of_reached hcount hbroken.reaches hbroken.running hrun hends
      obtain ⟨counts, last, after, hresumed, rfl, hinner, hlength⟩ :=
        ih _ (hpending ▸ hfewer) between hrest hrests rfl
      refine ⟨count :: counts, last, after, .again hbroken hresumed, ?_, hinner, ?_⟩
      · cases last with
        | error fault => rfl
        | ok summary => exact congrArg Except.ok (summary.after_after count counts.sum)
      · rw [List.length_cons]
        omega

theorem interruptions_of_quietHalt :
    ∃ (final : Machine) (counts : List Nat) (rest : Except Fault RunSummary)
      (after : Script × Nat),
      (run (holding { banner := false } [0x1021, 0xF025])).converse Script.console
          { input := [] } = ((.ok ⟨2, .halted⟩, final), { input := [] }) ∧
        Resumed Script.console (Script.console.interruptedAt {0, 2}) Prod.fst
          (holding { banner := false } [0x1021, 0xF025]) ({ input := [] }, 0) counts
          ((rest, final), after) ∧
        rest.map (RunSummary.after counts.sum) = .ok ⟨2, .halted⟩ ∧ after.1 = { input := [] } ∧
        counts.length ≤ 2 := by
  obtain ⟨next, final, hrunning, hhalted, hrounds⟩ := rounds_of_quietHalt
  have hrun : (run (holding { banner := false } [0x1021, 0xF025])).converse Script.console
      { input := [] } = ((.ok ⟨2, .halted⟩, final.withLimit none), { input := [] }) := by
    have hnext : (next.withLimit none).status = .running := hrunning
    have hfinal : (final.withLimit none).status = .halted := hhalted
    obtain ⟨hfirst, hsecond⟩ := hrounds none
    rw [run_eq_runFor, show (holding { banner := false } [0x1021, 0xF025]).config.budget =
      UInt64.size - 2 + 1 + 1 from rfl, runFor_succ rfl]
    rw [show holding { banner := false } [0x1021, 0xF025] =
      (holding { banner := false } [0x1021, 0xF025]).withLimit none from rfl, hfirst]
    dsimp only
    rw [runFor_succ hnext, hsecond]
    exact runFor_halted hfinal _ _ _ _ _
  obtain ⟨counts, rest, after, hresumed, hresult, hafter, hcounts⟩ :=
    interruptions_transparent (Script.console.interruptedAt_interjects {0, 2})
      ({ input := [] }, 0) hrun (by rintro _ ⟨⟩; rfl)
  exact ⟨_, counts, rest, after, hrun, hresumed, hresult.symm, hafter,
    Nat.le_trans hcounts (by decide)⟩

end Machine

end LittleComputer

import LittleComputer.Image.Stream
import LittleComputer.Proofs.Architecture
import LittleComputer.Proofs.Configuration
import LittleComputer.Proofs.Loop
import LittleComputer.Proofs.Residue
import LittleComputer.Proofs.Retirement

namespace LittleComputer

/-! What has become of a machine since it was made -/

namespace Machine

variable {σ : Type}

theorem step_of_round {console : Console σ} {machine after : Machine} {state left : σ}
    {result : StepResult}
    (hround : (round machine).converse console state = ((.ok result, after), left)) :
    (step machine).converse console (console.answer .interrupt state).2 =
      ((.ok result, after), left) := by
  rcases hanswer : console.answer .interrupt state with ⟨error | ⟨⟩, between⟩
  · rw [round, Dialogue.converse_ask, hanswer] at hround
    cases hround
  · rw [converse_round hanswer] at hround
    exact hround

/-- What so many rounds retire, up to the first that fails. -/
def retirements (console : Console σ) : (count : Nat) → Machine → σ → List Retirement
  | 0, _, _ => []
  | count + 1, machine, state =>
      match (round machine).converse console state with
      | ((.error _, _), _) => []
      | ((.ok _, next), after) =>
          (retirement? console machine (console.answer .interrupt state).2).toList ++
            retirements console count next after

variable {console : Console σ} {machine next : Machine} {state after : σ}

theorem retirements_succ {result : StepResult}
    (hround : (round machine).converse console state = ((.ok result, next), after))
    (count : Nat) :
    retirements console (count + 1) machine state =
      (retirement? console machine (console.answer .interrupt state).2).toList ++
        retirements console count next after := by
  rw [retirements, hround]

theorem retirements_fault {fault : Fault}
    (hround : (round machine).converse console state = ((.error fault, next), after))
    (count : Nat) : retirements console count machine state = [] := by
  cases count with
  | zero => rfl
  | succ count => rw [retirements, hround]

theorem retirements_halted (hhalted : machine.status = .halted) (count : Nat) :
    retirements console count machine state = [] := by
  induction count generalizing state with
  | zero => rfl
  | succ count ih =>
      rcases hround : (round machine).converse console state with ⟨⟨fault | result, next⟩, after⟩
      · exact retirements_fault hround (count + 1)
      · obtain rfl : next = machine := by
          have houtcome := (round_outcome machine).converse console state
          rw [hround] at houtcome
          obtain ⟨hrunning, _⟩ | ⟨_, _, hnext⟩ := houtcome
          · rw [hhalted] at hrunning
            cases hrunning
          · exact hnext
        rw [retirements_succ hround, retirement?_halted hhalted, ih]
        rfl

end Machine

theorem Architecture.sign_toNat (word : Word) : sign word.toNat = Condition.ofWord word :=
  (Condition.ofWord_eq word).symm

namespace Retirement

def lastSign (retirements : List Retirement) : Condition :=
  match (retirements.filterMap result?).getLast? with
  | none => .zero
  | some value => Architecture.sign value.toNat

def Halted (retirements : List Retirement) : Prop :=
  ∃ retirement ∈ retirements, retirement.instruction = .trap TrapService.halt.vector

@[simp] theorem lastSign_nil : lastSign [] = .zero := rfl

theorem lastSign_concat (retirements : List Retirement) (retirement : Retirement) :
    lastSign (retirements ++ [retirement]) =
      match retirement.result? with
      | none => lastSign retirements
      | some value => Architecture.sign value.toNat := by
  simp only [lastSign, List.filterMap_append, List.filterMap_cons, List.filterMap_nil]
  cases retirement.result? with
  | none => simp
  | some value => simp

@[simp] theorem not_halted_nil : ¬ Halted [] := by
  simp [Halted]

theorem halted_concat_iff (retirements : List Retirement) (retirement : Retirement) :
    Halted (retirements ++ [retirement]) ↔
      Halted retirements ∨ retirement.instruction = .trap TrapService.halt.vector := by
  simp only [Halted, List.mem_append, List.mem_singleton]
  constructor
  · rintro ⟨other, hmem | rfl, hhalts⟩
    · exact .inl ⟨other, hmem, hhalts⟩
    · exact .inr hhalts
  · rintro (⟨other, hmem, hhalts⟩ | hhalts)
    · exact ⟨other, .inl hmem, hhalts⟩
    · exact ⟨retirement, .inr rfl, hhalts⟩

end Retirement

/-- A machine and what has retired on it since it was made or reset. -/
structure Chronicle where
  machine : Machine
  retired : List Retirement

/-- A call that a host makes. Every call may be given a console of its own. -/
inductive Operation : Type 1 where
  | step {σ : Type} (console : Console σ) (state : σ)
  | run {σ : Type} (console : Console σ) (state : σ)
  | configure (change : Config → Config)
  | load (deliveries : List Delivery)
  | loadFile (path : String) (contents : Except String (List Byte))
  | reset

def Console.closed : Console Unit where
  answer _ state := (.error .closed, state)

namespace Chronicle

def ofMachine (machine : Machine) : Chronicle :=
  ⟨machine, []⟩

def loading (chronicle : Chronicle) (action : Action Memory ImageError Placement) : Chronicle :=
  { chronicle with
    machine := ((Machine.onMemory action chronicle.machine).converse Console.closed ()).1.2 }

def perform (chronicle : Chronicle) : Operation → Chronicle
  | .step console state =>
      ⟨((Machine.step chronicle.machine).converse console state).1.2,
        chronicle.retired ++ (Machine.retirement? console chronicle.machine state).toList⟩
  | .run console state =>
      ⟨((Machine.run chronicle.machine).converse console state).1.2,
        chronicle.retired ++ Machine.retirements console chronicle.machine.config.budget
          chronicle.machine state⟩
  | .configure change => { chronicle with machine := chronicle.machine.reconfigure change }
  | .load deliveries => chronicle.loading (Memory.loadStream deliveries)
  | .loadFile path contents => chronicle.loading (Memory.loadFile path contents)
  | .reset => ofMachine chronicle.machine.reset

def performAll (chronicle : Chronicle) (operations : List Operation) : Chronicle :=
  operations.foldl perform chronicle

theorem machine_perform_step {σ : Type} {console : Console σ} {state left : σ}
    {chronicle : Chronicle} {result : Except Fault StepResult} {after : Machine}
    (hstep : (Machine.step chronicle.machine).converse console state = ((result, after), left)) :
    (chronicle.perform (.step console state)).machine = after := by
  rw [perform, hstep]

structure Idles (before after : Chronicle) : Prop where
  status : after.machine.status = before.machine.status
  registers : after.machine.registers = before.machine.registers
  count : after.machine.retired = before.machine.retired
  retired : after.retired = before.retired

theorem Idles.trans {first second third : Chronicle} (hfirst : Idles first second)
    (hsecond : Idles second third) : Idles first third :=
  ⟨hsecond.status.trans hfirst.status, hsecond.registers.trans hfirst.registers,
    hsecond.count.trans hfirst.count, hsecond.retired.trans hfirst.retired⟩

theorem idles_loading (chronicle : Chronicle) (action : Action Memory ImageError Placement) :
    chronicle.Idles (chronicle.loading action) := by
  rw [Chronicle.loading, Machine.onMemory_apply, Dialogue.converse_bind]
  exact ⟨rfl, rfl, rfl, rfl⟩

/-- The machine stands as what has retired on it has left it. -/
structure Consistent (chronicle : Chronicle) : Prop where
  condition : chronicle.machine.condition = Retirement.lastSign chronicle.retired
  halted_iff : chronicle.machine.status = .halted ↔ Retirement.Halted chronicle.retired
  count : chronicle.machine.retired = UInt64.ofNat chronicle.retired.length

theorem consistent_reset (machine : Machine) : (ofMachine machine.reset).Consistent :=
  ⟨rfl, by simp [ofMachine, Machine.reset, Machine.ofConfig], rfl⟩

section

variable {σ : Type} {console : Console σ} {machine after : Machine} {state left : σ}
  {history : List Retirement}

theorem Consistent.withdrawn (hconsistent : Consistent ⟨machine, history⟩) {fault : Fault}
    (hwithdrawn : Machine.Withdrawn machine after fault) : Consistent ⟨after, history⟩ := by
  obtain ⟨hregisters, hframe, _⟩ := hwithdrawn
  obtain ⟨hstatus, _, hretired⟩ := Machine.frame_eq_iff.mp hframe
  exact ⟨(congrArg RegisterFile.condition hregisters).trans hconsistent.condition,
    hstatus ▸ hconsistent.halted_iff, hretired.trans hconsistent.count⟩

theorem Consistent.step (hconsistent : Consistent ⟨machine, history⟩)
    {result : Except Fault StepResult}
    (hstep : (Machine.step machine).converse console state = ((result, after), left)) :
    Consistent ⟨after, history ++ (Machine.retirement? console machine state).toList⟩ := by
  cases hstatus : machine.status with
  | halted =>
      rw [Machine.step_halted hstatus] at hstep
      cases hstep
      rw [Machine.retirement?_halted hstatus, Option.toList_none, List.append_nil]
      exact hconsistent
  | running =>
      cases result with
      | error fault =>
          rw [Machine.retirement?_fault hstep, Option.toList_none, List.append_nil]
          exact hconsistent.withdrawn (Machine.withdrawn_of_step hstep).2
      | ok result =>
          obtain ⟨word, hretires⟩ := Machine.retires_of_step hstatus hstep
          rw [hretires.retirement? hstep, Option.toList_some]
          refine ⟨?_, ?_, ?_⟩
          · rw [Retirement.lastSign_concat, ← hconsistent.condition, Retirement.result?]
            refine hretires.condition.trans ?_
            dsimp only
            cases (Instruction.decode word).result? with
            | none => rfl
            | some target => exact (Architecture.sign_toNat _).symm
          · -- The machine was running, so only this instruction can be the halt.
            have hbefore : ¬ Retirement.Halted history := fun hhalted => by
              have hmachine := hconsistent.halted_iff.mpr hhalted
              rw [hstatus] at hmachine
              cases hmachine
            rw [Retirement.halted_concat_iff, or_iff_right hbefore]
            exact hretires.halted_iff
          · rw [List.length_append, List.length_singleton, UInt64.ofNat_add]
            exact hretires.retired.trans (congrArg (· + 1) hconsistent.count)

theorem Consistent.round (hconsistent : Consistent ⟨machine, history⟩) {result : StepResult}
    (hround : (Machine.round machine).converse console state = ((.ok result, after), left)) :
    Consistent ⟨after, history ++
      (Machine.retirement? console machine (console.answer .interrupt state).2).toList⟩ :=
  hconsistent.step (Machine.step_of_round hround)

theorem Consistent.rounds (hconsistent : Consistent ⟨machine, history⟩) {count : Nat}
    (hreaches : Machine.RoundsReach console machine state count after left) :
    Consistent ⟨after, history ++ Machine.retirements console count machine state⟩ := by
  induction count generalizing machine state history with
  | zero =>
      obtain ⟨rfl, rfl⟩ := Machine.roundsReach_zero_iff.mp hreaches
      rw [Machine.retirements, List.append_nil]
      exact hconsistent
  | succ count ih =>
      obtain ⟨result, next, between, hround, hrest⟩ := Machine.roundsReach_succ_iff.mp hreaches
      rw [Machine.retirements_succ hround, ← List.append_assoc]
      exact ih (hconsistent.round hround) hrest

theorem Consistent.runFor (hconsistent : Consistent ⟨machine, history⟩) (spent : Ending)
    (budget steps : Nat) :
    Consistent ⟨((Machine.runFor spent budget steps machine).converse console state).1.2,
      history ++ Machine.retirements console budget machine state⟩ := by
  induction budget generalizing machine state history steps with
  | zero =>
      rw [Machine.retirements, List.append_nil]
      cases hstatus : machine.status with
      | running =>
          rw [Machine.runFor_zero hstatus]
          exact hconsistent
      | halted =>
          rw [Machine.runFor_halted hstatus]
          exact hconsistent
  | succ budget ih =>
      cases hstatus : machine.status with
      | running =>
          rw [Machine.runFor_succ hstatus]
          rcases hround : (Machine.round machine).converse console state with
            ⟨⟨fault | result, next⟩, between⟩
          · have houtcome := (Machine.round_outcome machine).converse console state
            rw [hround] at houtcome
            rw [Machine.retirements_fault hround, List.append_nil]
            exact hconsistent.withdrawn houtcome
          · rw [Machine.retirements_succ hround, ← List.append_assoc]
            exact ih (hconsistent.round hround) (steps + 1)
      | halted =>
          rw [Machine.runFor_halted hstatus, Machine.retirements_halted hstatus, List.append_nil]
          exact hconsistent

end

theorem Consistent.of_idles {before after : Chronicle} (hconsistent : before.Consistent)
    (hidles : before.Idles after) : after.Consistent where
  condition := by
    rw [hidles.retired, ← hconsistent.condition]
    exact congrArg RegisterFile.condition hidles.registers
  halted_iff := by
    rw [hidles.status, hidles.retired]
    exact hconsistent.halted_iff
  count := by
    rw [hidles.count, hidles.retired]
    exact hconsistent.count

theorem Consistent.perform {chronicle : Chronicle} (hconsistent : chronicle.Consistent)
    (operation : Operation) : (chronicle.perform operation).Consistent := by
  cases operation with
  | step console state => exact hconsistent.step rfl
  | run console state =>
      exact hconsistent.runFor chronicle.machine.config.spent chronicle.machine.config.budget 0
  | configure change => exact hconsistent.of_idles ⟨rfl, rfl, rfl, rfl⟩
  | load | loadFile => exact hconsistent.of_idles (idles_loading _ _)
  | reset => exact consistent_reset chronicle.machine

theorem Consistent.performAll {chronicle : Chronicle} (hconsistent : chronicle.Consistent)
    (operations : List Operation) : (chronicle.performAll operations).Consistent := by
  induction operations generalizing chronicle with
  | nil => exact hconsistent
  | cons operation operations ih => exact ih (hconsistent.perform operation)

end Chronicle

end LittleComputer

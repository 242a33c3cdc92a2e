import LittleComputer.Proofs.Instalments
import LittleComputer.Proofs.Interruptions
import LittleComputer.Proofs.Retirement

namespace LittleComputer

/-! Machines of different configurations -/

namespace Script

def dismissed (script : Script) (config : Config) : Script :=
  if config.banner then script.told TrapService.banner.toUTF8.data.toList (script.flushes + 1)
  else script

/-- Two scripts that are the same, but for what two halt services have made of them. -/
def Paired (halted : Prop) (left right : Config) (first second : Script) : Prop :=
  ∃ quiet : Script, (halted → first = quiet.dismissed left ∧ second = quiet.dismissed right) ∧
    (¬ halted → first = quiet ∧ second = quiet)

theorem paired_same {halted : Prop} (hgoes : ¬ halted) (left right : Config) (script : Script) :
    Paired halted left right script script :=
  ⟨script, fun hhalted => absurd hhalted hgoes, fun _ => ⟨rfl, rfl⟩⟩

theorem paired_dismissed {halted : Prop} (hhalted : halted) (left right : Config)
    (script : Script) :
    Paired halted left right (script.dismissed left) (script.dismissed right) :=
  ⟨script, fun _ => ⟨rfl, rfl⟩, fun hgoes => absurd hhalted hgoes⟩

theorem Paired.same {halted : Prop} {left right : Config} {first second : Script}
    (hpaired : Paired halted left right first second) (hgoes : ¬ halted) : second = first := by
  obtain ⟨quiet, _, hsame⟩ := hpaired
  obtain ⟨rfl, rfl⟩ := hsame hgoes
  rfl

theorem Paired.told {halted : Prop} {left right : Config} {first second : Script}
    (hpaired : Paired halted left right first second) (hhalted : halted)
    (hbanner : left.banner = true) (hquiet : right.banner = false) :
    first = second.told TrapService.banner.toUTF8.data.toList (second.flushes + 1) := by
  obtain ⟨quiet, hdismissed, _⟩ := hpaired
  obtain ⟨rfl, rfl⟩ := hdismissed hhalted
  rw [dismissed, dismissed, if_pos hbanner, hquiet]
  rfl

theorem Paired.congr {halted other : Prop} {left right : Config} {first second : Script}
    (hpaired : Paired halted left right first second) (hiff : halted ↔ other) :
    Paired other left right first second :=
  propext hiff ▸ hpaired

end Script

theorem Effect.converse_halt (machine : Machine) (script : Script) :
    (service .halt machine).converse Script.console script =
      ((.ok .halted, machine), script.dismissed machine.config) := by
  rcases machine with ⟨memory, registers, status, ⟨entry, limit, banner⟩, retired⟩
  cases banner <;> rfl

namespace Machine

structure Twins (left right : Machine) : Prop where
  memory : right.memory = left.memory
  registers : right.registers = left.registers
  status : right.status = left.status
  retired : right.retired = left.retired

variable {left right : Machine}

theorem twins_reconfigure (machine : Machine) (change : Config → Config) :
    machine.Twins (machine.reconfigure change) :=
  ⟨rfl, rfl, rfl, rfl⟩

theorem Twins.eq_reconfigure (htwins : left.Twins right) :
    right = left.reconfigure fun _ => right.config := by
  rcases left with ⟨memory, registers, status, config, retired⟩
  rcases right with ⟨_, _, _, other, _⟩
  obtain ⟨rfl, rfl, rfl, rfl⟩ := htwins
  rfl

theorem Twins.dismissed (htwins : left.Twins right) :
    Twins { left.serving with status := .halted, retired := left.retired + 1 }
      { right.serving with status := .halted, retired := right.retired + 1 } := by
  rw [htwins.eq_reconfigure]
  exact twins_reconfigure _ fun _ => right.config

theorem Twins.requests_iff (htwins : left.Twins right) (requested : TrapService) :
    right.Requests requested ↔ left.Requests requested := by
  obtain ⟨memory, registers, status, _⟩ := htwins
  constructor <;> rintro ⟨hrunning, hplain, hdecodes⟩
  · exact ⟨status ▸ hrunning, registers ▸ hplain, by rw [← memory, ← registers, hdecodes]⟩
  · exact ⟨status ▸ hrunning, registers ▸ hplain, by rw [memory, registers, hdecodes]⟩

section

variable {σ : Type} {console : Console σ} {machine : Machine} {state : σ}

theorem config_step : ((step machine).converse console state).1.2.config = machine.config := by
  have houtcome := (step_outcome machine).converse console state
  rcases hstep : (step machine).converse console state with ⟨⟨fault | result, after⟩, between⟩ <;>
    rw [hstep] at houtcome
  · exact (frame_eq_iff.mp houtcome.2.frame).2.1
  · rcases houtcome with ⟨_, hretired⟩ | ⟨_, _, hafter⟩
    · exact hretired.config
    · exact congrArg config hafter

theorem status_step (hgoes : ¬ machine.Requests .halt) :
    ((step machine).converse console state).1.2.status = machine.status := by
  have houtcome := (step_outcome machine).converse console state
  rcases hstep : (step machine).converse console state with ⟨⟨fault | result, after⟩, between⟩
  · rw [hstep] at houtcome
    exact (frame_eq_iff.mp houtcome.2.frame).1
  · rw [hstep] at houtcome
    rcases houtcome with ⟨hrunning, _⟩ | ⟨_, _, hafter⟩
    · obtain ⟨word, hretires⟩ := retires_of_step hrunning hstep
      cases hstatus : after.status with
      | running => exact hrunning.symm
      | halted =>
          exact absurd (hretires.fetches.requests (hretires.halted_iff.mp hstatus)) hgoes
    · exact congrArg status hafter

theorem step_unhalting (hgoes : ¬ machine.Requests .halt) (change : Config → Config) :
    step (machine.reconfigure change) = (step machine).bind fun outcome =>
      .done (outcome.1, outcome.2.reconfigure change) := by
  cases hstatus : machine.status with
  | halted =>
      have hreconfigured : (machine.reconfigure change).status = .halted := hstatus
      rw [step_halted hstatus, step_halted hreconfigured]
      rfl
  | running =>
      have hreconfigured : (machine.reconfigure change).status = .running := hstatus
      by_cases hplain : machine.registers.pc = DeviceCell.keyboardStatus.address
      · have hsame : (machine.reconfigure change).registers.pc =
            DeviceCell.keyboardStatus.address := hplain
        rw [step_running hstatus, step_running hreconfigured, Effect.cycle_status hplain,
          Effect.cycle_status hsame, Dialogue.bind_ask, Dialogue.bind_ask, Dialogue.bind_ask]
        congr 1
        funext answer
        rcases answer with error | _ | key <;> rfl
      · generalize hword : machine.memory.peek machine.registers.pc = word
        have hsame : (machine.reconfigure change).registers.pc ≠
            DeviceCell.keyboardStatus.address := hplain
        have hexecute := Effect.execute_ignores change
          (fun hhalt => hgoes ⟨hstatus, hplain, hword ▸ hhalt⟩) word
          (machine.mapRegisters RegisterFile.advance)
        have hadvanced : (machine.reconfigure change).mapRegisters RegisterFile.advance =
            (machine.mapRegisters RegisterFile.advance).reconfigure change := rfl
        rw [step_plain hstatus hplain hword, step_plain hreconfigured hsame hword, hadvanced,
          hexecute, Dialogue.bind_note, Dialogue.bind_assoc, Dialogue.bind_assoc]
        congr 2
        funext outcome
        rcases outcome with ⟨cause | ⟨_ | _⟩, after⟩ <;> rfl

theorem step_halting (hrequests : machine.Requests .halt) (script : Script) :
    (step machine).converse Script.console script =
      ((.ok .halted,
        { machine.serving with status := .halted, retired := machine.retired + 1 }),
        script.dismissed machine.config) := by
  rw [step_requested hrequests, Dialogue.converse_note, Dialogue.converse_bind,
    Effect.converse_halt]
  rfl

theorem runFor_halting (hrequests : machine.Requests .halt) {script : Script}
    (hunraised : script.interruptPending = false) (spent : Ending) (budget steps : Nat) :
    (runFor spent (budget + 1) steps machine).converse Script.console script =
      ((.ok ⟨steps + 1, .halted⟩,
        { machine.serving with status := .halted, retired := machine.retired + 1 }),
        script.dismissed machine.config) := by
  rw [runFor_succ hrequests.running, converse_round (Script.answer_interrupt_unraised hunraised),
    step_halting hrequests]
  exact runFor_halted rfl _ _ _ _ _

theorem runFor_broken {machine : Machine} (hrunning : machine.status = .running) {script : Script}
    (hraised : script.interruptPending = true) (spent : Ending) (budget steps : Nat) :
    (runFor spent (budget + 1) steps machine).converse Script.console script =
      ((.error ⟨machine.registers.pc, .console .interrupted⟩, machine),
        { script with interruptPending := false }) := by
  rw [runFor_succ hrunning, round, Dialogue.converse_ask, Script.answer_interrupt_raised hraised]
  rfl

def RetiresHalt (console : Console σ) (machine : Machine) (state : σ) : Prop :=
  ∃ retirement, retirement? console machine state = some retirement ∧
    retirement.instruction = .trap TrapService.halt.vector

def HaltsWithin (console : Console σ) (machine : Machine) (state : σ) (count : Nat) : Prop :=
  Within console (RetiresHalt console) machine state count

theorem RetiresHalt.requests (hretires : RetiresHalt console machine state) :
    machine.Requests .halt := by
  obtain ⟨retirement, hretired, hhalt⟩ := hretires
  obtain ⟨word, _, _, _, _, hword, rfl⟩ := exists_retires hretired
  exact hword.fetches.requests hhalt

theorem RetiresHalt.halted (hretires : RetiresHalt console machine state) :
    ((step machine).converse console state).1.2.status = .halted := by
  obtain ⟨retirement, hretired, hhalt⟩ := hretires
  obtain ⟨word, _, _, _, hstep, hword, rfl⟩ := exists_retires hretired
  rw [hstep]
  exact hword.halted_iff.mpr hhalt

theorem retiresHalt_iff (script : Script) :
    RetiresHalt Script.console machine script ↔ machine.Requests .halt := by
  constructor
  · exact RetiresHalt.requests
  · intro hrequests
    exact ⟨_, retirement?_plain hrequests.running hrequests.plain (step_halting hrequests script),
      hrequests.decodes⟩

theorem HaltsWithin.halted {count : Nat} (hhalts : HaltsWithin console machine state count) :
    ((attempts count machine).converse console state).1.status = .halted := by
  induction count with
  | zero => exact absurd hhalts not_within_zero
  | succ count ih =>
      rw [converse_attempts_succ]
      rcases within_succ.mp hhalts with hearlier | hretires
      · dsimp only
        rw [step_halted (ih hearlier)]
        exact ih hearlier
      · exact hretires.halted

theorem config_attempts (count : Nat) :
    ((attempts count machine).converse console state).1.config = machine.config := by
  induction count with
  | zero => rfl
  | succ count ih =>
      rw [converse_attempts_succ]
      exact config_step.trans ih

end

/-- How the conversations of two twins with one script end alike, when `halted` says whether
they have halted in it. -/
structure Alike {ε α : Type} (halted : Prop) (left right : Config)
    (first second : (Except ε α × Machine) × Script) : Prop where
  result : second.1.1 = first.1.1
  twins : first.1.2.Twins second.1.2
  scripts : Script.Paired halted left right first.2 second.2

theorem Alike.of_same {ε α : Type} {halted : Prop} (hgoes : ¬ halted) {result : Except ε α}
    (htwins : left.Twins right) (first second : Config) (script : Script) :
    Alike halted first second ((result, left), script) ((result, right), script) :=
  ⟨rfl, htwins, Script.paired_same hgoes first second script⟩

theorem step_unhalting_twins (htwins : left.Twins right) (hgoes : ¬ left.Requests .halt)
    (script : Script) :
    ∃ result next after,
      (step left).converse Script.console script = ((result, next), after) ∧
      (step right).converse Script.console script =
        ((result, next.reconfigure fun _ => right.config), after) ∧
      next.status = left.status ∧ next.config = left.config := by
  have hstatus := @status_step _ Script.console left script hgoes
  have hconfig := @config_step _ Script.console left script
  have hright := step_unhalting hgoes fun _ => right.config
  rw [← htwins.eq_reconfigure] at hright
  rcases hleft : (step left).converse Script.console script with ⟨⟨result, next⟩, after⟩
  rw [hleft] at hstatus hconfig
  refine ⟨result, next, after, rfl, ?_, hstatus, hconfig⟩
  rw [hright, Dialogue.converse_bind, Dialogue.converse_done, hleft]

theorem step_twins (htwins : left.Twins right) (script : Script) :
    Alike (left.Requests .halt) left.config right.config
      ((step left).converse Script.console script)
      ((step right).converse Script.console script) := by
  by_cases hrequests : left.Requests .halt
  · rw [step_halting hrequests, step_halting ((htwins.requests_iff .halt).mpr hrequests)]
    exact ⟨rfl, htwins.dismissed, Script.paired_dismissed hrequests _ _ _⟩
  · obtain ⟨_, next, after, hleft, hright, _⟩ := step_unhalting_twins htwins hrequests script
    rw [hleft, hright]
    exact .of_same hrequests (next.twins_reconfigure _) _ _ after

theorem attempts_twins (htwins : left.Twins right) (script : Script) (count : Nat) :
    ((attempts count left).converse Script.console script).1.Twins
        ((attempts count right).converse Script.console script).1 ∧
      Script.Paired (HaltsWithin Script.console left script count) left.config right.config
        ((attempts count left).converse Script.console script).2
        ((attempts count right).converse Script.console script).2 := by
  induction count with
  | zero => exact ⟨htwins, Script.paired_same not_within_zero _ _ _⟩
  | succ count ih =>
      rw [converse_attempts_succ, converse_attempts_succ]
      dsimp only
      have hconfigs : ((attempts count left).converse Script.console script).1.config =
            left.config ∧
          ((attempts count right).converse Script.console script).1.config = right.config :=
        ⟨config_attempts count, config_attempts count⟩
      by_cases hhalts : HaltsWithin Script.console left script count
      · -- Nothing happens after a halt.
        have hleft := hhalts.halted
        rw [step_halted hleft, step_halted (ih.1.status.trans hleft)]
        exact ⟨ih.1, ih.2.congr (iff_of_true hhalts (within_succ.mpr (.inl hhalts)))⟩
      · have hsame := ih.2.same hhalts
        have hhalt : HaltsWithin Script.console left script (count + 1) ↔ _ :=
          within_succ.trans (or_iff_right hhalts)
        rw [hsame]
        obtain ⟨_, hnext, hpaired⟩ := step_twins ih.1
          ((attempts count left).converse Script.console script).2
        rw [hconfigs.1, hconfigs.2] at hpaired
        exact ⟨hnext, hpaired.congr ((retiresHalt_iff _).symm.trans hhalt.symm)⟩

theorem runFor_twins (htwins : left.Twins right) {spent : Ending} (hspent : spent ≠ .halted)
    (budget steps : Nat) (script : Script) :
    Alike
      (left.status = .running ∧ ∃ count,
        ((runFor spent budget steps left).converse Script.console script).1.1 =
          .ok ⟨count, .halted⟩)
      left.config right.config
      ((runFor spent budget steps left).converse Script.console script)
      ((runFor spent budget steps right).converse Script.console script) := by
  induction budget generalizing left right steps script with
  | zero =>
      cases hstatus : left.status with
      | halted =>
          rw [runFor_halted hstatus, runFor_halted (htwins.status.trans hstatus)]
          exact .of_same (by simp) htwins _ _ script
      | running =>
          rw [runFor_zero hstatus, runFor_zero (htwins.status.trans hstatus)]
          exact .of_same (by simp [hspent]) htwins _ _ script
  | succ budget ih =>
      cases hstatus : left.status with
      | halted =>
          rw [runFor_halted hstatus, runFor_halted (htwins.status.trans hstatus)]
          exact .of_same (by simp) htwins _ _ script
      | running =>
          have hother := htwins.status.trans hstatus
          cases hpending : script.interruptPending with
          | true =>
              rw [runFor_broken hstatus hpending, runFor_broken hother hpending, htwins.registers]
              exact .of_same (by simp) htwins _ _ _
          | false =>
              by_cases hrequests : left.Requests .halt
              · rw [runFor_halting hrequests hpending,
                  runFor_halting ((htwins.requests_iff .halt).mpr hrequests) hpending]
                exact ⟨rfl, htwins.dismissed, Script.paired_dismissed ⟨rfl, _, rfl⟩ _ _ _⟩
              · obtain ⟨result, next, after, hleft, hright, hgoes, hconfig⟩ :=
                  step_unhalting_twins htwins hrequests script
                have hreached := next.twins_reconfigure fun _ => right.config
                have hunbroken := Script.answer_interrupt_unraised hpending
                rw [runFor_succ hstatus, runFor_succ hother, converse_round hunbroken,
                  converse_round hunbroken, hleft, hright]
                cases result with
                | error fault => exact .of_same (by simp) hreached _ _ after
                | ok result =>
                    have hrest := ih hreached (steps + 1) after
                    rw [hgoes.trans hstatus, hconfig] at hrest
                    exact hrest

theorem attempts_result (htwins : left.Twins right) (script : Script) (count : Nat) :
    ((step ((attempts count right).converse Script.console script).1).converse Script.console
        ((attempts count right).converse Script.console script).2).1.1 =
      ((step ((attempts count left).converse Script.console script).1).converse Script.console
        ((attempts count left).converse Script.console script).2).1.1 := by
  obtain ⟨hreached, hscripts⟩ := attempts_twins htwins script count
  by_cases hhalts : HaltsWithin Script.console left script count
  · rw [step_halted hhalts.halted, step_halted (hreached.status.trans hhalts.halted)]
    rfl
  · rw [hscripts.same hhalts]
    exact (step_twins hreached _).result

def StopsAtLimit (machine : Machine) (script : Script) : Prop :=
  ∃ steps, ((run machine).converse Script.console script).1.1 = .ok ⟨steps, .limitReached⟩

def RunHalts (machine : Machine) (script : Script) : Prop :=
  machine.status = .running ∧
    ∃ steps, ((run machine).converse Script.console script).1.1 = .ok ⟨steps, .halted⟩

theorem run_of_unstopped {machine : Machine} {script : Script}
    (hunstopped : ¬ machine.StopsAtLimit script) :
    (run machine).converse Script.console script =
      (runFor .unfinished UInt64.size 0 machine).converse Script.console script := by
  cases hlimit : machine.config.limit with
  | none => rw [run_eq_runFor, Config.spent_of_none hlimit, Config.budget_of_none hlimit]
  | some limit =>
      rcases hrun : (run machine).converse Script.console script with ⟨⟨result, final⟩, after⟩
      have hends : ∀ summary, result = .ok summary → summary.ending = .halted := by
        rintro ⟨steps, ending⟩ rfl
        cases ending with
        | halted => rfl
        | limitReached => exact absurd ⟨steps, by rw [hrun]⟩ hunstopped
        | unfinished =>
            rw [(run_unfinished_iff.mp hrun).1] at hlimit
            cases hlimit
      have hsize : UInt64.size = machine.config.budget + (UInt64.size - limit.toNat) := by
        have hlt : limit.toNat < UInt64.size := limit.toNat_lt
        rw [Config.budget_of_limit hlimit]
        omega
      rw [hsize]
      exact (runFor_of_ended hrun machine.config.spent_ne_halted hends _ _).symm

theorem run_twins (htwins : left.Twins right) (script : Script)
    (hlimits : left.config.limit = right.config.limit ∨
      (¬ left.StopsAtLimit script ∧ ¬ right.StopsAtLimit script)) :
    Alike (left.RunHalts script) left.config right.config
      ((run left).converse Script.console script)
      ((run right).converse Script.console script) := by
  rw [RunHalts]
  rcases hlimits with hlimit | ⟨hleft, hright⟩
  · have hspent : right.config.spent = left.config.spent := by
      rw [Config.spent, Config.spent, hlimit]
    have hbudget : right.config.budget = left.config.budget := by
      rw [Config.budget, Config.budget, hlimit]
    rw [run_eq_runFor, run_eq_runFor, hspent, hbudget]
    exact runFor_twins htwins left.config.spent_ne_halted _ 0 script
  · rw [run_of_unstopped hleft, run_of_unstopped hright]
    have hspent : Ending.unfinished ≠ .halted := by decide
    exact runFor_twins htwins hspent _ 0 script

/-- Of the configuration a program sees nothing. It shows in the banner that follows the output
when a halt retires, and besides only where it limits a run. -/
theorem configuration_unseen (htwins : left.Twins right) (script : Script) :
    (∀ count,
      let first := (attempts count left).converse Script.console script
      let second := (attempts count right).converse Script.console script
      first.1.Twins second.1 ∧
        ((step second.1).converse Script.console second.2).1.1 =
          ((step first.1).converse Script.console first.2).1.1 ∧
        Script.Paired (HaltsWithin Script.console left script count) left.config right.config
          first.2 second.2) ∧
    ((left.config.limit = right.config.limit ∨
        (¬ left.StopsAtLimit script ∧ ¬ right.StopsAtLimit script)) →
      Alike (left.RunHalts script) left.config right.config
        ((run left).converse Script.console script)
        ((run right).converse Script.console script)) := by
  refine ⟨fun count => ?_, run_twins htwins script⟩
  obtain ⟨hreached, hscripts⟩ := attempts_twins htwins script count
  exact ⟨hreached, attempts_result htwins script count, hscripts⟩

theorem halt_with_and_without_banner :
    ∃ quiet final,
      (run (holding { banner := false } [0xF025])).converse Script.console { input := [0x61] } =
        ((.ok ⟨1, .halted⟩, quiet), { input := [0x61] }) ∧
      (run (holding {} [0xF025])).converse Script.console { input := [0x61] } =
        ((.ok ⟨1, .halted⟩, final),
          Script.told TrapService.banner.toUTF8.data.toList 1 { input := [0x61] }) := by
  let left := holding {} [0xF025]
  let right := holding { banner := false } [0xF025]
  have htwins : left.Twins right := ⟨rfl, rfl, rfl, rfl⟩
  have hrequests : right.Requests .halt :=
    (htwins.requests_iff .halt).mpr (requests_holding (by decide))
  have hright := run_eq_runFor Script.console right { input := [0x61] }
  rw [show right.config.budget = UInt64.size - 1 + 1 from rfl, runFor_succ rfl,
    converse_round rfl, step_halting hrequests, Script.dismissed, if_neg (by decide)] at hright
  dsimp only at hright
  rw [runFor_halted rfl] at hright
  obtain ⟨_, hruns⟩ := configuration_unseen htwins { input := [0x61] }
  have halike := hruns (.inl rfl)
  rcases hleft : (run left).converse Script.console { input := [0x61] } with
    ⟨⟨result, final⟩, script⟩
  rw [hleft, hright] at halike
  obtain rfl : .ok ⟨1, .halted⟩ = result := halike.result
  have hhalts : left.RunHalts { input := [0x61] } := ⟨rfl, 1, congrArg (·.1.1) hleft⟩
  have htold : script = Script.told TrapService.banner.toUTF8.data.toList 1 { input := [0x61] } :=
    halike.scripts.told hhalts rfl rfl
  exact ⟨_, final, hright, by rw [htold]⟩

end Machine

end LittleComputer

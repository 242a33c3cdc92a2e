import LittleComputer.Console.Scripted
import LittleComputer.Proofs.Loop

namespace LittleComputer

/-! A run is exactly its rounds -/

namespace Config

variable {config : Config}

theorem budget_of_limit {limit : UInt64} (hlimit : config.limit = some limit) :
    config.budget = limit.toNat := by
  simp [budget, hlimit]

theorem budget_of_none (hlimit : config.limit = none) : config.budget = UInt64.size := by
  simp [budget, hlimit]

theorem spent_of_limit {limit : UInt64} (hlimit : config.limit = some limit) :
    config.spent = .limitReached := by
  simp [spent, hlimit]

theorem spent_of_none (hlimit : config.limit = none) : config.spent = .unfinished := by
  simp [spent, hlimit]

theorem spent_ne_halted (config : Config) : config.spent ≠ .halted := by
  unfold spent
  split <;> nofun

end Config

namespace Machine

variable {σ : Type}

def Stops (machine : Machine) (count : Nat) : Prop :=
  machine.status = .halted ∨
    ∃ limit, machine.config.limit = some limit ∧ limit.toNat ≤ count

/-- No round was due to be left out before the first `count` of them. -/
def Unstopped (console : Console σ) (machine : Machine) (state : σ) (count : Nat) : Prop :=
  ∀ fewer < count, ∀ middle before,
    RoundsReach console machine state fewer middle before → ¬ middle.Stops fewer

structure StopsAfter (console : Console σ) (machine : Machine) (state : σ) (steps : Nat)
    (final : Machine) (left : σ) : Prop where
  reaches : RoundsReach console machine state steps final left
  stops : final.Stops steps
  unstopped : Unstopped console machine state steps

/-- All of `steps` rounds succeed, the loop does not stop there, and the next round faults:
the console breaks it off or the instruction does. -/
structure FaultsAfter (console : Console σ) (machine : Machine) (state : σ) (steps : Nat)
    (fault : Fault) (final : Machine) (left : σ) : Prop where
  unstopped : Unstopped console machine state (steps + 1)
  faults : ∃ reached between, RoundsReach console machine state steps reached between ∧
    (round reached).converse console between = ((.error fault, final), left)

theorem stops_of_halted {machine : Machine} (hhalted : machine.status = .halted)
    (count : Nat) : machine.Stops count :=
  .inl hhalted

theorem running_of_not_halted {machine : Machine} (hhalted : ¬ machine.status = .halted) :
    machine.status = .running := by
  cases hstatus : machine.status with
  | running => rfl
  | halted => exact absurd hstatus hhalted

theorem running_of_not_stops {machine : Machine} {count : Nat}
    (hstops : ¬ machine.Stops count) : machine.status = .running :=
  running_of_not_halted fun hhalted => hstops (stops_of_halted hhalted count)

theorem stops_iff_of_running {machine : Machine} (hrunning : machine.status = .running)
    (count : Nat) :
    machine.Stops count ↔
      ∃ limit, machine.config.limit = some limit ∧ limit.toNat ≤ count := by
  simp [Stops, hrunning]

theorem budget_le_of_stops {console : Console σ} {machine middle : Machine}
    {state before : σ} {count : Nat}
    (hmiddle : RoundsReach console machine state count middle before)
    (hrunning : middle.status = .running) (hstops : middle.Stops count) :
    machine.config.budget ≤ count := by
  obtain ⟨limit, hlimit, hle⟩ := (stops_iff_of_running hrunning count).mp hstops
  rw [hmiddle.config] at hlimit
  rw [Config.budget_of_limit hlimit]
  exact hle

section

variable {console : Console σ} {machine reached : Machine} {state between : σ}

theorem Unstopped.staysRunning {count : Nat}
    (hunstopped : Unstopped console machine state count) :
    StaysRunning console machine state count :=
  fun fewer hfewer middle before hmiddle =>
    running_of_not_stops (hunstopped fewer hfewer middle before hmiddle)

theorem Unstopped.of_staysRunning {count : Nat} (hle : count ≤ machine.config.budget)
    (hrunning : StaysRunning console machine state count) :
    Unstopped console machine state count := by
  intro fewer hfewer middle before hmiddle hstops
  have hexhausted :=
    budget_le_of_stops hmiddle (hrunning fewer hfewer middle before hmiddle) hstops
  omega

theorem Unstopped.le_budget {reachable count : Nat}
    (hunstopped : Unstopped console machine state count)
    (hreaches : RoundsReach console machine state reachable reached between)
    (hcount : count ≤ reachable + 1)
    (hbudget : machine.config.limit = none → count ≤ UInt64.size) :
    count ≤ machine.config.budget := by
  cases hlimit : machine.config.limit with
  | none =>
      rw [Config.budget_of_none hlimit]
      exact hbudget hlimit
  | some limit =>
      rw [Config.budget_of_limit hlimit]
      rcases Nat.lt_or_ge limit.toNat count with hlt | hge
      · obtain ⟨middle, before, hmiddle⟩ :=
          hreaches.of_le (show limit.toNat ≤ reachable by omega)
        have hstops : middle.Stops limit.toNat :=
          .inr ⟨limit, hmiddle.config ▸ hlimit, Nat.le_refl _⟩
        exact absurd hstops (hunstopped limit.toNat hlt middle before hmiddle)
      · exact hge

theorem loop_stops_iff {final : Machine} {left : σ} {steps : Nat} {ending : Ending}
    (hbudget : machine.config.limit = none → steps < UInt64.size) :
    (∃ count reached between, RunLoop console machine state count reached between
        ((.ok ⟨steps, ending⟩, final), left)) ↔
      StopsAfter console machine state steps final left ∧ ending ≠ .unfinished ∧
        (ending = .halted ↔ final.status = .halted) := by
  constructor
  · intro ⟨count, _, _, hle, hreaches, hrunning, hend⟩
    have hunstopped := Unstopped.of_staysRunning hle hrunning
    cases hend with
    | halted hhalted =>
        rw [Nat.zero_add]
        exact ⟨⟨hreaches, .inl hhalted, hunstopped⟩, nofun, by simp [hhalted]⟩
    | exhausted hstatus hcount =>
        rw [Nat.zero_add] at hbudget ⊢
        cases hlimit : machine.config.limit with
        | none =>
            have hlt := hbudget hlimit
            rw [Config.budget_of_none hlimit] at hcount
            omega
        | some limit =>
            rw [Config.budget_of_limit hlimit] at hcount
            have hstops : final.Stops count :=
              .inr ⟨limit, hreaches.config ▸ hlimit, Nat.le_of_eq hcount.symm⟩
            rw [Config.spent_of_limit hlimit]
            exact ⟨⟨hreaches, hstops, hunstopped⟩, nofun, by simp [hstatus]⟩
  · intro ⟨⟨hreaches, hstops, hunstopped⟩, hfinished, hending⟩
    have hle : steps ≤ machine.config.budget :=
      hunstopped.le_budget hreaches (Nat.le_succ steps) fun hlimit =>
        Nat.le_of_lt (hbudget hlimit)
    refine ⟨steps, final, left, hle, hreaches, hunstopped.staysRunning, ?_⟩
    cases ending with
    | unfinished => exact absurd rfl hfinished
    | limitReached =>
        have hstatus := running_of_not_halted fun hhalted => nomatch hending.mpr hhalted
        obtain ⟨limit, hlimit, _⟩ := (stops_iff_of_running hstatus steps).mp hstops
        have hexhausted := budget_le_of_stops hreaches hstatus hstops
        have hend : LoopEnd console machine.config.spent machine.config.budget 0 steps final left
            ((.ok ⟨0 + steps, machine.config.spent⟩, final), left) :=
          .exhausted hstatus (Nat.le_antisymm hle hexhausted)
        rw [hreaches.config] at hlimit
        simpa [Config.spent_of_limit hlimit] using hend
    | halted =>
        have hend : LoopEnd console machine.config.spent machine.config.budget 0 steps final left
            ((.ok ⟨0 + steps, .halted⟩, final), left) := .halted (hending.mp rfl)
        simpa using hend

theorem run_unfinished_iff {steps : Nat} {final : Machine} {left : σ} :
    (run machine).converse console state = ((.ok ⟨steps, .unfinished⟩, final), left) ↔
      machine.config.limit = none ∧ steps = UInt64.size ∧ final.status = .running ∧
        RoundsReach console machine state steps final left ∧
        StaysRunning console machine state steps := by
  rw [run_eq_iff_loop]
  constructor
  · intro ⟨count, reached, between, _, hreaches, hrunning, hend⟩
    generalize hending : Ending.unfinished = ending at hend
    cases hend with
    | halted => cases hending
    | exhausted hstatus hcount =>
        cases hlimit : machine.config.limit with
        | none =>
            rw [Config.budget_of_none hlimit] at hcount
            rw [Nat.zero_add]
            exact ⟨rfl, hcount, hstatus, hreaches, hrunning⟩
        | some limit =>
            rw [Config.spent_of_limit hlimit] at hending
            cases hending
  · intro ⟨hlimit, hsteps, hstatus, hreaches, hrunning⟩
    have hcount : steps = machine.config.budget := by rw [Config.budget_of_none hlimit, hsteps]
    have hend : LoopEnd console machine.config.spent machine.config.budget 0 steps final left
        ((.ok ⟨0 + steps, machine.config.spent⟩, final), left) := .exhausted hstatus hcount
    rw [Config.spent_of_none hlimit, Nat.zero_add] at hend
    refine ⟨steps, final, left, Nat.le_of_eq hcount, hreaches, hrunning, ?_⟩
    rwa [Config.spent_of_none hlimit]

theorem FaultsAfter.loop {final : Machine} {left : σ} {steps : Nat} {fault : Fault}
    (hfaults : FaultsAfter console machine state steps fault final left)
    (hbudget : machine.config.limit = none → steps < UInt64.size) :
    ∃ reached between, RunLoop console machine state steps reached between
      ((.error fault, final), left) := by
  obtain ⟨hunstopped, reached, between, hreaches, hround⟩ := hfaults
  have hlt : steps < machine.config.budget :=
    hunstopped.le_budget hreaches (Nat.le_refl _) hbudget
  have hrunning := hunstopped.staysRunning
  have hstatus := hrunning steps (Nat.lt_succ_self steps) reached between hreaches
  exact ⟨reached, between, Nat.le_of_lt hlt, hreaches,
    fun fewer hfewer => hrunning fewer (Nat.lt_succ_of_lt hfewer), .faulted hstatus hlt hround⟩

theorem loop_faults_iff {final : Machine} {left : σ} {fault : Fault} :
    (∃ count reached between, RunLoop console machine state count reached between
        ((.error fault, final), left)) ↔
      ∃ steps, (machine.config.limit = none → steps < UInt64.size) ∧
        FaultsAfter console machine state steps fault final left := by
  constructor
  · intro ⟨count, reached, between, hle, hreaches, hrunning, hend⟩
    cases hend with
    | faulted hstatus hcount hround =>
        refine ⟨count, fun hlimit => ?_, ?_, reached, between, hreaches, hround⟩
        · rwa [Config.budget_of_none hlimit] at hcount
        · exact Unstopped.of_staysRunning hcount (hrunning.snoc hreaches hstatus)
  · intro ⟨steps, hbudget, hfaults⟩
    exact ⟨steps, hfaults.loop hbudget⟩

/-! The calls of a run are those of its rounds -/

theorem Unstopped.logged {count : Nat} {log : List Call}
    (hunstopped : Unstopped console machine state count) :
    Unstopped console.logged machine (state, log) count := by
  intro fewer hfewer middle before hmiddle
  exact hunstopped fewer hfewer middle before.1 (roundsReach_logged_iff.mp hmiddle).1

theorem StopsAfter.calls_eq {steps : Nat} {final : Machine} {left : σ}
    {ending : Ending} (hstops : StopsAfter console machine state steps final left)
    (hfinished : ending ≠ .unfinished) (hending : ending = .halted ↔ final.status = .halted)
    (hbudget : machine.config.limit = none → steps < UInt64.size) :
    (run machine).calls console state = (rounds steps machine).calls console state := by
  have hlogged : StopsAfter console.logged machine (state, []) steps final (left, _) :=
    ⟨roundsReach_logged_iff.mpr ⟨hstops.reaches, rfl⟩, hstops.stops, hstops.unstopped.logged⟩
  have hrun := (run_eq_iff_loop console.logged machine (state, []) _).mpr
    ((loop_stops_iff hbudget).mpr ⟨hlogged, hfinished, hending⟩)
  rw [Dialogue.converse_logged] at hrun
  simpa using congrArg (fun outcome => outcome.2.2) hrun

theorem FaultsAfter.calls_eq {steps : Nat} {fault : Fault} {final : Machine} {left : σ}
    (hfaults : FaultsAfter console machine state steps fault final left)
    (hbudget : machine.config.limit = none → steps < UInt64.size) :
    (run machine).calls console state = (rounds (steps + 1) machine).calls console state := by
  obtain ⟨hunstopped, reached, between, hreaches, hround⟩ := hfaults
  have hreachesLogged :
      RoundsReach console.logged machine (state, []) steps reached (between, _) :=
    roundsReach_logged_iff.mpr ⟨hreaches, rfl⟩
  have hroundLogged := Dialogue.converse_logged console (round reached) between
    ([] ++ (rounds steps machine).calls console state)
  rw [hround] at hroundLogged
  have hrun := (run_eq_iff_loop console.logged machine (state, []) _).mpr
    (loop_faults_iff.mpr ⟨steps, hbudget, hunstopped.logged, reached, _, hreachesLogged,
      hroundLogged⟩)
  have hrounds := hreachesLogged.faults hroundLogged
  rw [Dialogue.converse_logged] at hrun hrounds
  have hcalls := congrArg (fun outcome => outcome.2.2) hrun
  have hroundCalls := congrArg (fun outcome => outcome.2.2) hrounds
  simpa using hcalls.trans hroundCalls.symm

theorem StopsAfter.summary {steps : Nat} {final : Machine} {left : σ}
    (hstops : StopsAfter console machine state steps final left)
    (hbudget : machine.config.limit = none → steps < UInt64.size) :
    final.retired = machine.retired + UInt64.ofNat steps ∧
      (∀ limit, machine.config.limit = some limit → steps ≤ limit.toNat) ∧
      (final.status = .running →
        ∃ limit, machine.config.limit = some limit ∧ steps = limit.toNat) := by
  have hle := hstops.unstopped.le_budget hstops.reaches (Nat.le_succ steps) fun hlimit =>
    Nat.le_of_lt (hbudget hlimit)
  refine ⟨hstops.reaches.retired hstops.unstopped.staysRunning, fun limit hlimit => ?_,
    fun hstatus => ?_⟩
  · rwa [Config.budget_of_limit hlimit] at hle
  · obtain ⟨limit, hlimit, hexhausted⟩ :=
      (stops_iff_of_running hstatus steps).mp hstops.stops
    rw [hstops.reaches.config] at hlimit
    rw [Config.budget_of_limit hlimit] at hle
    exact ⟨limit, hlimit, Nat.le_antisymm hle hexhausted⟩

theorem ends_within_limit {limit : UInt64} (hlimit : machine.config.limit = some limit) :
    ∃ steps ≤ limit.toNat,
      (∃ final left, StopsAfter console machine state steps final left) ∨
        (steps < limit.toNat ∧ ∃ fault final left,
          FaultsAfter console machine state steps fault final left) := by
  have hbudget {steps : Nat} : machine.config.limit = none → steps < UInt64.size := by
    simp [hlimit]
  rcases hrun : (run machine).converse console state with
    ⟨⟨fault | ⟨steps, ending⟩, final⟩, left⟩
  · obtain ⟨steps, _, hfaults⟩ :=
      loop_faults_iff.mp ((run_eq_iff_loop console machine state _).mp hrun)
    obtain ⟨reached, between, hreaches, _⟩ := hfaults.faults
    have hlt := hfaults.unstopped.le_budget hreaches (Nat.le_refl _) hbudget
    rw [Config.budget_of_limit hlimit] at hlt
    exact ⟨steps, Nat.le_of_lt hlt, .inr ⟨hlt, fault, final, left, hfaults⟩⟩
  · obtain ⟨hstops, _⟩ :=
      (loop_stops_iff hbudget).mp ((run_eq_iff_loop console machine state _).mp hrun)
    exact ⟨steps, (hstops.summary hbudget).2.1 limit hlimit, .inl ⟨final, left, hstops⟩⟩

/-- A run is the iteration of its rounds up to the first that faults or after which nothing
is left to do, and nothing is asked of the console beyond them. -/
theorem run_iterates_rounds (console : Console σ) (machine : Machine) (state : σ) :
    (∀ steps ending final left, (machine.config.limit = none → steps < UInt64.size) →
      ((run machine).converse console state = ((.ok ⟨steps, ending⟩, final), left) ↔
        StopsAfter console machine state steps final left ∧ ending ≠ .unfinished ∧
          (ending = .halted ↔ final.status = .halted))) ∧
    (∀ steps ending final left, (machine.config.limit = none → steps < UInt64.size) →
      (run machine).converse console state = ((.ok ⟨steps, ending⟩, final), left) →
        final.retired = machine.retired + UInt64.ofNat steps ∧
        steps < UInt64.size ∧
        (∀ limit, machine.config.limit = some limit → steps ≤ limit.toNat) ∧
        (ending = .limitReached ↔ final.status = .running ∧
          ∃ limit, machine.config.limit = some limit ∧ steps = limit.toNat) ∧
        (run machine).calls console state = (rounds steps machine).calls console state) ∧
    (∀ fault final left,
      (run machine).converse console state = ((.error fault, final), left) ↔
        ∃ steps, (machine.config.limit = none → steps < UInt64.size) ∧
          FaultsAfter console machine state steps fault final left ∧
          (run machine).calls console state = (rounds (steps + 1) machine).calls console state) ∧
    (∀ limit, machine.config.limit = some limit → ∃ steps ≤ limit.toNat,
      (∃ final left, StopsAfter console machine state steps final left) ∨
        (steps < limit.toNat ∧ ∃ fault final left,
          FaultsAfter console machine state steps fault final left)) := by
  refine ⟨fun steps ending final left hbudget => ?_,
    fun steps ending final left hbudget hrun => ?_,
    fun fault final left => ?_, fun limit hlimit => ends_within_limit hlimit⟩
  · rw [run_eq_iff_loop, loop_stops_iff hbudget]
  · obtain ⟨hstops, hfinished, hending⟩ :=
      (loop_stops_iff hbudget).mp ((run_eq_iff_loop console machine state _).mp hrun)
    obtain ⟨hretired, hlimit, hrunning⟩ := hstops.summary hbudget
    refine ⟨hretired, ?_, hlimit, ⟨fun hreached => ?_, fun hstatus => ?_⟩,
      hstops.calls_eq hfinished hending hbudget⟩
    · cases hnone : machine.config.limit with
      | none => exact hbudget hnone
      | some limit => exact Nat.lt_of_le_of_lt (hlimit limit hnone) limit.toNat_lt
    · subst hreached
      have hstatus := running_of_not_halted fun hhalted => nomatch hending.mpr hhalted
      exact ⟨hstatus, hrunning hstatus⟩
    · cases ending with
      | limitReached => rfl
      | unfinished => exact absurd rfl hfinished
      | halted =>
          rw [hending.mp rfl] at hstatus
          cases hstatus.1
  · rw [run_eq_iff_loop, loop_faults_iff]
    constructor
    · intro ⟨steps, hbudget, hfaults⟩
      exact ⟨steps, hbudget, hfaults, hfaults.calls_eq hbudget⟩
    · intro ⟨steps, hbudget, hfaults, _⟩
      exact ⟨steps, hbudget, hfaults⟩

end

theorem run_quietHalt_at_limit :
    ∃ final,
      StopsAfter Script.console (holding { limit := some 1, banner := false } [0xF025])
        { input := [] } 1 final { input := [] } ∧
      final.retired = 0 + UInt64.ofNat 1 ∧ final.status = .halted := by
  let machine := holding { limit := some 1, banner := false } [0xF025]
  have hword : machine.memory.peek machine.registers.pc = 0xF025 := by
    simp [machine, holding, ofConfig, Memory.writeWords]
  obtain ⟨final, hhalted, hround⟩ : ∃ final : Machine, final.status = .halted ∧
      (round machine).converse Script.console { input := [] } =
        ((.ok .halted, final), { input := [] }) :=
    ⟨_, rfl, (converse_round rfl machine).trans
      (step_quietHalt rfl (by decide) hword rfl _ _)⟩
  have hrun : (run machine).converse Script.console { input := [] } =
      ((.ok ⟨1, .halted⟩, final), { input := [] }) := by
    rw [run_eq_runFor, show machine.config.budget = 0 + 1 from rfl, runFor_succ rfl, hround]
    exact runFor_halted hhalted _ _ _ _ _
  obtain ⟨hiff, hsummary, _⟩ := run_iterates_rounds Script.console machine { input := [] }
  obtain ⟨hstops, _⟩ := (hiff 1 .halted final _ nofun).mp hrun
  exact ⟨final, hstops, (hsummary 1 .halted final _ nofun hrun).1, hhalted⟩

end Machine

end LittleComputer

import LittleComputer.Console.Scripted
import LittleComputer.Proofs.Chronicle
import LittleComputer.Proofs.Refinement

namespace LittleComputer

/-! The condition and the result that was written last -/

namespace Machine

variable {σ : Type} {console : Console σ} {machine : Machine} {state : σ} {word : Word}

theorem condition_of_resultless (hfetches : Fetches console machine state word)
    (hresult : (Instruction.decode word).result? = none) :
    ((step machine).converse console state).1.2.condition = machine.condition := by
  rcases hstep : (step machine).converse console state with ⟨⟨fault | result, after⟩, left⟩
  · exact congrArg RegisterFile.condition (withdrawn_of_step hstep).2.registers
  · obtain ⟨fetched, hretires⟩ := retires_of_step hfetches.running hstep
    obtain rfl := hfetches.unique hretires.fetches
    have hcondition := hretires.condition
    rw [hresult] at hcondition
    exact hcondition

def branchTarget (word : Word) (condition : Condition) (pc : Word) : Word :=
  if Architecture.takes word.toNat condition then pc + 1 + word.offset9 else pc + 1

theorem step_branch_plain (hrunning : machine.status = .running)
    (hplain : machine.registers.pc ≠ DeviceCell.keyboardStatus.address)
    (hword : machine.memory.peek machine.registers.pc = word)
    (hbranch : Opcode.ofWord word = .br) :
    ∃ next, (step machine).converse console state = ((.ok .completed, next), state) ∧
      next.registers.pc = branchTarget word machine.condition machine.registers.pc := by
  have hdecode : Instruction.decode word =
      .br (UInt16.ofNat (word.field 9 3)) word.offset9 := by
    rw [Instruction.decode, hbranch]
  rw [step_retire hrunning hplain hword (by rw [hdecode, Effect.execute])]
  refine ⟨_, rfl, ?_⟩
  rw [branchTarget, show machine.condition = machine.architectural.condition from rfl,
    Architecture.takes_eq]
  exact apply_ite RegisterFile.pc _ _ _

theorem step_branch (hfetches : Fetches console machine state word)
    (hbranch : Opcode.ofWord word = .br) :
    ∃ next left, (step machine).converse console state = ((.ok .completed, next), left) ∧
      next.registers.pc = branchTarget word machine.condition machine.registers.pc := by
  by_cases hstatus : machine.registers.pc = DeviceCell.keyboardStatus.address
  · have hread := hfetches.read
    rw [hstatus, Memory.read_status, Dialogue.converse_ask] at hread
    rw [converse_step_status hfetches.running hstatus]
    rcases hanswer : console.answer .poll state with ⟨error | _ | key, left⟩
    · rw [hanswer] at hread
      cases hread
    · -- The word of an idle keyboard is a branch that no condition takes.
      rw [hanswer] at hread
      obtain rfl : 0 = word := Except.ok.inj hread
      have huntaken : Architecture.takes (0 : Word).toNat machine.condition = false := by
        cases machine.condition <;> rfl
      refine ⟨_, left, rfl, ?_⟩
      rw [branchTarget, huntaken]
      rfl
    · rw [hanswer] at hread
      obtain rfl : Memory.keyReady = word := Except.ok.inj hread
      cases hbranch
  · have hword := hfetches.unique (fetches_plain hfetches.running hstatus)
    obtain ⟨next, hstep, hnext⟩ := step_branch_plain hfetches.running hstatus hword hbranch
    exact ⟨next, state, hstep, hnext⟩

inductive Fresh : Machine → Prop
  | made (config : Config) : Fresh (ofConfig config)
  | reset (machine : Machine) : Fresh machine.reset

theorem Fresh.consistent {start : Machine} (hfresh : Fresh start) :
    (Chronicle.ofMachine start).Consistent := by
  cases hfresh with
  | made config => exact Chronicle.consistent_reset (ofConfig config)
  | reset machine => exact Chronicle.consistent_reset machine

end Machine

namespace Chronicle

structure TellsLastSign (chronicle : Chronicle) : Prop where
  condition : chronicle.machine.condition = Retirement.lastSign chronicle.retired
  resultless : ∀ {σ : Type} (console : Console σ) (state : σ) (word : Word),
    Machine.Fetches console chronicle.machine state word →
      (Instruction.decode word).result? = none →
        ((Machine.step chronicle.machine).converse console state).1.2.condition =
          chronicle.machine.condition
  withdrawn : ∀ {σ : Type} (console : Console σ) (state left : σ) (fault : Fault)
    (after : Machine),
    (Machine.step chronicle.machine).converse console state = ((.error fault, after), left) →
      after.condition = chronicle.machine.condition
  branch : ∀ {σ : Type} (console : Console σ) (state : σ) (word : Word),
    Machine.Fetches console chronicle.machine state word → Opcode.ofWord word = .br →
      ∃ next left,
        (Machine.step chronicle.machine).converse console state =
          ((.ok .completed, next), left) ∧
        next.registers.pc =
          Machine.branchTarget word (Retirement.lastSign chronicle.retired)
            chronicle.machine.registers.pc

theorem Consistent.tellsLastSign {chronicle : Chronicle} (hconsistent : chronicle.Consistent) :
    chronicle.TellsLastSign where
  condition := hconsistent.condition
  resultless _ _ _ hfetches hresult := Machine.condition_of_resultless hfetches hresult
  withdrawn _ _ _ _ _ hfault :=
    congrArg RegisterFile.condition (Machine.withdrawn_of_step hfault).2.registers
  branch _ _ _ hfetches hbranch := by
    rw [← hconsistent.condition]
    exact Machine.step_branch hfetches hbranch

/-- After whatever a host has done to a new machine, and also between the instructions of a
run, the condition tells the sign of the last result. -/
theorem condition_tells_last_sign {start : Machine} (hfresh : Machine.Fresh start)
    (operations : List Operation) :
    ((ofMachine start).performAll operations).TellsLastSign ∧
      ∀ {σ : Type} (console : Console σ) (state between : σ) (count : Nat) (middle : Machine),
        Machine.RoundsReach console ((ofMachine start).performAll operations).machine state count
            middle between →
          TellsLastSign ⟨middle, ((ofMachine start).performAll operations).retired ++
            Machine.retirements console count
              ((ofMachine start).performAll operations).machine state⟩ := by
  have hconsistent := hfresh.consistent.performAll operations
  exact ⟨hconsistent.tellsLastSign, fun console state between count middle hreaches =>
    (hconsistent.rounds hreaches).tellsLastSign⟩

/-! A result in the link register, before a call overwrites it -/

namespace ResultBeforeLink

def start : Machine :=
  .holding {} [0x1FFF, 0x4800, 0x0801]

def added : Machine :=
  { start with
    registers := start.registers.advance.commit .add .r7
      (start.registers.advance.read .r7 + 0xFFFF)
    retired := start.retired + 1 }

def linked : Machine :=
  { added with
    registers := (added.registers.advance.commit .jsr .link added.registers.advance.pc).jump
      (added.registers.advance.pcRelative 0)
    retired := added.retired + 1 }

theorem cells_start : start.memory.peek 0x3000 = 0x1FFF ∧ start.memory.peek 0x3001 = 0x4800 ∧
    start.memory.peek 0x3002 = 0x0801 := by
  simp [start, Machine.holding, Memory.writeWords, Region.first, Memory.peek_write]

theorem step_start : (Machine.step start).converse Script.console { input := [] } =
    ((.ok .completed, added), { input := [] }) := by
  have hdecode : Instruction.decode 0x1FFF = .add .r7 .r7 (.immediate 0xFFFF) := by decide
  have hrunning : start.status = .running := rfl
  rw [Machine.step_retire hrunning (by decide) cells_start.1 (by rw [hdecode]; rfl)]
  rfl

theorem step_added : (Machine.step added).converse Script.console { input := [] } =
    ((.ok .completed, linked), { input := [] }) := by
  have hdecode : Instruction.decode 0x4800 = .jsr 0 := by decide
  have hrunning : added.status = .running := rfl
  rw [Machine.step_retire hrunning (by decide) cells_start.2.1 (by rw [hdecode]; rfl)]
  rfl

theorem fetches_linked : Machine.Fetches Script.console linked { input := [] } 0x0801 :=
  cells_start.2.2 ▸ Machine.fetches_plain rfl (by decide)

theorem machine_performAll : ((ofMachine start).performAll
    [.step Script.console { input := [] }, .step Script.console { input := [] }]).machine =
      linked := by
  have hfirst : ((ofMachine start).perform (.step Script.console { input := [] })).machine =
      added := machine_perform_step step_start
  have hsecond := step_added
  rw [← hfirst] at hsecond
  rw [performAll, List.foldl_cons, List.foldl_cons, List.foldl_nil]
  exact machine_perform_step hsecond

end ResultBeforeLink

/-- The link register gets -1 as a result and then a return address, which is none: the
branch on a negative result is taken. -/
theorem negative_result_before_link :
    ∃ start, Machine.Fresh start ∧ ∃ reached, reached =
        (ofMachine start).performAll
          [.step Script.console { input := [] }, .step Script.console { input := [] }] ∧
      reached.machine.registers.read .link = 0x3002 ∧
      Retirement.lastSign reached.retired = .negative ∧
      ∃ next left,
        (Machine.step reached.machine).converse Script.console { input := [] } =
          ((.ok .completed, next), left) ∧
        next.registers.pc = 0x3004 := by
  have hfresh : Machine.Fresh ResultBeforeLink.start := .reset ResultBeforeLink.start
  obtain ⟨htells, _⟩ := condition_tells_last_sign hfresh
    [.step Script.console { input := [] }, .step Script.console { input := [] }]
  have hreached := ResultBeforeLink.machine_performAll
  have hnegative : ResultBeforeLink.linked.condition = .negative := by decide
  have hreturn : ResultBeforeLink.linked.registers.read .link = 0x3002 := by decide
  have hsign := htells.condition
  rw [hreached, hnegative] at hsign
  obtain ⟨next, left, hstep, hnext⟩ := htells.branch Script.console { input := [] } 0x0801
    (hreached ▸ ResultBeforeLink.fetches_linked) (by decide)
  refine ⟨_, hfresh, _, rfl, by rw [hreached, hreturn], hsign.symm, next, left, hstep, ?_⟩
  rw [hnext, hreached, ← hsign]
  rfl

end Chronicle

end LittleComputer

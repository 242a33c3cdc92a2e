import LittleComputer.Console.Scripted
import LittleComputer.Proofs.Attempts
import LittleComputer.Proofs.Retirement

namespace LittleComputer

/-! Return addresses -/

namespace Machine

section

variable {σ : Type} {console : Console σ} {machine after : Machine} {state left : σ}
  {retirement : Retirement}

theorem turns_of_retirement (hretires : retirement? console machine state = some retirement) :
    retirement.registers = ((step machine).converse console state).1.2.registers ∧
      retirement.instruction.Turns machine.registers.advance retirement.registers := by
  obtain ⟨_, result, after, left, hstep, hword, rfl⟩ := exists_retires hretires
  obtain ⟨word, hfetches, _, hturns⟩ := turns_of_step hword.fetches.running hstep
  obtain rfl := hfetches.unique hword.fetches
  rw [hstep]
  exact ⟨rfl, hturns⟩

theorem registers_of_unretired (hunretired : retirement? console machine state = none) :
    ((step machine).converse console state).1.2.registers = machine.registers := by
  cases hstatus : machine.status with
  | halted =>
      rw [step_halted hstatus]
      rfl
  | running =>
      rcases hstep : (step machine).converse console state with ⟨⟨fault | result, after⟩, left⟩
      · exact (withdrawn_of_step hstep).2.registers
      · obtain ⟨word, hword⟩ := retires_of_step hstatus hstep
        rw [hword.retirement? hstep] at hunretired
        cases hunretired

theorem link_kept (hspares : ∀ retirement, retirement? console machine state = some retirement →
      ¬ retirement.instruction.Writes .link) :
    ((step machine).converse console state).1.2.registers.read .link =
      machine.registers.read .link := by
  cases hretires : retirement? console machine state with
  | none => rw [registers_of_unretired hretires]
  | some retirement =>
      obtain ⟨hregisters, hturns⟩ := turns_of_retirement hretires
      rw [← hregisters, hturns.kept .link (hspares retirement hretires)]
      rfl

end

/-- Steps one after another. Before each of them the console may be in any state. -/
structure Trace {σ : Type} (console : Console σ) where
  machine : Nat → Machine
  state : Nat → σ
  next : ∀ index,
    machine (index + 1) = ((step (machine index)).converse console (state index)).1.2

namespace Trace

variable {σ : Type} {console : Console σ} (trace : Trace console)

def ofAttempts (console : Console σ) (machine : Machine) (state : σ) : Trace console where
  machine index := ((attempts index machine).converse console state).1
  state index := ((attempts index machine).converse console state).2
  next index := by rw [converse_attempts_succ]

def retirement? (index : Nat) : Option Retirement :=
  Machine.retirement? console (trace.machine index) (trace.state index)

def result (index : Nat) : Except Fault StepResult :=
  ((step (trace.machine index)).converse console (trace.state index)).1.1

def registers (index : Nat) : RegisterFile :=
  (trace.machine index).registers

def SparesLink (first last : Nat) : Prop :=
  ∀ index, first ≤ index → index < last → ∀ retirement,
    trace.retirement? index = some retirement → ¬ retirement.instruction.Writes .link

variable {trace} {first last : Nat}

theorem turns {index : Nat} {retirement : Retirement}
    (hretires : trace.retirement? index = some retirement) :
    retirement.instruction.Turns (trace.registers index).advance (trace.registers (index + 1)) := by
  obtain ⟨hregisters, hturns⟩ := turns_of_retirement hretires
  rw [registers, registers, trace.next, ← hregisters]
  exact hturns

theorem SparesLink.link (hspares : trace.SparesLink first last) (hle : first ≤ last) :
    (trace.registers last).read .link = (trace.registers first).read .link := by
  induction last with
  | zero => rw [Nat.le_zero.mp hle]
  | succ last ih =>
      rcases Nat.lt_or_eq_of_le hle with hlt | rfl
      · have hfirst : first ≤ last := Nat.le_of_lt_succ hlt
        rw [registers, trace.next, link_kept (hspares last hfirst (Nat.lt_succ_self last))]
        exact ih (fun index hindex hbefore =>
          hspares index hindex (Nat.lt_succ_of_lt hbefore)) hfirst
      · rfl

theorem registers_of_fault {index : Nat} {fault : Fault}
    (hfault : trace.result index = .error fault) :
    trace.registers (index + 1) = trace.registers index := by
  have houtcome := (step_outcome (trace.machine index)).converse console (trace.state index)
  rw [registers, trace.next]
  rw [show ((step (trace.machine index)).converse console (trace.state index)).1.1 =
    .error fault from hfault] at houtcome
  exact houtcome.2.registers

section

variable {machine reached : Machine} {state between : σ} {index : Nat}
  (hreached : (attempts index machine).converse console state = (reached, between))

include hreached

theorem result_ofAttempts :
    (ofAttempts console machine state).result index =
      ((step reached).converse console between).1.1 := by
  simp only [result, ofAttempts, hreached]

theorem retirement?_ofAttempts :
    (ofAttempts console machine state).retirement? index =
      Machine.retirement? console reached between := by
  simp only [retirement?, ofAttempts, hreached]

end

end Trace

/-- A call that retires leaves the address behind it in the link register, and a return goes
there however many steps later, when nothing that has retired in between writes that
register. A fault leaves all registers as they are. -/
theorem return_address_kept {σ : Type} {console : Console σ} (trace : Trace console) :
    (∀ index fault, trace.result index = .error fault →
      trace.registers (index + 1) = trace.registers index) ∧
    ∀ first call, trace.retirement? first = some call → call.instruction.isCall = true →
      (trace.registers (first + 1)).read .link = (trace.registers first).pc + 1 ∧
      ∀ last, first < last → trace.SparesLink (first + 1) last →
        (trace.registers last).read .link = (trace.registers first).pc + 1 ∧
        ∀ back, trace.retirement? last = some back → back.instruction = .jmp .link →
          (trace.registers (last + 1)).pc = (trace.registers first).pc + 1 := by
  refine ⟨fun index fault => Trace.registers_of_fault, fun first call hcall hlinks => ?_⟩
  have hlinked := (Trace.turns hcall).linked hlinks
  refine ⟨hlinked, fun last hlt hspares => ?_⟩
  have hkept := (hspares.link hlt).trans hlinked
  exact ⟨hkept, fun back hback hjump => ((Trace.turns hback).jumped .link hjump).trans hkept⟩

/-! A subroutine that begins at the keyboard status -/

namespace DeviceSubroutine

/-- The call stands right before the keyboard status, and the return right behind it. -/
def start : Machine :=
  holding { entry := 0xFDFF } [0x4800, 0, 0xC1C0]

def called : Machine :=
  { start with
    registers := (start.registers.advance.commit .jsr .link start.registers.advance.pc).jump
      (start.registers.advance.pcRelative 0)
    retired := start.retired + 1 }

def latched : Machine :=
  { called with memory := called.memory.latchKey 0x61 }

def passed : Machine :=
  { latched with
    memory := latched.memory.clearReady
    registers := latched.registers.advance
    retired := latched.retired + 1 }

def returned : Machine :=
  { passed with
    registers := passed.registers.advance.jump (passed.registers.advance.read .link)
    retired := passed.retired + 1 }

theorem peek_start : start.memory.peek 0xFDFF = 0x4800 := by
  simp [start, holding, ofConfig, Memory.writeWords, Memory.peek_write]

theorem peek_passed : passed.memory.peek 0xFE01 = 0xC1C0 := by
  simp [passed, latched, called, start, holding, ofConfig, Memory.latchKey, Memory.clearReady,
    DeviceCell.address, Memory.writeWords, Memory.peek_write]

theorem step_start : (step start).converse Script.console { input := [0x61] } =
    ((.ok .completed, called), { input := [0x61] }) := by
  have hdecode : Instruction.decode 0x4800 = .jsr 0 := by decide
  rw [step_retire rfl (by decide) peek_start (by rw [hdecode]; rfl)]
  rfl

theorem step_called : (step called).converse Script.console { input := [0x61] } =
    ((.error ⟨0xFE00, .illegal .rti 0x8000⟩, latched), { input := [] }) :=
  converse_step_status rfl rfl _ _

theorem step_latched : (step latched).converse Script.console { input := [] } =
    ((.ok .completed, passed), { input := [] }) :=
  converse_step_status rfl rfl _ _

theorem step_passed : (step passed).converse Script.console { input := [] } =
    ((.ok .completed, returned), { input := [] }) := by
  have hdecode : Instruction.decode 0xC1C0 = .jmp .link := by decide
  rw [step_retire rfl (by decide) peek_passed (by rw [hdecode]; rfl)]
  rfl

theorem retirement?_start : Machine.retirement? Script.console start { input := [0x61] } =
    some ⟨.jsr 0, called.registers⟩ := by
  have hretires := retirement?_plain (show start.status = .running from rfl) (by decide) step_start
  rwa [show start.memory.peek start.registers.pc = 0x4800 from peek_start,
    show Instruction.decode 0x4800 = .jsr 0 by decide] at hretires

theorem retirement?_latched : Machine.retirement? Script.console latched { input := [] } =
    some ⟨.br 0 0, passed.registers⟩ := by
  have hread : (Memory.read latched.registers.pc latched.memory).converse Script.console
      { input := [] } = ((.ok 0, latched.memory.clearReady), { input := [] }) := by
    rw [show latched.registers.pc = DeviceCell.keyboardStatus.address from rfl,
      Memory.read_status]
    rfl
  rw [Machine.retirement?, step_latched, hread]
  rfl

theorem retirement?_passed : Machine.retirement? Script.console passed { input := [] } =
    some ⟨.jmp .link, returned.registers⟩ := by
  have hretires :=
    retirement?_plain (show passed.status = .running from rfl) (by decide) step_passed
  rwa [show passed.memory.peek passed.registers.pc = 0xC1C0 from peek_passed,
    show Instruction.decode 0xC1C0 = .jmp .link by decide] at hretires

theorem attempts_called : (attempts 1 start).converse Script.console { input := [0x61] } =
    (called, { input := [0x61] }) :=
  attempts_succ rfl step_start

theorem attempts_latched : (attempts 2 start).converse Script.console { input := [0x61] } =
    (latched, { input := [] }) :=
  attempts_succ attempts_called step_called

theorem attempts_passed : (attempts 3 start).converse Script.console { input := [0x61] } =
    (passed, { input := [] }) :=
  attempts_succ attempts_latched step_latched

def trace : Trace Script.console :=
  .ofAttempts Script.console start { input := [0x61] }

theorem call_trace : trace.retirement? 0 = some ⟨.jsr 0, called.registers⟩ :=
  retirement?_start

theorem fault_trace : trace.result 1 = .error ⟨0xFE00, .illegal .rti 0x8000⟩ := by
  rw [trace, Trace.result_ofAttempts attempts_called, step_called]

theorem return_trace : trace.retirement? 3 = some ⟨.jmp .link, returned.registers⟩ :=
  (Trace.retirement?_ofAttempts attempts_passed).trans retirement?_passed

theorem sparesLink_trace : trace.SparesLink 1 3 := by
  intro index hafter hbefore retirement hretires
  obtain rfl | rfl : index = 1 ∨ index = 2 := by omega
  · rw [trace, Trace.retirement?_ofAttempts attempts_called,
      Machine.retirement?_fault step_called] at hretires
    cases hretires
  · rw [trace, Trace.retirement?_ofAttempts attempts_latched, retirement?_latched] at hretires
    cases hretires
    rintro (hresult | ⟨hlinks, _⟩)
    · cases hresult
    · cases hlinks

end DeviceSubroutine

theorem return_behind_fault :
    ∃ trace : Trace Script.console,
      trace.result 1 = .error ⟨0xFE00, .illegal .rti 0x8000⟩ ∧
      trace.registers 2 = trace.registers 1 ∧
      (trace.registers 1).read .link = 0xFE00 ∧ (trace.registers 4).pc = 0xFE00 := by
  obtain ⟨hfaulting, hlinking⟩ := return_address_kept DeviceSubroutine.trace
  obtain ⟨hlinked, hreturning⟩ := hlinking 0 _ DeviceSubroutine.call_trace rfl
  obtain ⟨_, hreturned⟩ := hreturning 3 (by decide) DeviceSubroutine.sparesLink_trace
  exact ⟨DeviceSubroutine.trace, DeviceSubroutine.fault_trace,
    hfaulting 1 _ DeviceSubroutine.fault_trace, hlinked,
    hreturned _ DeviceSubroutine.return_trace rfl⟩

end Machine

end LittleComputer

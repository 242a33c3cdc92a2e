import LittleComputer.Console.Scripted
import LittleComputer.Proofs.Consecutive
import LittleComputer.Proofs.FaultMemory
import LittleComputer.Proofs.InstructionText
import LittleComputer.Proofs.PreciseFaults
import LittleComputer.Proofs.ReportedFailures

namespace LittleComputer

/-! What a listing tells of faults -/

namespace Row

variable (address word : Word)

@[simp] theorem address_ofWord : (ofWord address word).address = address := by
  rw [ofWord]
  split <;> rfl

@[simp] theorem word_ofWord : (ofWord address word).word = word := by
  rw [ofWord]
  split <;> rfl

@[simp] theorem isIllegal_ofWord :
    (ofWord address word).isIllegal = (Opcode.ofWord word).isIllegal := by
  rw [ofWord, Instruction.opcode_decode]
  cases (Opcode.ofWord word).isIllegal <;> rfl

theorem mnemonic_ofWord (hlegal : (Opcode.ofWord word).isIllegal = false) :
    (ofWord address word).mnemonic = (Instruction.decode word).mnemonic := by
  rw [ofWord, Instruction.opcode_decode, hlegal]
  rfl

theorem operands_ofWord (hlegal : (Opcode.ofWord word).isIllegal = false) :
    (ofWord address word).operands = (Instruction.decode word).operands := by
  rw [ofWord, Instruction.opcode_decode, hlegal]
  rfl

theorem mnemonic_ofWord_illegal (hillegal : (Opcode.ofWord word).isIllegal = true) :
    (ofWord address word).mnemonic = ".word" := by
  rw [ofWord, Instruction.opcode_decode, hillegal]
  rfl

theorem operands_ofWord_illegal (hillegal : (Opcode.ofWord word).isIllegal = true) :
    (ofWord address word).operands = word.hex ++ " ; ILLEGAL" := by
  rw [ofWord, Instruction.opcode_decode, hillegal]
  rfl

end Row

namespace Instruction

theorem mnemonic_eq_trap_iff {instruction : Instruction} :
    instruction.mnemonic = "TRAP" ↔
      ∃ vector, instruction = .trap vector ∧ TrapService.ofVector? vector = none := by
  constructor
  · intro hmnemonic
    have hopcode : instruction.opcode = .trap := by
      have hname := Opcode.ofName?_of_mem instruction.mnemonic_mem_names
      have htrap : Opcode.ofName? "TRAP" = some .trap := Opcode.ofName?_of_mem List.mem_cons_self
      rw [hmnemonic, htrap] at hname
      exact (Option.some.inj hname).symm
    cases instruction with
    | trap vector =>
        refine ⟨vector, rfl, ?_⟩
        rw [mnemonic] at hmnemonic
        cases hvector : TrapService.ofVector? vector with
        | none => rfl
        | some requested =>
            rw [hvector] at hmnemonic
            cases requested <;> exact absurd hmnemonic (by decide)
    | _ => cases hopcode
  · rintro ⟨vector, rfl, hvector⟩
    rw [mnemonic, hvector]
    rfl

theorem operands_of_undefined {vector : Byte} (hvector : TrapService.ofVector? vector = none) :
    (Instruction.trap vector).operands =
      "x" ++ String.ofList
        [Numeral.hexDigit (vector.toNat / 16), Numeral.hexDigit (vector.toNat % 16)] := by
  have hdigits : vector.toNat / 16 % 16 = vector.toNat / 16 := by
    have := vector.toNat_lt
    omega
  simp [operands, operandTexts, hvector, Byte.hex, Numeral.hexDigits, hdigits]

end Instruction

namespace Row

variable {address word : Word} {vector : Byte}

theorem isIllegal_of_trap (htrap : Instruction.decode word = .trap vector) :
    (Opcode.ofWord word).isIllegal = false := by
  rw [← Instruction.opcode_decode, htrap]
  rfl

theorem mnemonic_eq_trap_iff :
    (ofWord address word).mnemonic = "TRAP" ↔
      ∃ vector, Instruction.decode word = .trap vector ∧ TrapService.ofVector? vector = none := by
  cases hillegal : (Opcode.ofWord word).isIllegal with
  | true =>
      rw [mnemonic_ofWord_illegal address word hillegal]
      refine iff_of_false (by decide) ?_
      rintro ⟨vector, htrap, _⟩
      rw [isIllegal_of_trap htrap] at hillegal
      cases hillegal
  | false =>
      rw [mnemonic_ofWord address word hillegal]
      exact Instruction.mnemonic_eq_trap_iff

theorem operands_of_undefined (htrap : Instruction.decode word = .trap vector)
    (hvector : TrapService.ofVector? vector = none) :
    (ofWord address word).operands =
      "x" ++ String.ofList
        [Numeral.hexDigit (vector.toNat / 16), Numeral.hexDigit (vector.toNat % 16)] := by
  rw [operands_ofWord address word (isIllegal_of_trap htrap), htrap]
  exact Instruction.operands_of_undefined hvector

end Row

namespace Effect

open Instruction (decode)

theorem refusal?_illegal_iff {word reported : Word} {opcode : Opcode} :
    refusal? (decode word) word = some (.illegal opcode reported) ↔
      (Opcode.ofWord word).isIllegal = true ∧ opcode = Opcode.ofWord word ∧ reported = word := by
  rw [← Instruction.opcode_decode]
  cases decode word with
  | trap vector =>
      rw [refusal?_trap]
      refine iff_of_false (fun hrefused => ?_) fun hillegal => nomatch hillegal.1
      split at hrefused <;> cases hrefused
  | rti | reserved =>
      constructor
      · intro hrefused
        cases hrefused
        exact ⟨rfl, rfl, rfl⟩
      · rintro ⟨_, rfl, rfl⟩
        rfl
  | _ => exact iff_of_false nofun fun hillegal => nomatch hillegal.1

theorem refusal?_undefined_iff {word : Word} {vector : Byte} :
    refusal? (decode word) word = some (.undefinedTrap vector) ↔
      decode word = .trap vector ∧ TrapService.ofVector? vector = none := by
  cases decode word with
  | trap other =>
      rw [refusal?_trap]
      constructor
      · intro hrefused
        split at hrefused
        next hvector =>
          cases hrefused
          exact ⟨rfl, hvector⟩
        next => cases hrefused
      · rintro ⟨hother, hvector⟩
        cases hother
        exact if_pos hvector
  | _ => exact iff_of_false nofun fun htrap => nomatch htrap.1

end Effect

namespace Memory

theorem getElem?_rows (memory : Memory) (address : Word) {count index : Nat}
    (hindex : index < count) :
    (memory.rows address count)[index]? =
      some (Row.ofWord (address + UInt16.ofNat index)
        (memory.peek (address + UInt16.ofNat index))) := by
  rw [rows_eq_map, List.getElem?_map, Word.getElem?_upward address hindex]
  rfl

theorem getElem?_window_center (memory : Memory) (center before after : Word) :
    (memory.window center before after)[before.toNat]? =
      some (Row.ofWord center (memory.peek center)) := by
  have hbefore : before.toNat < min (before.toNat + 1 + after.toNat) size := by
    have := before.toNat_lt
    simp only [size]
    omega
  rw [window, getElem?_rows memory _ hbefore, UInt16.ofNat_toNat, UInt16.sub_add_cancel]

end Memory

structure Row.Foretells (row : Row) (result : Except Fault StepResult) : Prop where
  illegal_iff :
    (∃ fault opcode word, result = .error fault ∧ fault.cause = .illegal opcode word) ↔
      row.isIllegal = true
  illegal : ∀ fault opcode word, result = .error fault → fault.cause = .illegal opcode word →
    word = row.word ∧ opcode = Opcode.ofWord row.word
  undefined_iff :
    (∃ fault vector, result = .error fault ∧ fault.cause = .undefinedTrap vector) ↔
      row.mnemonic = "TRAP"
  undefined : ∀ fault vector, result = .error fault → fault.cause = .undefinedTrap vector →
    row.operands = "x" ++ String.ofList
      [Numeral.hexDigit (vector.toNat / 16), Numeral.hexDigit (vector.toNat % 16)]
  other : ∀ fault, result = .error fault →
    (∀ opcode word, fault.cause ≠ .illegal opcode word) →
    (∀ vector, fault.cause ≠ .undefinedTrap vector) →
      fault.cause.kind = .console ∧ row.isIllegal = false ∧ row.mnemonic ≠ "TRAP"

theorem Fault.Cause.console_of_ne {cause : Fault.Cause}
    (hillegal : ∀ opcode word, cause ≠ .illegal opcode word)
    (hundefined : ∀ vector, cause ≠ .undefinedTrap vector) : cause.kind = .console := by
  cases cause with
  | illegal opcode word => exact absurd rfl (hillegal opcode word)
  | undefinedTrap vector => exact absurd rfl (hundefined vector)
  | console error => rfl

/-- Every window around the program counter shows the instruction at fault where its middle is. -/
def Fault.Listed (fault : Fault) (machine : Machine) : Prop :=
  ∀ before after, ∃ row,
    (machine.window before after)[before.toNat]? = some row ∧ row.address = fault.pc ∧
      ∀ opcode word, fault.cause = .illegal opcode word → row.isIllegal = true ∧ row.word = word

namespace Machine

variable {σ : Type} {console : Console σ} {machine final : Machine} {state left : σ} {fault : Fault}

open Instruction (decode)

theorem step_refused (hrunning : machine.status = .running)
    (hplain : machine.registers.pc ≠ DeviceCell.keyboardStatus.address) {word : Word}
    (hword : machine.memory.peek machine.registers.pc = word) {cause : Fault.Cause}
    (hrefused : Effect.refusal? (decode word) word = some cause) :
    (step machine).converse console state =
      ((.error ⟨machine.registers.pc, cause⟩, machine), state) := by
  rw [step_plain hrunning hplain hword, Effect.execute_refused hrefused]
  rfl

theorem step_refused_iff (hrunning : machine.status = .running)
    (hplain : machine.registers.pc ≠ DeviceCell.keyboardStatus.address) {word : Word}
    (hword : machine.memory.peek machine.registers.pc = word) {cause : Fault.Cause}
    (hkind : cause.kind = .program) :
    (∃ fault, ((step machine).converse console state).1.1 = .error fault ∧ fault.cause = cause) ↔
      Effect.refusal? (decode word) word = some cause := by
  cases hrefusal : Effect.refusal? (decode word) word with
  | some refused =>
      rw [step_refused hrunning hplain hword hrefusal]
      constructor
      · rintro ⟨fault, hfault, rfl⟩
        cases hfault
        rfl
      · rintro heq
        cases heq
        exact ⟨_, rfl, rfl⟩
  | none =>
      subst hword
      have haccepted := (accepted_step_plain hrunning hplain hrefusal).converse console state
      refine iff_of_false ?_ nofun
      rintro ⟨fault, hfault, rfl⟩
      rw [haccepted fault hfault] at hkind
      cases hkind

section

variable (hrunning : machine.status = .running)
  (hplain : machine.registers.pc ≠ DeviceCell.keyboardStatus.address) {word : Word}
  (hword : machine.memory.peek machine.registers.pc = word)

include hrunning hplain hword

theorem step_illegal_iff (opcode : Opcode) (reported : Word) :
    (∃ fault, ((step machine).converse console state).1.1 = .error fault ∧
        fault.cause = .illegal opcode reported) ↔
      (Opcode.ofWord word).isIllegal = true ∧ opcode = Opcode.ofWord word ∧ reported = word :=
  (step_refused_iff hrunning hplain hword rfl).trans Effect.refusal?_illegal_iff

theorem step_undefined_iff (vector : Byte) :
    (∃ fault, ((step machine).converse console state).1.1 = .error fault ∧
        fault.cause = .undefinedTrap vector) ↔
      decode word = .trap vector ∧ TrapService.ofVector? vector = none :=
  (step_refused_iff hrunning hplain hword rfl).trans Effect.refusal?_undefined_iff

end

theorem row_foretells (hrunning : machine.status = .running)
    (hplain : machine.registers.pc ≠ DeviceCell.keyboardStatus.address) :
    (Row.ofWord machine.registers.pc (machine.memory.peek machine.registers.pc)).Foretells
      ((step machine).converse console state).1.1 := by
  generalize hword : machine.memory.peek machine.registers.pc = word
  have hillegal := @step_illegal_iff _ console _ state hrunning hplain word hword
  have hundefined := @step_undefined_iff _ console _ state hrunning hplain word hword
  generalize ((step machine).converse console state).1.1 = result at hillegal hundefined ⊢
  have illegal_iff :
      (∃ fault opcode reported, result = .error fault ∧ fault.cause = .illegal opcode reported) ↔
        (Row.ofWord machine.registers.pc word).isIllegal = true := by
    rw [Row.isIllegal_ofWord]
    constructor
    · rintro ⟨fault, opcode, reported, hfault⟩
      exact ((hillegal opcode reported).mp ⟨fault, hfault⟩).1
    · intro hopcode
      obtain ⟨fault, hfault⟩ := (hillegal _ _).mpr ⟨hopcode, rfl, rfl⟩
      exact ⟨fault, _, _, hfault⟩
  have undefined_iff :
      (∃ fault vector, result = .error fault ∧ fault.cause = .undefinedTrap vector) ↔
        (Row.ofWord machine.registers.pc word).mnemonic = "TRAP" := by
    rw [Row.mnemonic_eq_trap_iff]
    constructor
    · rintro ⟨fault, vector, hfault⟩
      exact ⟨vector, (hundefined vector).mp ⟨fault, hfault⟩⟩
    · rintro ⟨vector, htrap⟩
      obtain ⟨fault, hfault⟩ := (hundefined vector).mpr htrap
      exact ⟨fault, vector, hfault⟩
  refine ⟨illegal_iff, ?illegal, undefined_iff, ?undefined, ?other⟩
  case illegal =>
    intro fault opcode reported hresult hcause
    obtain ⟨_, hopcode, hreported⟩ := (hillegal opcode reported).mp ⟨fault, hresult, hcause⟩
    rw [Row.word_ofWord]
    exact ⟨hreported, hopcode⟩
  case undefined =>
    intro fault vector hresult hcause
    obtain ⟨htrap, hvector⟩ := (hundefined vector).mp ⟨fault, hresult, hcause⟩
    exact Row.operands_of_undefined htrap hvector
  case other =>
    intro fault hresult hnotIllegal hnotUndefined
    refine ⟨Fault.Cause.console_of_ne hnotIllegal hnotUndefined,
      Bool.eq_false_iff.mpr fun hrow => ?_, fun hrow => ?_⟩
    · obtain ⟨other, opcode, reported, hother, hcause⟩ := illegal_iff.mpr hrow
      cases hresult.symm.trans hother
      exact hnotIllegal opcode reported hcause
    · obtain ⟨other, vector, hother, hcause⟩ := undefined_iff.mpr hrow
      cases hresult.symm.trans hother
      exact hnotUndefined vector hcause

theorem listed_of_peek (hpc : final.registers.pc = fault.pc)
    (hword : ∀ opcode word, fault.cause = .illegal opcode word →
      final.memory.peek fault.pc = word ∧ (Opcode.ofWord word).isIllegal = true) :
    fault.Listed final := by
  intro before after
  refine ⟨_, Memory.getElem?_window_center final.memory _ before after, ?_, ?_⟩
  · rw [Row.address_ofWord, hpc]
  · intro opcode word hcause
    obtain ⟨rfl, hopcode⟩ := hword opcode word hcause
    rw [Row.isIllegal_ofWord, Row.word_ofWord, hpc]
    exact ⟨hopcode, rfl⟩

theorem listed_of_step
    (hfault : (step machine).converse console state = ((.error fault, final), left))
    (hkind : fault.cause.kind = .program) : fault.Listed final := by
  obtain ⟨hrunning, hwithdrawn⟩ := withdrawn_of_step hfault
  have hpc : final.registers.pc = fault.pc := by rw [hwithdrawn.registers, hwithdrawn.pc]
  refine listed_of_peek hpc fun opcode word hcause => ?_
  by_cases hstatus : machine.registers.pc = DeviceCell.keyboardStatus.address
  · -- The word at fault is the status word, which the fetch has just latched.
    rw [hwithdrawn.pc, hstatus]
    rw [converse_step_status hrunning hstatus] at hfault
    rcases hanswer : console.answer .poll state with ⟨error | _ | key, after⟩ <;>
      rw [hanswer] at hfault <;> cases hfault <;> cases hcause
    exact ⟨Memory.peek_latchKey_status machine.memory key, by decide⟩
  · have hrefused := (step_refused_iff hrunning hstatus rfl hkind).mp
      ⟨fault, congrArg (·.1.1) hfault, rfl⟩
    rw [hcause] at hrefused
    obtain ⟨hillegal, _, rfl⟩ := Effect.refusal?_illegal_iff.mp hrefused
    rw [memory_of_fault_plain hstatus hfault, hwithdrawn.pc]
    exact ⟨rfl, hillegal⟩

theorem listed_of_run
    (hfault : (run machine).converse console state = ((.error fault, final), left))
    (hkind : fault.cause.kind = .program) : fault.Listed final := by
  obtain ⟨_, reached, between, _, _, hround⟩ := run_fault hfault
  rcases hanswer : console.answer .interrupt between with ⟨error | ⟨⟩, after⟩
  · rw [round, Dialogue.converse_ask, hanswer] at hround
    cases hround
    cases hkind
  · rw [converse_round hanswer] at hround
    exact listed_of_step hround hkind

/-- The row of the next instruction tells whether it is refused, and for what. After a fault of
the program, of a step or of a run, the listing around the program counter still shows what
was at fault. -/
theorem listing_foretells_faults (console : Console σ) (machine : Machine) (state : σ) :
    (machine.status = .running →
      machine.registers.pc ≠ DeviceCell.keyboardStatus.address →
        (Row.ofWord machine.registers.pc (machine.memory.peek machine.registers.pc)).Foretells
          ((step machine).converse console state).1.1) ∧
    (∀ fault final left,
      (step machine).converse console state = ((.error fault, final), left) →
        fault.cause.kind = .program → fault.Listed final) ∧
    ∀ fault final left,
      (run machine).converse console state = ((.error fault, final), left) →
        fault.cause.kind = .program → fault.Listed final :=
  ⟨row_foretells, fun _ _ _ => listed_of_step, fun _ _ _ => listed_of_run⟩

theorem undefined_trap_and_key_listed :
    ((Row.ofWord 0x3000 0xF026).mnemonic = "TRAP" ∧
      (Row.ofWord 0x3000 0xF026).operands = "x26" ∧
      ∃ final : Machine, Fault.Listed ⟨0x3000, .undefinedTrap 0x26⟩ final ∧
        (run (holding {} [0xF026])).converse Script.console { input := [] } =
          ((.error ⟨0x3000, .undefinedTrap 0x26⟩, final), { input := [] })) ∧
    ∃ final : Machine, Fault.Listed ⟨0xFE00, .illegal .rti 0x8000⟩ final ∧
      (step (ofConfig { entry := 0xFE00 })).converse Script.console { input := [0x61] } =
        ((.error ⟨0xFE00, .illegal .rti 0x8000⟩, final), { input := [] }) := by
  constructor
  · let machine := holding {} [0xF026]
    have hword : machine.memory.peek 0x3000 = 0xF026 := Memory.peek_write_self Memory.empty _ _
    have hplain : machine.registers.pc ≠ DeviceCell.keyboardStatus.address := by decide
    have hstep (script : Script) : (step machine).converse Script.console script =
        ((.error ⟨0x3000, .undefinedTrap 0x26⟩, machine), script) :=
      step_refused rfl hplain hword (by decide)
    have hrun : (run machine).converse Script.console { input := [] } =
        ((.error ⟨0x3000, .undefinedTrap 0x26⟩, machine), { input := [] }) := by
      rw [run_eq_runFor, show machine.config.budget = UInt64.size - 1 + 1 from rfl,
        runFor_succ rfl, converse_round rfl, hstep]
    obtain ⟨hforetold, _, hlisted⟩ :=
      listing_foretells_faults Script.console machine { input := [] }
    have hrow := hforetold rfl hplain
    rw [hstep, show machine.registers.pc = 0x3000 from rfl, hword] at hrow
    exact ⟨hrow.undefined_iff.mp ⟨_, _, rfl, rfl⟩, hrow.undefined _ _ rfl rfl, machine,
      hlisted _ _ _ hrun rfl, hrun⟩
  · have hrunning : (ofConfig { entry := 0xFE00 }).status = .running := rfl
    have hfault := converse_step_status hrunning rfl Script.console { input := [0x61] }
    obtain ⟨_, hlisted, _⟩ :=
      listing_foretells_faults Script.console (ofConfig { entry := 0xFE00 }) { input := [0x61] }
    exact ⟨_, hlisted _ _ _ hfault rfl, hfault⟩

end Machine

end LittleComputer

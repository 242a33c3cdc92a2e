import LittleComputer.Console.Scripted
import LittleComputer.Proofs.Architecture
import LittleComputer.Proofs.Residue
import LittleComputer.Proofs.Step

namespace LittleComputer

/-! Instructions on words refine instructions on integers -/

namespace Machine

def architectural (machine : Machine) : Architecture.State where
  memory address := (machine.memory.peek (UInt16.ofInt address)).toNat
  general register := (machine.registers.read register).toNat
  pc := machine.registers.pc.toNat
  condition := machine.registers.condition

theorem memory_architectural (machine : Machine) (address : Word) :
    machine.architectural.memory address.toNat = (machine.memory.peek address).toNat := by
  simp only [architectural, Word.ofInt_toNat]

theorem architectural_inj {left right : Machine}
    (hview : left.architectural = right.architectural) (hframe : left.frame = right.frame) :
    left = right := by
  obtain ⟨hstatus, hconfig, hretired⟩ := frame_eq_iff.mp hframe
  have hmemory : left.memory = right.memory := Memory.ext_peek fun address => by
    have hcell := congrFun (congrArg Architecture.State.memory hview) address.toNat
    rw [memory_architectural, memory_architectural] at hcell
    exact Word.toNat_int_inj.mp hcell
  have hregisters : left.registers = right.registers := by
    refine RegisterFile.ext_read (fun register => ?_) ?_ ?_
    · have hread := congrFun (congrArg Architecture.State.general hview) register
      exact Word.toNat_int_inj.mp hread
    · have hpc := congrArg Architecture.State.pc hview
      exact Word.toNat_int_inj.mp hpc
    · exact congrArg Architecture.State.condition hview
  cases left
  cases right
  simp_all

theorem architectural_writeMemory (machine : Machine) (address value : Word) :
    (machine.writeMemory address value).architectural =
      machine.architectural.store address.toNat value.toNat := by
  simp only [architectural, writeMemory, Architecture.State.store, Architecture.residue,
    Memory.peek_write, Word.ofInt_eq_iff, Word.toNat_emod]
  congr 1
  funext other
  split <;> rfl

theorem architectural_clearReady (machine : Machine) :
    { machine with memory := machine.memory.clearReady }.architectural =
      machine.architectural.store 0xFE00 0 :=
  machine.architectural_writeMemory DeviceCell.keyboardStatus.address 0

theorem architectural_latchKey (machine : Machine) (key : Byte) :
    { machine with memory := machine.memory.latchKey key }.architectural =
      (machine.architectural.store 0xFE00 0x8000).store 0xFE02 key.toNat := by
  have hready :=
    machine.architectural_writeMemory DeviceCell.keyboardStatus.address Memory.keyReady
  have hlatched := (machine.writeMemory DeviceCell.keyboardStatus.address
    Memory.keyReady).architectural_writeMemory DeviceCell.keyboardData.address key.toUInt16
  rw [hready] at hlatched
  exact hlatched

theorem architectural_advance (machine : Machine) :
    (machine.mapRegisters RegisterFile.advance).architectural =
      machine.architectural.jump (Architecture.residue (machine.architectural.pc + 1)) :=
  congrArg machine.architectural.jump (Word.toNat_add machine.registers.pc 1)

theorem architectural_write (machine : Machine) (register : Register) (value : Word) :
    (machine.mapRegisters (·.write register value)).architectural =
      machine.architectural.assign register value.toNat := by
  simp only [architectural, mapRegisters, Architecture.State.assign, RegisterFile.read_write]
  congr 1
  funext other
  split <;> rfl

theorem architectural_writeResult (machine : Machine) (register : Register) (value : Word) :
    (machine.mapRegisters (·.writeResult register value)).architectural =
      machine.architectural.produce register value.toNat := by
  have hassigned := machine.architectural_write register value
  rw [Architecture.State.produce, ← hassigned, Architecture.sign, ← Condition.ofWord_eq]
  rfl

end Machine

/-! Fields and operands -/

namespace Architecture

variable (machine : Machine) (word : Word)

theorem register_eq (start : Nat) :
    register word.toNat start = Register.ofField word start := by
  apply congrArg Register.ofIndex
  apply Fin.ext
  exact (word.field_eq start 3).symm

theorem bit_eq (index : Nat) : bit word.toNat index = word.bit index :=
  (word.bit_eq index).symm

theorem takes_eq :
    takes word.toNat machine.architectural.condition =
      machine.registers.condition.selectedBy (UInt16.ofNat (word.field 9 3)) := by
  rw [Condition.selectedBy_field]
  simp only [Machine.architectural]
  cases machine.registers.condition <;> rfl

theorem residue_toNat : residue word.toNat = word.toNat := word.toNat_emod

theorem relative_eq (width : Nat) :
    residue (machine.architectural.pc + signed width word.toNat) =
      (machine.registers.pcRelative (Word.signExtend width word)).toNat :=
  (Word.toNat_add_signExtend machine.registers.pc word width).symm

theorem based_eq (base : Register) (width : Nat) :
    residue (machine.architectural.general base + signed width word.toNat) =
      (machine.registers.baseOffset base (Word.signExtend width word)).toNat :=
  (Word.toNat_add_signExtend (machine.registers.read base) word width).symm

theorem operand_eq :
    residue (operand word.toNat machine.architectural) =
      (machine.registers.operand word.operand).toNat := by
  rw [operand, bit_eq, Word.operand]
  split
  · exact (Word.toNat_signExtend 5 word).symm
  · rw [register_eq]
    exact residue_toNat _

theorem complement_eq (source : Register) :
    65535 - machine.architectural.general source =
      (~~~ machine.registers.read source).toNat :=
  (Word.toNat_complement (machine.registers.read source)).symm

theorem sum_eq (source : Register) :
    residue
        (machine.architectural.general source + operand word.toNat machine.architectural) =
      (machine.registers.read source + machine.registers.operand word.operand).toNat := by
  rw [Word.toNat_add, ← operand_eq, residue, residue, Int.add_emod_emod]
  rfl

theorem conjunction_eq (source : Register) :
    conjunction (machine.architectural.general source)
        (operand word.toNat machine.architectural) =
      (machine.registers.read source &&& machine.registers.operand word.operand).toNat := by
  have hsource := residue_toNat (machine.registers.read source)
  rw [conjunction, operand_eq, UInt16.toNat_and]
  show (((residue (machine.registers.read source).toNat).toNat &&& _ : Nat) : Int) = _
  rw [hsource, Int.toNat_natCast, Int.toNat_natCast]

end Architecture

section

variable {σ : Type} (console : Console σ)

namespace Effect

theorem load_refines {address : Word} {machine : Machine} {state : σ}
    (hquiet : (load address machine).Quiet console state) :
    ∃ value loaded between,
      Architecture.read console address.toNat machine.architectural state =
          some (value.toNat, loaded.architectural, between) ∧
        (load address machine).converse console state = ((.ok value, loaded), between) ∧
        loaded.registers = machine.registers := by
  have haddress : Architecture.residue address.toNat = 0xFE00 ↔
      address = DeviceCell.keyboardStatus.address := by
    rw [← Word.toNat_int_inj, Architecture.residue, Word.toNat_emod]
    rfl
  by_cases hstatus : address = DeviceCell.keyboardStatus.address
  · rw [Architecture.read, if_pos (haddress.mpr hstatus)]
    subst hstatus
    rw [load_status] at hquiet ⊢
    obtain ⟨⟨reply, hreply⟩, _⟩ := (Dialogue.quiet_ask ..).mp hquiet
    rcases hanswer : console.answer .poll state with ⟨error | _ | key, between⟩
    · rw [hanswer] at hreply
      cases hreply
    · refine ⟨0, { machine with memory := machine.memory.clearReady }, between, ?_, ?_, rfl⟩
      · rw [machine.architectural_clearReady]
        rfl
      · rw [Dialogue.converse_ask, hanswer]
        rfl
    · refine ⟨Memory.keyReady, { machine with memory := machine.memory.latchKey key },
        between, ?_, ?_, rfl⟩
      · rw [machine.architectural_latchKey]
        rfl
      · rw [Dialogue.converse_ask, hanswer]
        rfl
  · rw [Architecture.read, if_neg (mt haddress.mp hstatus), load_plain hstatus]
    exact ⟨_, _, _, by rw [Machine.memory_architectural], rfl, rfl⟩

def Follows (dialogue : Dialogue (Except Fault.Cause StepResult × Machine)) (state : σ)
    (outcome : Option (Architecture.State × σ)) : Prop :=
  dialogue.Quiet console state → ∃ next after,
    outcome = some (next.architectural, after) ∧
      dialogue.converse console state = ((.ok .completed, next), after)

variable {console}

theorem follows_done {machine : Machine} {state : σ} {view : Architecture.State}
    (hview : view = machine.architectural) :
    Follows console (.done (.ok .completed, machine)) state (some (view, state)) :=
  fun _ => ⟨machine, state, by rw [hview], rfl⟩

theorem follows_load {address : Word} {after : Word → Effect StepResult} {machine : Machine}
    {state : σ} {outcome : Option (Architecture.State × σ)}
    (hafter : ∀ value loaded between,
      Architecture.read console address.toNat machine.architectural state =
          some (value.toNat, loaded.architectural, between) →
        (load address machine).converse console state = ((.ok value, loaded), between) →
        loaded.registers = machine.registers →
        Follows console (after value loaded) between outcome) :
    Follows console ((load address >>= after) machine) state outcome := by
  intro hquiet
  rw [Action.bind_apply, Dialogue.quiet_bind] at hquiet
  obtain ⟨hfirst, hrest⟩ := hquiet
  obtain ⟨value, loaded, between, hread, hload, hregisters⟩ := load_refines console hfirst
  rw [hload] at hrest
  obtain ⟨next, last, houtcome, hconverse⟩ :=
    hafter value loaded between hread hload hregisters hrest
  refine ⟨next, last, houtcome, ?_⟩
  rw [Action.bind_apply, Dialogue.converse_bind, hload]
  exact hconverse

theorem registers_bind {α : Type} (after : RegisterFile → Effect α) (machine : Machine) :
    (registers >>= after) machine = after machine.registers machine := rfl

theorem execute_follows (word : Word) (machine : Machine) (state : σ)
    (htrap : Opcode.ofWord word ≠ .trap) (hrti : Opcode.ofWord word ≠ .rti)
    (hres : Opcode.ofWord word ≠ .res) :
    Follows console (execute (Instruction.decode word) word machine) state
      (Architecture.execute console word.toNat machine.architectural state) := by
  simp only [Architecture.execute, Instruction.decode, ← Opcode.number_ofWord,
    Architecture.register_eq, Architecture.bit_eq, Architecture.takes_eq,
    Architecture.relative_eq, Architecture.based_eq, Architecture.sum_eq,
    Architecture.conjunction_eq, Architecture.complement_eq, Word.offset6, Word.offset9,
    Word.offset11]
  cases hopcode : Opcode.ofWord word with
  | trap => exact absurd hopcode htrap
  | rti => exact absurd hopcode hrti
  | res => exact absurd hopcode hres
  | br =>
      apply follows_done
      simp only [Machine.mapRegisters]
      split <;> rfl
  | add | and | not | lea =>
      apply follows_done
      exact (machine.architectural_writeResult _ _).symm
  | jmp => exact follows_done rfl
  | jsr =>
      have hlinked : machine.architectural.assign .r7 machine.architectural.pc =
          (machine.mapRegisters (·.write .link machine.registers.pc)).architectural :=
        (machine.architectural_write .link machine.registers.pc).symm
      rw [hlinked]
      cases word.bit 11 with
      | true => exact follows_done rfl
      | false => exact follows_done rfl
  | ld | ldr =>
      rw [execute, registers_bind]
      change Follows console _ state (_ >>= _)
      refine follows_load fun value loaded between hread _ _ => ?_
      rw [hread]
      exact follows_done (loaded.architectural_writeResult _ _).symm
  | ldi =>
      rw [execute, registers_bind]
      change Follows console _ state (_ >>= _)
      refine follows_load fun pointer first middle hpointer _ _ => ?_
      refine follows_load fun value loaded between hvalue _ _ => ?_
      rw [hpointer]
      simp only [Option.bind_eq_bind, Option.bind_some, hvalue]
      exact follows_done (loaded.architectural_writeResult _ _).symm
  | st | str =>
      apply follows_done
      exact (machine.architectural_writeMemory _ _).symm
  | sti =>
      rw [execute, registers_bind]
      change Follows console _ state (_ >>= _)
      refine follows_load fun pointer loaded between hpointer _ hregisters => ?_
      rw [hpointer]
      apply follows_done
      rw [← hregisters]
      exact (loaded.architectural_writeMemory _ _).symm

theorem cycle_follows {word : Word} {machine : Machine} {state : σ}
    (hfetch : ((Memory.read machine.registers.pc machine.memory).converse console state).1.1 =
      .ok word)
    (htrap : Opcode.ofWord word ≠ .trap) (hrti : Opcode.ofWord word ≠ .rti)
    (hres : Opcode.ofWord word ≠ .res) :
    Follows console (cycle machine) state
      (Architecture.step console machine.architectural state) := by
  rw [cycle_eq]
  refine follows_load fun value loaded between hread hload _ => ?_
  obtain rfl : value = word := by
    have hvalue := load_ok_iff.mpr hfetch
    rw [hload] at hvalue
    exact Except.ok.inj hvalue
  intro hquiet
  obtain ⟨next, after, houtcome, hconverse⟩ :=
    execute_follows value (loaded.mapRegisters RegisterFile.advance) between htrap hrti hres
      ((Dialogue.quiet_note ..).mp hquiet)
  refine ⟨next, after, ?_, hconverse⟩
  change Architecture.read console machine.registers.pc.toNat machine.architectural state >>=
    _ = _
  rw [hread, ← houtcome, loaded.architectural_advance]
  rfl

end Effect

end

namespace Machine

/-- Where the console does not fail, a step whose instruction is neither a trap nor illegal
completes, and it leads to the one machine that the instruction set allows. -/
theorem step_refines_architecture {σ : Type} (console : Console σ) (machine : Machine)
    (state : σ) (word : Word)
    (hrunning : machine.status = .running)
    (hfetch : ((Memory.read machine.registers.pc machine.memory).converse console state).1.1 =
      .ok word)
    (htrap : Opcode.ofWord word ≠ .trap) (hrti : Opcode.ofWord word ≠ .rti)
    (hres : Opcode.ofWord word ≠ .res) (hquiet : (step machine).Quiet console state) :
    (∃ next after,
      (step machine).converse console state = ((.ok .completed, next), after)) ∧
    ∀ next after,
      (step machine).converse console state = ((.ok .completed, next), after) ↔
        Architecture.step console machine.architectural state =
            some (next.architectural, after) ∧
          next.status = .running ∧ next.config = machine.config ∧
          next.retired = machine.retired + 1 := by
  rw [step_running hrunning] at hquiet ⊢
  obtain ⟨hcycle, _⟩ := (Dialogue.quiet_bind ..).mp hquiet
  obtain ⟨next, after, hrefined, hconverse⟩ :=
    Effect.cycle_follows hfetch htrap hrti hres hcycle
  have hframe := (cycle_preserves_frame machine).converse console state
  rw [hconverse] at hframe
  obtain ⟨hconfig, hretired, hstatus⟩ := retire_retired .completed hrunning hframe
  have hstep : ((Effect.cycle machine).bind fun outcome =>
      .done (settle machine.registers outcome)).converse console state =
        ((.ok .completed, next.retire .completed), after) := by
    rw [Dialogue.converse_bind, hconverse]
    rfl
  refine ⟨⟨_, _, hstep⟩, fun other left => ?_⟩
  rw [hstep, hrefined]
  constructor
  · intro heq
    cases heq
    exact ⟨rfl, hstatus.mpr rfl, hconfig, hretired⟩
  · intro ⟨hview, hotherStatus, hotherConfig, hotherRetired⟩
    obtain ⟨hsame, hleft⟩ := Prod.mk.inj (Option.some.inj hview)
    have hother : next.retire .completed = other :=
      architectural_inj hsame (frame_eq_iff.mpr ⟨(hstatus.mpr rfl).trans hotherStatus.symm,
        hconfig.trans hotherConfig.symm, hretired.trans hotherRetired.symm⟩)
    rw [hother, hleft]

theorem step_jsrr_link :
    ∃ next after,
      (step (holding {} [0x41C0])).converse Script.console { input := [] } =
          ((.ok .completed, next), after) ∧
        next.architectural.pc = 0x3001 ∧ next.architectural.general .r7 = 0x3001 := by
  let machine := holding {} [0x41C0]
  have hrunning : machine.status = .running := rfl
  have hplain : machine.registers.pc ≠ DeviceCell.keyboardStatus.address := by decide
  have hword : machine.memory.peek machine.registers.pc = 0x41C0 := by
    simp [machine, holding, ofConfig, Memory.writeWords]
  have hopcode : Opcode.ofWord 0x41C0 = .jsr := by decide
  have hfetch : ((Memory.read machine.registers.pc machine.memory).converse Script.console
      { input := [] }).1.1 = .ok 0x41C0 := by
    rw [Memory.read_plain hplain, hword]
    rfl
  have hdecode : Instruction.decode 0x41C0 = .jsrr .r7 := by decide
  have hstep := step_retire hrunning hplain hword (by rw [hdecode]; rfl)
  have hquiet : (step machine).Quiet Script.console { input := [] } := by
    rw [hstep]
    simp
  obtain ⟨⟨next, after, hconverse⟩, hexact⟩ :=
    step_refines_architecture Script.console machine { input := [] } 0x41C0 hrunning hfetch
      (by rw [hopcode]; decide) (by rw [hopcode]; decide) (by rw [hopcode]; decide) hquiet
  refine ⟨next, after, hconverse, ?_⟩
  have hread : Architecture.read Script.console machine.architectural.pc machine.architectural
      { input := [] } = some (0x41C0, machine.architectural, { input := [] }) := by
    have hcell := memory_architectural machine machine.registers.pc
    rw [hword] at hcell
    rw [Architecture.read, if_neg (by decide)]
    exact congrArg (fun cell => some (cell, _, _)) hcell
  obtain ⟨hrefined, _⟩ := (hexact next after).mp hconverse
  rw [Architecture.step, hread] at hrefined
  have hview : _ = next.architectural := congrArg Prod.fst (Option.some.inj hrefined)
  rw [← hview]
  exact ⟨rfl, rfl⟩

end Machine

end LittleComputer

import LittleComputer.Console.Scripted
import LittleComputer.Proofs.Attempts
import LittleComputer.Proofs.ChangedCells

namespace LittleComputer

/-! Memory that is not read -/

namespace Effect

variable {σ : Type}

theorem writeEach_append (first second : List Byte) :
    writeEach (first ++ second) = writeEach first >>= fun _ => writeEach second := by
  induction first with
  | nil => rfl
  | cons byte first ih =>
      rw [List.cons_append, writeEach, ih, writeEach, Action.bind_assoc]

theorem converse_ask (console : Console σ) (request : Request) (machine : Machine) (state : σ) :
    (ask request machine).converse console state =
      (((console.answer request state).1.mapError .console, machine),
        (console.answer request state).2) := rfl

theorem converse_writeEach (console : Console σ) (bytes : List Byte) (state : σ) :
    ∃ result after, ∀ machine,
      (writeEach bytes machine).converse console state = ((result, machine), after) := by
  induction bytes generalizing state with
  | nil => exact ⟨.ok (), state, fun _ => rfl⟩
  | cons byte bytes ih =>
      rcases hanswer : console.answer (.write [byte]) state with ⟨error | ⟨⟩, between⟩
      · refine ⟨.error (.console error), between, fun machine => ?_⟩
        rw [writeEach, Action.bind_apply, Dialogue.converse_bind, converse_ask, hanswer]
        rfl
      · obtain ⟨result, after, hrest⟩ := ih between
        refine ⟨result, after, fun machine => ?_⟩
        rw [writeEach, Action.bind_apply, Dialogue.converse_bind, converse_ask, hanswer]
        exact hrest machine

end Effect

namespace Machine

variable {σ : Type}

structure Executes (machine : Machine) (instruction : Instruction) : Prop where
  running : machine.status = .running
  plain : machine.registers.pc ≠ DeviceCell.keyboardStatus.address
  decodes : Instruction.decode (machine.memory.peek machine.registers.pc) = instruction

/-- The cells that a string service looks at from `address` on, at most `count`: up to the
first zero, unless the console fails before. -/
inductive Scans (console : Console σ) (machine : Machine) (characters : Word → List Byte) :
    (count : Nat) → (address : Word) → σ → Word → Prop
  | here {count : Nat} {address : Word} {state : σ} :
      Scans console machine characters (count + 1) address state address
  | later {count : Nat} {address cell : Word} {state between : σ}
      (hcharacter : machine.memory.peek address ≠ 0)
      (hwritten : (Effect.writeEach (characters (machine.memory.peek address)) machine).converse
        console state = ((.ok (), machine), between))
      (hscans : Scans console machine characters count (address + 1) between cell) :
      Scans console machine characters (count + 1) address state cell

/-- The cells that the next step reads. What is fetched from the keyboard status reads no other
cell. -/
inductive Reads (console : Console σ) (machine : Machine) (state : σ) : (address : Word) → Prop
  | fetched (hrunning : machine.status = .running) :
      Reads console machine state machine.registers.pc
  | loaded {destination : Register} {offset : Word}
      (hexecutes : machine.Executes (.ld destination offset)) :
      Reads console machine state (machine.registers.advance.pcRelative offset)
  | based {destination base : Register} {offset : Word}
      (hexecutes : machine.Executes (.ldr destination base offset)) :
      Reads console machine state (machine.registers.advance.baseOffset base offset)
  | loadPointer {destination : Register} {offset : Word}
      (hexecutes : machine.Executes (.ldi destination offset)) :
      Reads console machine state (machine.registers.advance.pcRelative offset)
  | indirect {destination : Register} {offset pointer : Word}
      (hexecutes : machine.Executes (.ldi destination offset))
      (hpointer : ((Memory.read (machine.registers.advance.pcRelative offset)
        machine.memory).converse console state).1.1 = .ok pointer) :
      Reads console machine state pointer
  | storePointer {source : Register} {offset : Word}
      (hexecutes : machine.Executes (.sti source offset)) :
      Reads console machine state (machine.registers.advance.pcRelative offset)
  | string {address : Word} (hrequests : machine.Requests .puts)
      (hscans : Scans console machine.serving (fun word => [word.lowByte]) Memory.size
        (machine.registers.read .r0) state address) :
      Reads console machine state address
  | packedString {address : Word} (hrequests : machine.Requests .putsp)
      (hscans : Scans console machine.serving Memory.packedCharacters Memory.size
        (machine.registers.read .r0) state address) :
      Reads console machine state address

structure SameBut (hidden : Word → Prop) (left right : Machine) : Prop where
  registers : right.registers = left.registers
  frame : right.frame = left.frame
  memory : ∀ address, ¬ hidden address → right.memory.peek address = left.memory.peek address

/-- How two conversations compare that cannot tell hidden cells. -/
structure Tallies {ε α : Type} (hidden : Word → Prop)
    (first second : (Except ε α × Machine) × σ) : Prop where
  result : second.1.1 = first.1.1
  machine : first.1.2.SameBut hidden second.1.2
  state : second.2 = first.2

variable {hidden : Word → Prop} {left right : Machine}

theorem SameBut.status (hsame : left.SameBut hidden right) : right.status = left.status :=
  (frame_eq_iff.mp hsame.frame).1

theorem SameBut.config (hsame : left.SameBut hidden right) : right.config = left.config :=
  (frame_eq_iff.mp hsame.frame).2.1

theorem SameBut.mapRegisters (hsame : left.SameBut hidden right)
    (change : RegisterFile → RegisterFile) :
    (left.mapRegisters change).SameBut hidden (right.mapRegisters change) :=
  ⟨congrArg change hsame.registers, hsame.frame, hsame.memory⟩

theorem SameBut.writeMemory (hsame : left.SameBut hidden right) (address value : Word) :
    (left.writeMemory address value).SameBut hidden (right.writeMemory address value) where
  registers := hsame.registers
  frame := hsame.frame
  memory other hother := by
    rw [Machine.writeMemory, Machine.writeMemory, Memory.peek_write, Memory.peek_write,
      hsame.memory other hother]

end Machine

namespace Effect

open Machine (SameBut Tallies Scans Reads Executes)

variable {σ : Type} {α β : Type} {hidden : Word → Prop} {console : Console σ}
  {left right : Machine} {state : σ}

def Blind (hidden : Word → Prop) (console : Console σ) (effect : Effect α) : Prop :=
  ∀ left right state, SameBut hidden left right →
    Tallies hidden ((effect left).converse console state) ((effect right).converse console state)

theorem tallies_bind {first second : Effect α} {after : α → Effect β}
    (hfirst : Tallies hidden ((first left).converse console state)
      ((second right).converse console state))
    (hafter : ∀ value, ((first left).converse console state).1.1 = .ok value →
      Blind hidden console (after value)) :
    Tallies hidden (((first >>= after) left).converse console state)
      (((second >>= after) right).converse console state) := by
  obtain ⟨hresult, hmachine, hstate⟩ := hfirst
  rw [Action.bind_apply, Action.bind_apply, Dialogue.converse_bind, Dialogue.converse_bind]
  rcases hleft : (first left).converse console state with ⟨⟨result, leftAfter⟩, between⟩
  rcases hright : (second right).converse console state with ⟨⟨other, rightAfter⟩, beside⟩
  rw [hleft, hright] at hresult hmachine hstate
  rw [hleft] at hafter
  obtain rfl : result = other := hresult.symm
  obtain rfl : between = beside := hstate.symm
  cases result with
  | error cause => exact ⟨rfl, hmachine, rfl⟩
  | ok value => exact hafter value rfl leftAfter rightAfter between hmachine

theorem Blind.bind {effect : Effect α} {after : α → Effect β}
    (heffect : Blind hidden console effect) (hafter : ∀ value, Blind hidden console (after value)) :
    Blind hidden console (effect >>= after) :=
  fun left right state hsame =>
    tallies_bind (heffect left right state hsame) fun value _ => hafter value

theorem ask_blind (request : Request) : Blind hidden console (ask request) := by
  intro left right state hsame
  exact ⟨rfl, hsame, rfl⟩

theorem outputParts_blind : OutputParts fun effect => Blind hidden console effect where
  pure _ _ _ _ hsame := ⟨rfl, hsame, rfl⟩
  bind := .bind
  registers _ _ _ hsame := ⟨congrArg Except.ok hsame.registers, hsame, rfl⟩
  changeRegisters change _ _ _ hsame := ⟨rfl, hsame.mapRegisters change, rfl⟩
  write _ := ask_blind _
  flush := ask_blind _

theorem fail_blind (cause : Fault.Cause) :
    Blind hidden console (Action.fail cause : Effect α) :=
  fun _ _ _ hsame => ⟨rfl, hsame, rfl⟩

theorem banner_blind :
    Blind hidden console (Action.inspect fun machine : Machine => machine.config.banner) :=
  fun _ _ _ hsame =>
    ⟨congrArg (fun config : Config => Except.ok config.banner) hsame.config, hsame, rfl⟩

theorem store_blind (address value : Word) : Blind hidden console (store address value) :=
  fun _ _ _ hsame => ⟨rfl, hsame.writeMemory address value, rfl⟩

theorem load_blind {address : Word} (hseen : ¬ hidden address) :
    Blind hidden console (load address) := by
  intro left right state hsame
  by_cases hplain : address = DeviceCell.keyboardStatus.address
  · rw [hplain, load_status, load_status, Dialogue.converse_ask, Dialogue.converse_ask]
    rcases console.answer .poll state with ⟨error | _ | key, between⟩
    · exact ⟨rfl, hsame, rfl⟩
    · exact ⟨rfl, hsame.writeMemory _ 0, rfl⟩
    · exact ⟨rfl, (hsame.writeMemory _ _).writeMemory _ _, rfl⟩
  · rw [load_plain hplain, load_plain hplain]
    exact ⟨congrArg Except.ok (hsame.memory address hseen), hsame, rfl⟩

section

variable (destination source base : Register) (offset word : Word) (machine : Machine)

theorem execute_ld :
    execute (.ld destination offset) word machine =
      (load (machine.registers.pcRelative offset) >>= fun value =>
        retire fun file => file.commit .ld destination value) machine := rfl

theorem execute_ldr :
    execute (.ldr destination base offset) word machine =
      (load (machine.registers.baseOffset base offset) >>= fun value =>
        retire fun file => file.commit .ldr destination value) machine := rfl

theorem execute_ldi :
    execute (.ldi destination offset) word machine =
      (load (machine.registers.pcRelative offset) >>= fun pointer =>
        load pointer >>= fun value =>
          retire fun file => file.commit .ldi destination value) machine := rfl

theorem execute_st :
    execute (.st source offset) word machine =
      (store (machine.registers.pcRelative offset) (machine.registers.read source) >>= fun _ =>
        pure .completed) machine := rfl

theorem execute_str :
    execute (.str source base offset) word machine =
      (store (machine.registers.baseOffset base offset) (machine.registers.read source) >>=
        fun _ => pure .completed) machine := rfl

theorem service_puts :
    service .puts machine =
      (writeEach (machine.memory.string (machine.registers.read .r0)) >>= fun _ =>
        ask .flush >>= fun _ => pure .completed) machine := rfl

theorem service_putsp :
    service .putsp machine =
      (writeEach (machine.memory.packedString (machine.registers.read .r0)) >>= fun _ =>
        ask .flush >>= fun _ => pure .completed) machine := rfl

end

theorem writeEach_tallies (hsame : SameBut hidden left right) (characters : Word → List Byte)
    {count : Nat} {address : Word}
    (hseen : ∀ cell, Scans console left characters count address state cell → ¬ hidden cell) :
    Tallies hidden
      ((writeEach ((left.memory.wordsUntilZero address count).flatMap characters) left).converse
        console state)
      ((writeEach ((right.memory.wordsUntilZero address count).flatMap characters) right).converse
        console state) := by
  induction count generalizing address state with
  | zero => exact ⟨rfl, hsame, rfl⟩
  | succ count ih =>
      rw [Memory.wordsUntilZero, Memory.wordsUntilZero, hsame.memory address (hseen address .here)]
      split
      next hzero => exact ⟨rfl, hsame, rfl⟩
      next hcharacter =>
        obtain ⟨result, between, hwrites⟩ :=
          converse_writeEach console (characters (left.memory.peek address)) state
        rw [List.flatMap_cons, List.flatMap_cons, writeEach_append, writeEach_append,
          Action.bind_apply, Action.bind_apply, Dialogue.converse_bind, Dialogue.converse_bind,
          hwrites left, hwrites right]
        cases result with
        | error cause => exact ⟨rfl, hsame, rfl⟩
        | ok =>
            exact ih fun cell hscans => hseen cell (.later hcharacter (hwrites left) hscans)

theorem service_tallies (hsame : SameBut hidden left right) {requested : TrapService}
    (hrequests : left.Requests requested)
    (hseen : ∀ address, Reads console left state address → ¬ hidden address) :
    Tallies hidden ((service requested left.serving).converse console state)
      ((service requested right.serving).converse console state) := by
  have hserving : SameBut hidden left.serving right.serving := hsame.mapRegisters _
  have hstring : right.serving.registers.read .r0 = left.serving.registers.read .r0 := by
    rw [hserving.registers]
  have hargument : left.serving.registers.read .r0 = left.registers.read .r0 :=
    (RegisterFile.read_write ..).trans (if_neg (by decide))
  have parts := @outputParts_blind σ hidden console
  have hflush := parts.bind parts.flush fun _ => parts.pure StepResult.completed
  cases requested with
  | puts =>
      rw [service_puts, service_puts]
      refine tallies_bind ?_ fun _ _ => hflush
      rw [hstring, hargument, Memory.string, Memory.string, List.map_eq_flatMap,
        List.map_eq_flatMap]
      exact writeEach_tallies hserving _ fun cell hscans => hseen cell (.string hrequests hscans)
  | putsp =>
      rw [service_putsp, service_putsp]
      refine tallies_bind ?_ fun _ _ => hflush
      rw [hstring, hargument]
      exact writeEach_tallies hserving _ fun cell hscans =>
        hseen cell (.packedString hrequests hscans)
  | getc | out | input | halt =>
      exact parts.service _ (fun _ => ask_blind _) (fun hputs => by cases hputs)
        (fun hputsp => by cases hputsp) (fun _ => banner_blind) _ _ state hserving

theorem execute_tallies (hsame : SameBut hidden left right) {instruction : Instruction}
    (hexecutes : left.Executes instruction)
    (hseen : ∀ address, Reads console left state address → ¬ hidden address) (word : Word) :
    Tallies hidden
      ((execute instruction word (left.mapRegisters RegisterFile.advance)).converse console state)
      ((execute instruction word (right.mapRegisters RegisterFile.advance)).converse
        console state) := by
  have hadvanced := hsame.mapRegisters RegisterFile.advance
  have parts := @outputParts_blind σ hidden console
  cases instruction with
  | br | add | and | not | lea | jmp | jsr | jsrr =>
      exact parts.retire _ _ _ state hadvanced
  | ld destination offset =>
      rw [execute_ld, execute_ld, hadvanced.registers]
      exact (load_blind (hseen _ (.loaded hexecutes))).bind (fun _ => parts.retire _) _ _ state
        hadvanced
  | ldr destination base offset =>
      rw [execute_ldr, execute_ldr, hadvanced.registers]
      exact (load_blind (hseen _ (.based hexecutes))).bind (fun _ => parts.retire _) _ _ state
        hadvanced
  | ldi destination offset =>
      rw [execute_ldi, execute_ldi, hadvanced.registers]
      refine tallies_bind (load_blind (hseen _ (.loadPointer hexecutes)) _ _ state hadvanced)
        fun pointer hpointer => ?_
      have hread := load_ok_iff.mp hpointer
      exact (load_blind (hseen _ (.indirect hexecutes hread))).bind fun _ => parts.retire _
  | st source offset =>
      rw [execute_st, execute_st, hadvanced.registers]
      exact (store_blind _ _).bind (fun _ => parts.pure _) _ _ state hadvanced
  | str source base offset =>
      rw [execute_str, execute_str, hadvanced.registers]
      exact (store_blind _ _).bind (fun _ => parts.pure _) _ _ state hadvanced
  | sti source offset =>
      rw [execute_sti, execute_sti, hadvanced.registers]
      exact tallies_bind (load_blind (hseen _ (.storePointer hexecutes)) _ _ state hadvanced)
        fun pointer _ => (store_blind pointer _).bind fun _ => parts.pure _
  | trap vector =>
      cases hvector : TrapService.ofVector? vector with
      | none =>
          rw [execute, trap, hvector]
          exact fail_blind _ _ _ state hadvanced
      | some requested =>
          obtain rfl := TrapService.ofVector?_eq_some_iff.mp hvector
          rw [execute, trap, hvector]
          exact service_tallies hsame ⟨hexecutes.running, hexecutes.plain, hexecutes.decodes⟩ hseen
  | rti | reserved => exact fail_blind _ _ _ state hadvanced

end Effect

namespace Machine

variable {σ : Type} {console : Console σ} {hidden : Word → Prop} {left right : Machine} {state : σ}

theorem SameBut.retire (hsame : left.SameBut hidden right) (result : StepResult) :
    (left.retire result).SameBut hidden (right.retire result) := by
  obtain ⟨hstatus, hconfig, hretired⟩ := frame_eq_iff.mp hsame.frame
  cases result with
  | completed =>
      exact ⟨hsame.registers, frame_eq_iff.mpr ⟨hstatus, hconfig, congrArg (· + 1) hretired⟩,
        hsame.memory⟩
  | halted =>
      exact ⟨hsame.registers, frame_eq_iff.mpr ⟨rfl, hconfig, congrArg (· + 1) hretired⟩,
        hsame.memory⟩

theorem Tallies.settle {first second : (Except Fault.Cause StepResult × Machine) × σ}
    (htallies : Tallies hidden first second) (before : RegisterFile) :
    Tallies hidden (settle before first.1, first.2) (settle before second.1, second.2) := by
  rcases first with ⟨⟨result, leftAfter⟩, between⟩
  rcases second with ⟨⟨other, rightAfter⟩, beside⟩
  obtain ⟨rfl, hmachine, rfl⟩ := htallies
  cases other with
  | error cause => exact ⟨rfl, ⟨rfl, hmachine.frame, hmachine.memory⟩, rfl⟩
  | ok result => exact ⟨rfl, hmachine.retire result, rfl⟩

theorem step_tallies (hsame : left.SameBut hidden right)
    (hseen : ∀ address, Reads console left state address → ¬ hidden address) :
    Tallies hidden ((step left).converse console state) ((step right).converse console state) := by
  cases hstatus : left.status with
  | halted =>
      rw [step_halted hstatus, step_halted (hsame.status.trans hstatus)]
      exact ⟨rfl, hsame, rfl⟩
  | running =>
      have hrunning : right.status = .running := hsame.status.trans hstatus
      have hregisters := hsame.registers
      by_cases hplain : left.registers.pc = DeviceCell.keyboardStatus.address
      · rw [converse_step_status hstatus hplain,
          converse_step_status hrunning (hregisters ▸ hplain), hregisters]
        rcases console.answer .poll state with ⟨error | _ | key, between⟩
        · exact ⟨rfl, hsame, rfl⟩
        · exact ⟨rfl, ⟨rfl, (hsame.retire .completed).frame,
            (hsame.writeMemory DeviceCell.keyboardStatus.address 0).memory⟩, rfl⟩
        · have hstatusCell := hsame.writeMemory DeviceCell.keyboardStatus.address Memory.keyReady
          exact ⟨rfl, ⟨rfl, hsame.frame,
            (hstatusCell.writeMemory DeviceCell.keyboardData.address key.toUInt16).memory⟩, rfl⟩
      · generalize hword : left.memory.peek left.registers.pc = word
        have hcell : right.memory.peek right.registers.pc = word := by
          rw [hregisters, hsame.memory _ (hseen _ (.fetched hstatus)), hword]
        have hexecutes : left.Executes (Instruction.decode word) :=
          ⟨hstatus, hplain, congrArg Instruction.decode hword⟩
        rw [step_plain hstatus hplain hword, step_plain hrunning (hregisters ▸ hplain) hcell,
          hregisters]
        simp only [Dialogue.converse_note, Dialogue.converse_bind, Dialogue.converse_done]
        exact (Effect.execute_tallies hsame hexecutes hseen word).settle left.registers

def StoresTo (console : Console σ) (machine : Machine) (state : σ) (address : Word) : Prop :=
  ∃ value, RetiresStore console machine state address value

theorem SameBut.retiresStore (hsame : left.SameBut hidden right)
    (hseen : ∀ address, Reads console left state address → ¬ hidden address) {address value : Word}
    (hretires : RetiresStore console left state address value) :
    RetiresStore console right state address value := by
  obtain ⟨hrunning, hplain, hcompleted, htargets⟩ := hretires
  have hregisters := hsame.registers
  have hcell : right.memory.peek right.registers.pc = left.memory.peek left.registers.pc := by
    rw [hregisters, hsame.memory _ (hseen _ (.fetched hrunning))]
  refine ⟨hsame.status.trans hrunning, hregisters ▸ hplain,
    (step_tallies hsame hseen).result.trans hcompleted, ?_⟩
  rw [hcell]
  generalize hword : left.memory.peek left.registers.pc = word at htargets
  cases htargets with
  | direct hopcode =>
      rw [← hregisters]
      exact .direct hopcode
  | based hopcode =>
      rw [← hregisters]
      exact .based hopcode
  | indirect hopcode hpointer =>
      have hexecutes : left.Executes (.sti (Register.ofField word 9) word.offset9) :=
        ⟨hrunning, hplain, by rw [hword, Instruction.decode, hopcode]⟩
      have hload : Effect.Blind hidden console (Effect.load _) :=
        Effect.load_blind (hseen _ (.storePointer hexecutes))
      have hread := Effect.load_ok_iff.mp
        ((hload left right state hsame).result.trans (Effect.load_ok_iff.mpr hpointer))
      rw [← hregisters] at hread ⊢
      exact .indirect hopcode hread

theorem step_unseen (hsame : left.SameBut hidden right)
    (hseen : ∀ address, Reads console left state address → ¬ hidden address) :
    Tallies (fun address => hidden address ∧ ¬ StoresTo console left state address)
      ((step left).converse console state) ((step right).converse console state) := by
  obtain ⟨hresult, hmachine, hstate⟩ := step_tallies hsame hseen
  refine ⟨hresult, ⟨hmachine.registers, hmachine.frame, fun address hshown => ?_⟩, hstate⟩
  by_cases hhidden : hidden address
  · have hstores : StoresTo console left state address :=
      Classical.byContradiction fun hkept => hshown ⟨hhidden, hkept⟩
    obtain ⟨value, hretires⟩ := hstores
    rw [hretires.stored, (hsame.retiresStore hseen hretires).stored]
  · exact hmachine.memory address hhidden

def StoresWithin (console : Console σ) (machine : Machine) (state : σ) (count : Nat)
    (address : Word) : Prop :=
  Within console (fun reached between => StoresTo console reached between address) machine state
    count

def SparesHidden (hidden : Word → Prop) (console : Console σ) (machine : Machine) (state : σ)
    (count : Nat) : Prop :=
  ∀ index < count, ∀ address,
    Reads console ((attempts index machine).converse console state).1
      ((attempts index machine).converse console state).2 address → ¬ hidden address

theorem SameBut.mono {less : Word → Prop} (hsame : left.SameBut hidden right)
    (hless : ∀ address, hidden address → less address) : left.SameBut less right :=
  ⟨hsame.registers, hsame.frame, fun address hshown =>
    hsame.memory address fun hhidden => hshown (hless address hhidden)⟩

theorem attempts_unseen (hsame : left.SameBut hidden right) {count : Nat}
    (hspares : SparesHidden hidden console left state count) :
    ((attempts count left).converse console state).1.SameBut
        (fun address => hidden address ∧ ¬ StoresWithin console left state count address)
        ((attempts count right).converse console state).1 ∧
      ((attempts count right).converse console state).2 =
        ((attempts count left).converse console state).2 := by
  induction count with
  | zero =>
      exact ⟨hsame.mono fun address hhidden => ⟨hhidden, not_within_zero⟩, rfl⟩
  | succ count ih =>
      obtain ⟨hreached, hstate⟩ := ih fun index hindex => hspares index (Nat.lt_succ_of_lt hindex)
      have hstep := step_unseen hreached fun address hreads hkept =>
        hspares count (Nat.lt_succ_self count) address hreads hkept.1
      rw [converse_attempts_succ, converse_attempts_succ]
      dsimp only
      rw [hstate]
      refine ⟨hstep.machine.mono ?_, hstep.state⟩
      rintro address ⟨⟨hhidden, hearlier⟩, hlast⟩
      exact ⟨hhidden, fun hstores => (within_succ.mp hstores).elim hearlier hlast⟩

/-- Memory that is not read makes no difference. As far as no step reads a hidden cell, two
machines that differ in hidden cells only go the same way with the same console, and whatever
is stored to such a cell is the same in both. -/
theorem unread_memory_unseen (hsame : left.SameBut hidden right) (count : Nat)
    (hspares : SparesHidden hidden console left state count) :
    (∀ index < count,
      ((step ((attempts index right).converse console state).1).converse console
          ((attempts index right).converse console state).2).1.1 =
        ((step ((attempts index left).converse console state).1).converse console
          ((attempts index left).converse console state).2).1.1) ∧
    ∀ index ≤ count,
      ((attempts index left).converse console state).1.SameBut
          (fun address => hidden address ∧ ¬ StoresWithin console left state index address)
          ((attempts index right).converse console state).1 ∧
        ((attempts index right).converse console state).2 =
          ((attempts index left).converse console state).2 := by
  have hreaches {index : Nat} (hindex : index ≤ count) := attempts_unseen hsame
    fun fewer hfewer => hspares fewer (Nat.lt_of_lt_of_le hfewer hindex)
  refine ⟨fun index hindex => ?_, fun index => hreaches⟩
  obtain ⟨hreached, hstate⟩ := hreaches (Nat.le_of_lt hindex)
  have hstep := step_tallies hreached fun address hreads hkept =>
    hspares index hindex address hreads hkept.1
  rw [hstate]
  exact hstep.result

theorem sameBut_writeMemory (machine : Machine) (address value : Word) :
    machine.SameBut (· = address) (machine.writeMemory address value) :=
  ⟨rfl, rfl, fun _ hother => Memory.peek_write_of_ne machine.memory value hother⟩

theorem overwritten_cell_unseen :
    ∃ left right : Machine,
      left.memory.peek 0x3002 ≠ right.memory.peek 0x3002 ∧
      ((attempts 1 right).converse Script.console { input := [] }).1.memory.peek 0x3002 =
        ((attempts 1 left).converse Script.console { input := [] }).1.memory.peek 0x3002 := by
  let left := holding {} [0x3201]
  let right := left.writeMemory 0x3002 7
  have hcell : left.memory.peek left.registers.pc = 0x3201 :=
    Memory.peek_write_self Memory.empty _ _
  have hdecode : Instruction.decode 0x3201 = .st .r1 1 := by decide
  have hsame : left.SameBut (· = 0x3002) right := left.sameBut_writeMemory 0x3002 7
  have hspares : SparesHidden (· = 0x3002) Script.console left { input := [] } 1 := by
    intro index hindex address hreads
    obtain rfl : index = 0 := Nat.lt_one_iff.mp hindex
    rw [attempts_zero, Dialogue.converse_done] at hreads
    have hexecutes {instruction : Instruction} (hexecutes : left.Executes instruction) :
        .st .r1 1 = instruction := by
      rw [← hdecode, ← hcell]
      exact hexecutes.decodes
    cases hreads with
    | fetched => exact of_decide_eq_true rfl
    | loaded h | based h | loadPointer h | indirect h | storePointer h => cases hexecutes h
    | string h | packedString h => cases hexecutes ⟨h.running, h.plain, h.decodes⟩
  have hstores : StoresTo Script.console left { input := [] } 0x3002 := by
    have htarget : left.registers.pc + 1 + Word.offset9 0x3201 = 0x3002 := by decide
    refine ⟨left.registers.read (Register.ofField 0x3201 9), rfl, by decide, ?_, ?_⟩
    · rw [step_plain rfl (by decide) hcell, hdecode]
      rfl
    · rw [hcell, ← htarget]
      exact .direct (by decide)
  have hempty : left.memory.peek 0x3002 = 0 :=
    (Memory.peek_write_of_ne Memory.empty _ (by decide)).trans (Memory.peek_empty _)
  have hwithin : StoresWithin Script.console left { input := [] } 1 0x3002 := by
    refine ⟨0, Nat.one_pos, ?_⟩
    rw [attempts_zero, Dialogue.converse_done]
    exact hstores
  obtain ⟨_, hmachines⟩ := unread_memory_unseen hsame 1 hspares
  obtain ⟨hreached, _⟩ := hmachines 1 (Nat.le_refl 1)
  refine ⟨left, right, ?_, hreached.memory 0x3002 fun hkept => hkept.2 hwithin⟩
  rw [hempty, show right.memory.peek 0x3002 = 7 from Memory.peek_write_self left.memory _ _]
  decide

end Machine

end LittleComputer

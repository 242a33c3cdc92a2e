import LittleComputer.Proofs.HaltBanner
import LittleComputer.Proofs.PackedStrings
import LittleComputer.Proofs.StreamedImages

namespace LittleComputer

/-! A program that prints a string -/

theorem Effect.converse_spellOut (bytes : List Byte) (machine : Machine) (script : Script) :
    (spellOut bytes machine).converse Script.console script =
      ((.ok .completed, machine), script.told bytes (script.flushes + 1)) := by
  induction bytes generalizing script with
  | nil =>
      have hnothing : script.told [] (script.flushes + 1) =
          { script with flushes := script.flushes + 1 } := by simp [Script.told]
      rw [hnothing]
      rfl
  | cons byte bytes ih =>
      have hbyte : (spellOut (byte :: bytes) machine).converse Script.console script =
          (spellOut bytes machine).converse Script.console
            (script.told [byte] script.flushes) := by
        rw [spellOut_cons, Action.bind_apply, Dialogue.converse_bind, converse_ask]
        rfl
      rw [hbyte, ih, Script.told_told]
      rfl

theorem Memory.converse_loadStream {deliveries : List Delivery} {origin : Word}
    {words : List Word}
    (hdelivered : Delivery.gather deliveries = .ok ((origin :: words).flatMap Word.bytes))
    (hfits : words.length ≤ 65536 - origin.toNat) {σ : Type} (console : Console σ) (state : σ)
    (memory : Memory) :
    (loadStream deliveries memory).converse console state =
      ((.ok ⟨origin, words.length, 0⟩, memory.writeWords origin words), state) := by
  obtain ⟨image, himage, rfl, rfl⟩ := Image.ofBytes?_bytes origin words
  rw [loadStream_ok hdelivered, converse_loadBytes console state memory himage, Image.placement,
    storeImage, Image.storedWords_of_fits hfits, Nat.sub_self]

namespace Machine

theorem read_serving (machine : Machine) {register : Register} (hregister : register ≠ .link) :
    machine.serving.registers.read register = machine.registers.read register :=
  (RegisterFile.read_write ..).trans (if_neg hregister)

theorem step_puts {machine : Machine} {words : List Word} (hrequests : machine.Requests .puts)
    (hstring : machine.memory.StringAt (machine.registers.read .r0) Memory.size words)
    (script : Script) :
    (step machine).converse Script.console script =
      ((.ok .completed, { machine.serving with retired := machine.retired + 1 }),
        script.told (words.map Word.lowByte) (script.flushes + 1)) := by
  have hservice : Effect.service .puts machine.serving =
      Effect.spellOut (words.map Word.lowByte) machine.serving := by
    have hmemory : machine.serving.memory = machine.memory := rfl
    rw [Effect.service_puts, Memory.string, machine.read_serving (by decide), hmemory,
      Memory.wordsUntilZero_eq_iff.mpr hstring]
    rfl
  rw [step_requested hrequests, hservice, Dialogue.converse_note, Dialogue.converse_bind,
    Effect.converse_spellOut]
  rfl

/-- A program that prints the words behind it and halts, with these words. -/
def printing (words : List Word) : List Word :=
  0xE002 :: 0xF022 :: 0xF025 :: (words ++ [0])

structure Prints (machine : Machine) (words : List Word) : Prop where
  running : machine.status = .running
  address : machine.memory.peek machine.registers.pc = 0xE002
  puts : machine.memory.peek (machine.registers.pc + 1) = 0xF022
  halt : machine.memory.peek (machine.registers.pc + 2) = 0xF025
  plain : DeviceCell.keyboardStatus.address ∉
    [machine.registers.pc, machine.registers.pc + 1, machine.registers.pc + 2]
  string : machine.memory.StringAt (machine.registers.pc + 3) Memory.size words

def addressing (machine : Machine) : Machine :=
  { machine with
    registers := machine.registers.advance.writeResult .r0 (machine.registers.pc + 3)
    retired := machine.retired + 1 }

def printed (machine : Machine) : Machine :=
  { machine.addressing.serving with retired := machine.addressing.retired + 1 }

def dismissed (machine : Machine) : Machine :=
  { machine.printed.serving with status := .halted, retired := machine.printed.retired + 1 }

section

variable {machine : Machine} {words : List Word}

theorem Prints.ne_keyboardStatus (hprints : machine.Prints words) {address : Word}
    (haddress : address ∈
      [machine.registers.pc, machine.registers.pc + 1, machine.registers.pc + 2]) :
    address ≠ DeviceCell.keyboardStatus.address :=
  fun heq => hprints.plain (heq ▸ haddress)

theorem step_address (hprints : machine.Prints words) :
    step machine = .note (.fetched machine.registers.pc 0xE002)
      (.done (.ok .completed, machine.addressing)) := by
  have hdecode : Instruction.decode 0xE002 = .lea .r0 2 := by decide
  have hexecute : Effect.execute (Instruction.decode 0xE002) 0xE002 =
      Effect.retire fun file => file.commit .lea .r0 (file.pcRelative 2) := by
    rw [hdecode]
    rfl
  have hstring : machine.registers.advance.pcRelative 2 = machine.registers.pc + 3 :=
    UInt16.add_assoc machine.registers.pc 1 2
  rw [step_retire hprints.running (hprints.ne_keyboardStatus (by simp)) hprints.address hexecute,
    addressing, ← hstring]
  rfl

theorem requests_puts (hprints : machine.Prints words) : machine.addressing.Requests .puts where
  running := hprints.running
  plain := hprints.ne_keyboardStatus (.tail _ (.head _))
  decodes := by
    rw [show machine.addressing.memory.peek machine.addressing.registers.pc = 0xF022 from
      hprints.puts]
    decide

theorem read_addressing (machine : Machine) :
    machine.addressing.registers.read .r0 = machine.registers.pc + 3 :=
  (RegisterFile.read_writeResult ..).trans (if_pos rfl)

theorem pc_printed (machine : Machine) : machine.printed.registers.pc = machine.registers.pc + 2 :=
  UInt16.add_assoc machine.registers.pc 1 1

theorem pc_dismissed (machine : Machine) :
    machine.dismissed.registers.pc = machine.registers.pc + 3 := by
  have hpc : machine.dismissed.registers.pc = machine.printed.registers.pc + 1 := rfl
  rw [hpc, pc_printed]
  exact UInt16.add_assoc machine.registers.pc 2 1

theorem link_dismissed (machine : Machine) :
    machine.dismissed.registers.read .link = machine.registers.pc + 3 := by
  rw [← pc_dismissed]
  exact (RegisterFile.read_write ..).trans (if_pos rfl)

theorem string_dismissed (machine : Machine) :
    machine.dismissed.registers.read .r0 = machine.registers.pc + 3 :=
  calc machine.dismissed.registers.read .r0
    _ = machine.addressing.serving.registers.read .r0 := machine.printed.read_serving (by decide)
    _ = machine.addressing.registers.read .r0 := machine.addressing.read_serving (by decide)
    _ = machine.registers.pc + 3 := machine.read_addressing

theorem requests_halt (hprints : machine.Prints words) : machine.printed.Requests .halt where
  running := hprints.running
  plain := by
    rw [pc_printed]
    exact hprints.ne_keyboardStatus (by simp)
  decodes := by
    rw [pc_printed, show machine.printed.memory.peek (machine.registers.pc + 2) = 0xF025 from
      hprints.halt]
    decide

theorem Prints.converse_runFor (hprints : machine.Prints words) {script : Script}
    (hscript : script.interruptPending = false) (spent : Ending) (budget offset : Nat) :
    (runFor spent (budget + 3) offset machine).converse Script.console script =
      ((.ok ⟨offset + 3, .halted⟩, machine.dismissed),
        (script.told (words.map Word.lowByte) (script.flushes + 1)).dismissed machine.config) := by
  have haddress : (step machine).converse Script.console script =
      ((.ok .completed, machine.addressing), script) := by
    rw [step_address hprints]
    rfl
  have hstring : machine.addressing.memory.StringAt
      (machine.addressing.registers.read .r0) Memory.size words := by
    rw [read_addressing]
    exact hprints.string
  have hputs : (step machine.addressing).converse Script.console script =
      ((.ok .completed, machine.printed),
        script.told (words.map Word.lowByte) (script.flushes + 1)) :=
    step_puts (requests_puts hprints) hstring script
  have htold : (script.told (words.map Word.lowByte) (script.flushes + 1)).interruptPending =
      false := hscript
  have hunbroken := Script.answer_interrupt_unraised hscript
  rw [runFor_succ hprints.running, converse_round hunbroken, haddress]
  dsimp only
  rw [runFor_succ (requests_puts hprints).running, converse_round hunbroken, hputs]
  dsimp only
  exact runFor_halting (requests_halt hprints) htold spent budget (offset + 2)

end

theorem prints_holding {origin : Word} {words : List Word}
    (hfits : origin.toNat + 4 + words.length ≤ Memory.size) (hnonzero : ∀ word ∈ words, word ≠ 0)
    (hplain : DeviceCell.keyboardStatus.address ∉ [origin, origin + 1, origin + 2]) :
    (holding { entry := origin } (printing words)).Prints words := by
  have hlength : (printing words).length = words.length + 4 := by simp [printing]
  have hcell (position : Nat) {word : Word} (hword : (printing words)[position]? = some word) :
      (Memory.empty.writeWords origin (printing words)).peek (origin + UInt16.ofNat position) =
        word := by
    obtain ⟨hposition, rfl⟩ := List.getElem?_eq_some_iff.mp hword
    exact Memory.empty.peek_writeWords_add origin (by omega) hposition
  have hstring : (Memory.empty.writeWords origin (printing words)).Terminated (origin + 3)
      Memory.size words := by
    have hbehind : origin + 1 + 1 + 1 = origin + 3 := by
      rw [UInt16.add_assoc, UInt16.add_assoc]
      rfl
    have hroom : (words ++ [0]).take Memory.size = words ++ [0] :=
      List.take_of_length_le (by simp; omega)
    rw [printing, Memory.writeWords, Memory.writeWords, Memory.writeWords, hbehind, ← hroom]
    exact Memory.terminated_writeWords _ (origin + 3) (by omega)
  exact {
    running := rfl
    address := by
      have hfirst := hcell 0 rfl
      rwa [show origin + UInt16.ofNat 0 = origin from UInt16.add_zero origin] at hfirst
    puts := hcell 1 rfl
    halt := hcell 2 rfl
    plain := hplain
    string := ⟨hstring, hnonzero⟩ }

/-- A program that takes the address behind it, prints the string there and halts, loaded at any
place where it fits, prints the low bytes of the string before the banner, and no more. The string
may lie on device cells and end at the end of memory. -/
theorem string_printed {origin : Word} {words : List Word} {deliveries : List Delivery}
    {script : Script}
    (hfits : origin.toNat + 4 + words.length ≤ 65536) (hnonzero : ∀ word ∈ words, word ≠ 0)
    (hplain : DeviceCell.keyboardStatus.address ∉ [origin, origin + 1, origin + 2])
    (hdelivered : Delivery.gather deliveries =
      .ok ((origin :: printing words).flatMap Word.bytes))
    (hscript : script.interruptPending = false) :
    ∃ loaded final : Machine,
      (onMemory (Memory.loadStream deliveries) (ofConfig { entry := origin })).converse
          Script.console script =
        ((.ok ⟨origin, words.length + 4, 0⟩, loaded), script) ∧
      (run loaded).converse Script.console script =
        ((.ok ⟨3, .halted⟩, final),
          { script with
            output := script.output ++
              (words.map Word.lowByte ++ TrapService.banner.toUTF8.data.toList)
            flushes := script.flushes + 2 }) ∧
      final.memory = loaded.memory ∧ final.registers.read .r0 = origin + 3 ∧
      final.registers.pc = origin + 3 ∧ final.registers.read .link = origin + 3 := by
  have hlength : (printing words).length = words.length + 4 := by simp [printing]
  have hloaded := Memory.converse_loadStream hdelivered (by omega) Script.console script .empty
  have hprints := prints_holding hfits hnonzero hplain
  refine ⟨holding { entry := origin } (printing words),
    (holding { entry := origin } (printing words)).dismissed, ?_, ?_, rfl, string_dismissed _,
    pc_dismissed _, link_dismissed _⟩
  · rw [onMemory_apply, Dialogue.converse_bind, show (ofConfig { entry := origin }).memory = .empty
      from rfl, hloaded, hlength]
    rfl
  · have hbudget : (holding { entry := origin } (printing words)).config.budget =
        UInt64.size - 3 + 3 := rfl
    rw [run_eq_runFor, hbudget, hprints.converse_runFor hscript, Script.dismissed,
      if_pos (show (holding { entry := origin } (printing words)).config.banner = true from rfl),
      Script.told_told]
    rfl

theorem string_printed_below_end :
    ∃ loaded final : Machine,
      (onMemory (Memory.loadStream
          [.bytes [0xFF, 0xFA, 0xE0, 0x02, 0xF0, 0x22, 0xF0, 0x25, 0x00, 0x48, 0x00, 0x69],
            .bytes [0x00, 0x00]]) (ofConfig { entry := 0xFFFA })).converse
          Script.console { input := [] } =
        ((.ok ⟨0xFFFA, 6, 0⟩, loaded), { input := [] }) ∧
      (run loaded).converse Script.console { input := [] } =
        ((.ok ⟨3, .halted⟩, final),
          { input := []
            output := "HiShutdown\n".toUTF8.data
            flushes := 2 }) ∧
      final.memory = loaded.memory ∧ final.registers.read .r0 = 0xFFFD ∧
      final.registers.pc = 0xFFFD ∧ final.registers.read .link = 0xFFFD :=
  @string_printed 0xFFFA [0x48, 0x69] _ { input := [] } (by decide) (by simp) (by decide) rfl rfl

end Machine

end LittleComputer

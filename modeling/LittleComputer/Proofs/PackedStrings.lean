import LittleComputer.Proofs.StringOutput

namespace LittleComputer

/-! Packing and unpacking of strings -/

namespace Word

/-- Two bytes a word, the first in the lower half. The upper half of the last word is zero when
no byte is left for it. -/
def packed : List Byte → List Word
  | first :: second :: bytes => ofBytes second first :: packed bytes
  | [last] => [ofBytes 0 last]
  | [] => []

theorem ofBytes_ne_zero {high low : Byte} (hlow : low ≠ 0) : ofBytes high low ≠ 0 := by
  intro hzero
  apply hlow
  rw [← lowByte_ofBytes high low, hzero]
  rfl

theorem packed_ne_zero {bytes : List Byte} (hbytes : 0 ∉ bytes) :
    ∀ word ∈ packed bytes, word ≠ 0 := by
  fun_induction packed bytes with
  | case1 first second bytes ih =>
      simp only [List.mem_cons, not_or] at hbytes
      obtain ⟨hfirst, _, hrest⟩ := hbytes
      exact List.forall_mem_cons.mpr ⟨ofBytes_ne_zero (Ne.symm hfirst), ih hrest⟩
  | case2 last =>
      simp only [List.mem_singleton] at hbytes
      simpa using ofBytes_ne_zero (Ne.symm hbytes)
  | case3 => exact nofun

def unpacked (word : Word) : List Byte :=
  word.lowByte :: if word.highByte = 0 then [] else [word.highByte]

theorem unpacked_ofBytes_zero (low : Byte) : (ofBytes 0 low).unpacked = [low] := by
  simp [unpacked, lowByte_ofBytes, highByte_ofBytes]

theorem unpacked_ofBytes {high : Byte} (low : Byte) (hhigh : high ≠ 0) :
    (ofBytes high low).unpacked = [low, high] := by
  simp [unpacked, lowByte_ofBytes, highByte_ofBytes, hhigh]

theorem flatMap_unpacked_packed {bytes : List Byte} (hbytes : 0 ∉ bytes) :
    (packed bytes).flatMap unpacked = bytes := by
  fun_induction packed bytes with
  | case1 first second bytes ih =>
      simp only [List.mem_cons, not_or] at hbytes
      obtain ⟨_, hsecond, hrest⟩ := hbytes
      rw [List.flatMap_cons, unpacked_ofBytes first (Ne.symm hsecond), ih hrest]
      rfl
  | case2 last => simp [unpacked_ofBytes_zero]
  | case3 => rfl

end Word

namespace Memory

theorem packedCharacters_eq_unpacked (word : Word) : packedCharacters word = word.unpacked := by
  rw [packedCharacters, Word.unpacked]
  split <;> rfl

theorem terminated_writeWords (memory : Memory) (address : Word) {words : List Word}
    (hlength : words.length ≤ size) :
    (memory.writeWords address ((words ++ [0]).take size)).Terminated address size words := by
  have hpeek {position : Nat} {word : Word} (hposition : position < size)
      (hword : (words ++ [0])[position]? = some word) :
      (memory.writeWords address ((words ++ [0]).take size)).peek
        (address + UInt16.ofNat position) = word := by
    rw [← List.getElem?_take_of_lt hposition] at hword
    obtain ⟨hlt, rfl⟩ := List.getElem?_eq_some_iff.mp hword
    exact peek_writeWords_add memory address (List.length_take_le size _) hlt
  constructor
  · apply List.ext_getElem
    · simp
    · intro position hposition _
      rw [List.getElem_map]
      simp only [Word.upward, List.getElem_map, List.getElem_range]
      symm
      apply hpeek (Nat.lt_of_lt_of_le hposition hlength)
      rw [List.getElem?_append_left hposition, List.getElem?_eq_getElem hposition]
  · rcases Nat.lt_or_eq_of_le hlength with hlt | heq
    · exact .inr ⟨hlt, hpeek hlt (by simp)⟩
    · exact .inl heq

end Memory

namespace Machine

variable {σ : Type}

theorem writesOut_putsp (console : Console σ) (machine : Machine) (state : σ) {words : List Word}
    (hstring : machine.memory.StringAt (machine.registers.read .r0) Memory.size words) :
    machine.WritesOut console state .putsp (words.flatMap Word.unpacked) := by
  apply writesOut_of_service
  intro file hfile
  rw [Effect.service_putsp, Memory.packedString, hfile, Memory.wordsUntilZero_eq_iff.mpr hstring,
    funext Memory.packedCharacters_eq_unpacked]
  rfl

/-- Bytes other than zero that were packed are written again, one by one. In any memory the bytes
of the words up to the first zero are written, but for upper halves that are zero. -/
theorem putsp_unpacks (console : Console σ) (machine : Machine) (state : σ) :
    (∀ bytes, 0 ∉ bytes →
      machine.memory.Terminated (machine.registers.read .r0) Memory.size (Word.packed bytes) →
        machine.WritesOut console state .putsp bytes) ∧
    ∃ words, machine.memory.StringAt (machine.registers.read .r0) Memory.size words ∧
      machine.WritesOut console state .putsp (words.flatMap fun word =>
        word.lowByte :: if word.highByte = 0 then [] else [word.highByte]) := by
  constructor
  · intro bytes hbytes hpacked
    have hwrites := writesOut_putsp console machine state ⟨hpacked, Word.packed_ne_zero hbytes⟩
    rwa [Word.flatMap_unpacked_packed hbytes] at hwrites
  · have hstring := Memory.wordsUntilZero_eq_iff.mp
      (rfl : machine.memory.wordsUntilZero (machine.registers.read .r0) Memory.size = _)
    exact ⟨_, hstring, writesOut_putsp console machine state hstring⟩

theorem packed_string_over_end_of_memory :
    let bytes : List Byte := [0x48, 0x65, 0x79]
    let memory := (Memory.empty.write 0x3000 0xF024).writeWords 0xFFFF
      ((Word.packed bytes ++ [0]).take Memory.size)
    let machine : Machine :=
      { ofConfig {} with
        memory := memory
        registers := (RegisterFile.startingAt 0x3000).write .r0 0xFFFF }
    0 ∉ bytes ∧ memory.Terminated 0xFFFF Memory.size (Word.packed bytes) ∧
      machine.Requests .putsp ∧
      (step machine).calls Script.console { input := [0x61] } =
        bytes.map Call.written ++ [⟨.flush, .ok ()⟩] := by
  intro bytes memory machine
  have hbytes : 0 ∉ bytes := by decide
  have hpacked : memory.Terminated 0xFFFF Memory.size (Word.packed bytes) :=
    Memory.terminated_writeWords _ _ (by decide)
  have hword : memory.peek 0x3000 = 0xF024 := by
    rw [Memory.peek_writeWords _ _ _ (List.length_take_le Memory.size _),
      List.getElem?_eq_none (by decide), Option.getD_none, Memory.peek_write_self]
  have hrequests : machine.Requests .putsp :=
    ⟨rfl, show (0x3000 : Word) ≠ _ by decide, (congrArg Instruction.decode hword).trans (by decide)⟩
  obtain ⟨hunpacks, _⟩ := putsp_unpacks Script.console machine { input := [0x61] }
  have hwrites := hunpacks bytes hbytes hpacked
  obtain ⟨hcalls, _⟩ := (hwrites.step hrequests).complete (script_takes_output _ _)
  exact ⟨hbytes, hpacked, hrequests, hcalls⟩

end Machine

end LittleComputer

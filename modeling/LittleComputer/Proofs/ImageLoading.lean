import LittleComputer.Console.Scripted
import LittleComputer.Image

namespace LittleComputer

/-! What loading an image does -/

namespace Word

theorem ofBytes_highByte_lowByte (word : Word) : ofBytes word.highByte word.lowByte = word := by
  apply UInt16.toNat_inj.mp
  have hword := word.toNat_lt
  simp only [toNat_ofBytes, highByte, lowByte, UInt16.toNat_toUInt8, UInt16.toNat_shiftRight,
    UInt16.reduceToNat, Nat.reduceMod, Nat.shiftRight_eq_div_pow, Nat.reducePow]
  omega

theorem add_one_add_ofNat (address : Word) (index : Nat) :
    address + 1 + UInt16.ofNat index = address + UInt16.ofNat (index + 1) := by
  rw [UInt16.ofNat_add, UInt16.add_assoc, UInt16.add_comm 1]
  rfl

end Word

namespace Image

/-- The number that the two bytes at a position write, if both are there. Positions count
pairs of bytes. -/
def bigEndian? (bytes : List Byte) (position : Nat) : Option Nat := do
  let high ← bytes[2 * position]?
  let low ← bytes[2 * position + 1]?
  return 256 * high.toNat + low.toNat

theorem length_wordsOfBytes (bytes : List Byte) :
    (wordsOfBytes bytes).length = bytes.length / 2 := by
  fun_induction wordsOfBytes bytes with
  | case1 high low bytes ih =>
      simp only [List.length_cons, ih]
      omega
  | case2 byte => simp
  | case3 => rfl

theorem getElem?_wordsOfBytes (bytes : List Byte) (position : Nat) :
    (wordsOfBytes bytes)[position]?.map UInt16.toNat = bigEndian? bytes position := by
  fun_induction wordsOfBytes bytes generalizing position with
  | case1 high low bytes ih =>
      cases position with
      | zero => exact congrArg some (Word.toNat_ofBytes high low)
      | succ position => exact ih position
  | case2 byte => cases position <;> rfl
  | case3 => rfl

@[simp] theorem wordsOfBytes_bytes (words : List Word) :
    wordsOfBytes (words.flatMap Word.bytes) = words := by
  induction words with
  | nil => rfl
  | cons word words ih =>
      calc wordsOfBytes ((word :: words).flatMap Word.bytes)
        _ = Word.ofBytes word.highByte word.lowByte ::
              wordsOfBytes (words.flatMap Word.bytes) := rfl
        _ = word :: words := by rw [Word.ofBytes_highByte_lowByte, ih]

theorem ofBytes?_of_short {bytes : List Byte} (hshort : bytes.length < 2) :
    ofBytes? bytes = none := by
  match bytes, hshort with
  | [], _ | [_], _ => rfl

theorem ofBytes?_of_le {bytes : List Byte} (hlong : 2 ≤ bytes.length) :
    ∃ image, ofBytes? bytes = some image ∧ wordsOfBytes bytes = image.origin :: image.words := by
  match bytes, hlong with
  | high :: low :: bytes, _ => exact ⟨_, rfl, rfl⟩

theorem ofBytes?_bytes (origin : Word) (words : List Word) :
    ∃ image, ofBytes? ((origin :: words).flatMap Word.bytes) = some image ∧
      image.origin = origin ∧ image.words = words :=
  ⟨_, rfl, Word.ofBytes_highByte_lowByte origin, wordsOfBytes_bytes words⟩

theorem length_storedWords (image : Image) :
    image.storedWords.length = min image.words.length (65536 - image.origin.toNat) := by
  rw [storedWords, List.length_take, Nat.min_comm]
  rfl

theorem getElem?_storedWords {image : Image} {position : Nat}
    (hposition : position < image.storedWords.length) :
    some image.storedWords[position] = image.words[position]? := by
  have hcapacity : position < image.capacity :=
    Nat.lt_of_lt_of_le hposition (List.length_take_le _ _)
  rw [← List.getElem?_eq_getElem hposition, storedWords, List.getElem?_take_of_lt hcapacity]

theorem storedWords_of_fits {image : Image}
    (hfits : image.words.length ≤ 65536 - image.origin.toNat) :
    image.storedWords = image.words :=
  List.take_of_length_le hfits

end Image

namespace Memory

theorem toNat_sub_add_one {address origin : Word} (hne : address ≠ origin) :
    (address - origin).toNat = (address - (origin + 1)).toNat + 1 := by
  have hindices : address.toNat ≠ origin.toNat := fun heq => hne (UInt16.toNat_inj.mp heq)
  have haddress := address.toNat_lt
  have horigin := origin.toNat_lt
  simp only [UInt16.toNat_sub, UInt16.toNat_add, UInt16.reduceToNat]
  omega

theorem toNat_sub_self_add_one (origin : Word) : (origin - (origin + 1)).toNat = size - 1 := by
  have horigin := origin.toNat_lt
  simp only [UInt16.toNat_sub, UInt16.toNat_add, UInt16.reduceToNat, size]
  omega

theorem peek_writeWords (memory : Memory) (origin address : Word) {words : List Word}
    (hlength : words.length ≤ size) :
    (memory.writeWords origin words).peek address =
      words[(address - origin).toNat]?.getD (memory.peek address) := by
  induction words generalizing memory origin with
  | nil => rfl
  | cons word words ih =>
      rw [List.length_cons] at hlength
      rw [writeWords, ih _ _ (Nat.le_of_succ_le hlength)]
      by_cases horigin : address = origin
      · -- The words that follow are too few to come round to the first one again.
        subst horigin
        have hlast : words.length ≤ (address - (address + 1)).toNat := by
          rw [toNat_sub_self_add_one]
          exact Nat.le_sub_one_of_lt hlength
        rw [List.getElem?_eq_none hlast, UInt16.sub_self]
        exact peek_write_self memory address word
      · rw [toNat_sub_add_one horigin, List.getElem?_cons_succ, peek_write_of_ne _ _ horigin]

theorem peek_writeWords_add (memory : Memory) (origin : Word) {words : List Word}
    (hlength : words.length ≤ size) {position : Nat} (hposition : position < words.length) :
    (memory.writeWords origin words).peek (origin + UInt16.ofNat position) = words[position] := by
  have hdistance : (origin + UInt16.ofNat position - origin).toNat = position := by
    rw [UInt16.add_comm, UInt16.add_sub_cancel]
    exact UInt16.toNat_ofNat_of_lt' (Nat.lt_of_lt_of_le hposition hlength)
  rw [peek_writeWords _ _ _ hlength, hdistance, List.getElem?_eq_getElem hposition]
  rfl

theorem peekWords_eq {memory : Memory} {address : Word} {words : List Word}
    (hpeek : ∀ position (hposition : position < words.length),
      memory.peek (address + UInt16.ofNat position) = words[position]) :
    memory.peekWords address words.length = words := by
  induction words generalizing address with
  | nil => rfl
  | cons word words ih =>
      have hfirst : memory.peek address = word := by
        simpa using hpeek 0 (Nat.zero_lt_succ _)
      have hrest : memory.peekWords (address + 1) words.length = words := by
        refine ih fun position hposition => ?_
        rw [Word.add_one_add_ofNat]
        exact hpeek (position + 1) (Nat.succ_lt_succ hposition)
      rw [List.length_cons, peekWords, hfirst, hrest]

theorem peekWords_writeWords (memory : Memory) (origin : Word) {words : List Word}
    (hlength : words.length ≤ size) :
    (memory.writeWords origin words).peekWords origin words.length = words :=
  peekWords_eq fun _ => memory.peek_writeWords_add origin hlength

structure Stored (before : Memory) (origin : Word) (words : List Word) (after : Memory) :
    Prop where
  placed : ∀ position (hposition : position < words.length) (address : Word),
    address.toNat = origin.toNat + position → after.peek address = words[position]
  kept : ∀ address : Word,
    address.toNat < origin.toNat ∨ origin.toNat + words.length ≤ address.toNat →
      after.peek address = before.peek address

theorem writeWords_stored (memory : Memory) {origin : Word} {words : List Word}
    (hfits : origin.toNat + words.length ≤ size) :
    memory.Stored origin words (memory.writeWords origin words) where
  placed position hposition address haddress := by
    have hdistance : (address - origin).toNat = position := by
      rw [UInt16.toNat_sub_of_le _ _ (UInt16.le_iff_toNat_le.mpr (by omega))]
      omega
    rw [peek_writeWords _ _ _ (by omega), hdistance, List.getElem?_eq_getElem hposition]
    rfl
  kept address houtside := by
    -- From below the origin the distance goes round by zero, past the end of the words.
    have hdistance : words.length ≤ (address - origin).toNat := by
      have haddress := address.toNat_lt
      simp only [size] at hfits
      rw [UInt16.toNat_sub]
      omega
    rw [peek_writeWords _ _ _ (by omega), List.getElem?_eq_none hdistance]
    rfl

section

variable {σ : Type} (console : Console σ) (state : σ) (memory : Memory)

theorem converse_loadBytes_of_short {bytes : List Byte} (hshort : bytes.length < 2) :
    (loadBytes bytes memory).converse console state = ((.error .noOrigin, memory), state) := by
  rw [loadBytes, Image.ofBytes?_of_short hshort, Dialogue.converse_done]

theorem converse_loadBytes {bytes : List Byte} {image : Image}
    (himage : Image.ofBytes? bytes = some image) :
    (loadBytes bytes memory).converse console state =
      ((.ok image.placement, memory.storeImage image), state) := by
  rw [loadBytes, himage]
  exact Dialogue.converse_notes console image.events _ state

end

theorem storeImage_stored (memory : Memory) (image : Image) :
    memory.Stored image.origin image.storedWords (memory.storeImage image) := by
  apply writeWords_stored
  have horigin := image.origin.toNat_lt
  rw [Image.length_storedWords, size]
  omega

structure Loaded (before : Memory) (bytes : List Byte) (placement : Placement)
    (after : Memory) : Prop where
  origin : Image.bigEndian? bytes 0 = some placement.origin.toNat
  stored : placement.stored = min (bytes.length / 2 - 1) (65536 - placement.origin.toNat)
  discarded : placement.stored + placement.discarded = bytes.length / 2 - 1
  placed : ∀ position < placement.stored, ∀ address : Word,
    address.toNat = placement.origin.toNat + position →
      Image.bigEndian? bytes (position + 1) = some (after.peek address).toNat
  kept : ∀ address : Word,
    address.toNat < placement.origin.toNat ∨
        placement.origin.toNat + placement.stored ≤ address.toNat →
      after.peek address = before.peek address

theorem storeImage_loaded (memory : Memory) {bytes : List Byte} {image : Image}
    (hwords : Image.wordsOfBytes bytes = image.origin :: image.words) :
    memory.Loaded bytes image.placement (memory.storeImage image) := by
  have hlength : bytes.length / 2 - 1 = image.words.length := by
    rw [← Image.length_wordsOfBytes, hwords, List.length_cons, Nat.add_sub_cancel]
  have hstored := image.length_storedWords
  have hcells := memory.storeImage_stored image
  refine ⟨?_, ?_, ?_, fun position hposition address haddress => ?_, hcells.kept⟩
  · rw [← Image.getElem?_wordsOfBytes, hwords]
    rfl
  · rw [hlength]
    exact hstored
  · rw [hlength]
    change image.storedWords.length + (image.words.length - image.storedWords.length) = _
    omega
  · rw [hcells.placed position hposition address haddress, ← Image.getElem?_wordsOfBytes, hwords,
      List.getElem?_cons_succ, ← Image.getElem?_storedWords hposition]
    rfl

/-- Less than one word has no origin, and leaves the memory alone. All other bytes are loaded,
as many of their words as fit from the origin to the end of memory and nothing elsewhere, and
words that were written as an image and fit are read back. -/
theorem image_loaded {σ : Type} (console : Console σ) (state : σ) (memory : Memory)
    (bytes : List Byte) :
    (bytes.length < 2 →
      (loadBytes bytes memory).converse console state = ((.error .noOrigin, memory), state)) ∧
    (2 ≤ bytes.length → ∃ placement after,
      (loadBytes bytes memory).converse console state = ((.ok placement, after), state) ∧
      memory.Loaded bytes placement after) ∧
    (∀ origin words, bytes = (origin :: words).flatMap Word.bytes →
      words.length ≤ 65536 - origin.toNat → ∃ placement after,
        (loadBytes bytes memory).converse console state = ((.ok placement, after), state) ∧
        placement = ⟨origin, words.length, 0⟩ ∧
        after.peekWords origin words.length = words) := by
  refine ⟨converse_loadBytes_of_short console state memory, fun hlong => ?_,
    fun origin words hbytes hfits => ?_⟩
  · obtain ⟨image, himage, hwords⟩ := Image.ofBytes?_of_le hlong
    exact ⟨_, _, converse_loadBytes console state memory himage,
      memory.storeImage_loaded hwords⟩
  · subst hbytes
    obtain ⟨image, himage, rfl, rfl⟩ := Image.ofBytes?_bytes origin words
    have hstored := Image.storedWords_of_fits hfits
    refine ⟨_, _, converse_loadBytes console state memory himage, ?_, ?_⟩
    · rw [Image.placement, hstored, Nat.sub_self]
    · rw [storeImage, hstored]
      exact memory.peekWords_writeWords image.origin (Nat.le_trans hfits (Nat.sub_le _ _))

theorem image_cut_at_end_of_memory :
    ∃ placement after,
      (loadBytes [0xFF, 0xFE, 0x12, 0x34, 0xAB, 0xCD, 0x56, 0x78, 0x9A] empty).converse
        Script.console { input := [] } = ((.ok placement, after), { input := [] }) ∧
      placement.stored = 2 ∧ placement.discarded = 1 ∧
      after.peek 0xFFFE = 0x1234 ∧ after.peek 0xFFFF = 0xABCD ∧ after.peek 0 = 0 := by
  obtain ⟨_, hlong, _⟩ := image_loaded Script.console { input := [] } empty
    [0xFF, 0xFE, 0x12, 0x34, 0xAB, 0xCD, 0x56, 0x78, 0x9A]
  obtain ⟨placement, after, hconverse, hloaded⟩ := hlong (by decide)
  have horigin : 0xFFFE = placement.origin.toNat := Option.some.inj hloaded.origin
  have hstored : placement.stored = 2 := by rw [hloaded.stored, ← horigin]; rfl
  have hdiscarded : 2 + placement.discarded = 3 := hstored ▸ hloaded.discarded
  have hcell (position : Nat) (hposition : position < 2) (address : Word)
      (haddress : address.toNat = 0xFFFE + position) :=
    hloaded.placed position (hstored ▸ hposition) address (horigin ▸ haddress)
  refine ⟨placement, after, hconverse, hstored, Nat.add_left_cancel hdiscarded, ?_, ?_, ?_⟩
  · exact UInt16.toNat_inj.mp (Option.some.inj (hcell 0 (by decide) 0xFFFE rfl)).symm
  · exact UInt16.toNat_inj.mp (Option.some.inj (hcell 1 (by decide) 0xFFFF rfl)).symm
  · rw [hloaded.kept 0 (.inl (horigin ▸ (by decide))), peek_empty]

end Memory

end LittleComputer

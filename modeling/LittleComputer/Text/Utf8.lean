import LittleComputer.Word

namespace LittleComputer

/-! Reading bytes as UTF-8, with a replacement for what is not -/

namespace Utf8

structure ByteRange where
  first : Byte
  last : Byte

def ByteRange.contains (range : ByteRange) (byte : Byte) : Bool :=
  range.first ≤ byte && byte ≤ range.last

def continuation : ByteRange := ⟨0x80, 0xBF⟩

structure Lead where
  bits : Nat
  tail : List ByteRange

/-- Tails that would write a character longer than needed, a surrogate or a
number past the last character are left out. -/
def Lead.ofByte? (byte : Byte) : Option Lead :=
  let value := byte.toNat
  if value < 0x80 then some ⟨value, []⟩
  else if value < 0xC2 then none
  else if value < 0xE0 then some ⟨value % 0x20, [continuation]⟩
  else if value = 0xE0 then some ⟨value % 0x10, [⟨0xA0, 0xBF⟩, continuation]⟩
  else if value = 0xED then some ⟨value % 0x10, [⟨0x80, 0x9F⟩, continuation]⟩
  else if value < 0xF0 then some ⟨value % 0x10, [continuation, continuation]⟩
  else if value = 0xF0 then some ⟨0, [⟨0x90, 0xBF⟩, continuation, continuation]⟩
  else if value < 0xF4 then some ⟨value % 8, [continuation, continuation, continuation]⟩
  else if value = 0xF4 then some ⟨4, [⟨0x80, 0x8F⟩, continuation, continuation]⟩
  else none

def replacement : Char := Char.ofNat 0xFFFD

/-- Reads the tail of a character as far as it fits, and gives the character
(its replacement if the tail is cut short) and the bytes behind it. -/
def readTail : (bits : Nat) → List ByteRange → List Byte → Char × List Byte
  | bits, [], bytes => (Char.ofNat bits, bytes)
  | _, _ :: _, [] => (replacement, [])
  | bits, range :: tail, byte :: bytes =>
      if range.contains byte then
        readTail (64 * bits + byte.toNat % 64) tail bytes
      else
        (replacement, byte :: bytes)

theorem length_readTail_le (bits : Nat) (tail : List ByteRange) (bytes : List Byte) :
    (readTail bits tail bytes).2.length ≤ bytes.length := by
  induction tail generalizing bits bytes with
  | nil => simp [readTail]
  | cons range tail ih =>
    cases bytes with
    | nil => simp [readTail]
    | cons byte bytes =>
      simp only [readTail]
      split
      · exact Nat.le_succ_of_le (ih _ bytes)
      · exact Nat.le_refl _

def readChar (byte : Byte) (bytes : List Byte) : Char × List Byte :=
  match Lead.ofByte? byte with
  | some lead => readTail lead.bits lead.tail bytes
  | none => (replacement, bytes)

theorem length_readChar_le (byte : Byte) (bytes : List Byte) :
    (readChar byte bytes).2.length ≤ bytes.length := by
  unfold readChar
  split
  · exact length_readTail_le _ _ bytes
  · exact Nat.le_refl _

/-- Bytes that belong to no character give one replacement for each longest
run that begins one. -/
def decode : List Byte → List Char
  | [] => []
  | byte :: bytes => (readChar byte bytes).1 :: decode (readChar byte bytes).2
  termination_by bytes => bytes.length
  decreasing_by exact Nat.lt_succ_of_le (length_readChar_le byte bytes)

def text (bytes : List Byte) : String :=
  String.ofList (decode bytes)

end Utf8

end LittleComputer

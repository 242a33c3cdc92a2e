namespace LittleComputer

/-! Machine words and bytes -/

abbrev Word := UInt16

abbrev Byte := UInt8

namespace Word

def bit (word : Word) (index : Nat) : Bool :=
  word.toNat.testBit index

def field (word : Word) (start width : Nat) : Nat :=
  (word.toNat >>> start) % Nat.pow 2 width

theorem field_lt (word : Word) (start width : Nat) :
    word.field start width < Nat.pow 2 width :=
  Nat.mod_lt _ (Nat.two_pow_pos width)

/-- The low `width` bits of `word` in two's complement, widened to a word.
The upper half of their range stands for the negative numbers. -/
def signExtend (width : Nat) (word : Word) : Word :=
  if width < 16 then
    let low := word.field 0 width
    if 2 * low < Nat.pow 2 width then
      UInt16.ofNat low
    else
      UInt16.ofNat low - UInt16.ofNat (Nat.pow 2 width)
  else
    word

theorem signExtend_of_le {width : Nat} (hwidth : 16 ≤ width) (word : Word) :
    signExtend width word = word := by
  simp [signExtend, Nat.not_lt.mpr hwidth]

def signed (word : Word) : Int :=
  (word.toNat : Int).bmod UInt16.size

def isNegative (word : Word) : Bool :=
  word.bit 15

/-! The two bytes of a word -/

def highByte (word : Word) : Byte :=
  (word >>> 8).toUInt8

def lowByte (word : Word) : Byte :=
  word.toUInt8

def ofBytes (high low : Byte) : Word :=
  high.toUInt16 * 256 + low.toUInt16

theorem toNat_ofBytes (high low : Byte) :
    (ofBytes high low).toNat = 256 * high.toNat + low.toNat := by
  have hhigh := high.toNat_lt
  have hlow := low.toNat_lt
  simp only [ofBytes, UInt16.toNat_add, UInt16.toNat_mul, UInt8.toNat_toUInt16,
    UInt16.reduceToNat]
  omega

theorem highByte_ofBytes (high low : Byte) :
    highByte (ofBytes high low) = high := by
  have hlow := low.toNat_lt
  have hhigh := high.toNat_lt
  apply UInt8.toNat_inj.mp
  simp only [highByte, UInt16.toNat_toUInt8, UInt16.toNat_shiftRight, toNat_ofBytes,
    UInt16.reduceToNat, Nat.shiftRight_eq_div_pow, Nat.reduceMod, Nat.reducePow]
  omega

theorem lowByte_ofBytes (high low : Byte) :
    lowByte (ofBytes high low) = low := by
  have hlow := low.toNat_lt
  apply UInt8.toNat_inj.mp
  simp only [lowByte, UInt16.toNat_toUInt8, toNat_ofBytes]
  omega

/-- Most significant byte first. -/
def bytes (word : Word) : List Byte :=
  [word.highByte, word.lowByte]

end Word

end LittleComputer

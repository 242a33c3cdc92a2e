import LittleComputer.Memory

namespace LittleComputer

/-! Strings in memory -/

namespace Memory

def wordsUntilZero (memory : Memory) (address : Word) : (count : Nat) → List Word
  | 0 => []
  | count + 1 =>
      if memory.peek address = 0 then []
      else memory.peek address :: memory.wordsUntilZero (address + 1) count

/-- A string of one character a word, which visits no cell twice. -/
def string (memory : Memory) (address : Word) : List Byte :=
  (memory.wordsUntilZero address size).map Word.lowByte

/-- The characters of a word in a packed string. A zero in the upper half is none. -/
def packedCharacters (word : Word) : List Byte :=
  if word.highByte = 0 then [word.lowByte] else [word.lowByte, word.highByte]

def packedString (memory : Memory) (address : Word) : List Byte :=
  (memory.wordsUntilZero address size).flatMap packedCharacters

end Memory

end LittleComputer

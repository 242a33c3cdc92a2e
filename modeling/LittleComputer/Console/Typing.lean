import LittleComputer.Word

namespace LittleComputer

/-! Keys typed at a terminal that still edits lines -/

structure Typing where
  entered : List Byte := []
  line : List Byte := []
  literal : Bool := false
  deriving DecidableEq

namespace Typing

def put (typing : Typing) (key : Byte) : Typing :=
  { typing with line := key :: typing.line, literal := false }

def enter (typing : Typing) (key : Byte) : Typing :=
  { entered := typing.entered ++ (key :: typing.line).reverse }

def isWordKey (key : Byte) : Bool :=
  (0x30 ≤ key && key ≤ 0x39) || (0x41 ≤ key && key ≤ 0x5A) ||
    (0x61 ≤ key && key ≤ 0x7A) || key = 0x5F || (0xC0 ≤ key && key ≠ 0xD7 && key ≠ 0xF7)

def eraseWord (typing : Typing) : Typing :=
  { typing with line := (typing.line.dropWhile fun key => !isWordKey key).dropWhile isWordKey }

/-- The return key enters a line feed and the key for the end of input a zero. The keys that
send signals throw away what was typed, and those that hold the output leave no byte. -/
def press (typing : Typing) (key : Byte) : Typing :=
  if typing.literal then typing.put key
  else if key = 0x11 ∨ key = 0x12 ∨ key = 0x13 then typing
  else if key = 0x03 ∨ key = 0x1A ∨ key = 0x1C then {}
  else if key = 0x0A ∨ key = 0x0D then typing.enter 0x0A
  else if key = 0x04 then typing.enter 0x00
  else if key = 0x15 then { typing with line := [] }
  else if key = 0x16 then { typing with literal := true }
  else if key = 0x17 then typing.eraseWord
  else if key = 0x7F then { typing with line := typing.line.drop 1 }
  else typing.put key

def bytes (typing : Typing) : List Byte :=
  typing.entered ++ typing.line.reverse

@[simp] theorem bytes_put (typing : Typing) (key : Byte) :
    (typing.put key).bytes = typing.bytes ++ [key] := by
  simp [bytes, put]

@[simp] theorem bytes_enter (typing : Typing) (key : Byte) :
    (typing.enter key).bytes = typing.bytes ++ [key] := by
  simp [bytes, enter]

def ofKeys (keys : List Byte) : Typing :=
  keys.foldl press {}

end Typing

end LittleComputer

import LittleComputer.Text.Numeral

namespace LittleComputer

/-! Control characters written out -/

namespace Text

/-- Characters that could begin or carry a command to a terminal are written by their
code. All others, ends of lines among them, stand for themselves. -/
def escapeChar (char : Char) : List Char :=
  let code := char.toNat
  let digits := (Numeral.hexDigits 2 code).map Char.toLower
  if code = 0x07 ∨ code = 0x08 ∨ code = 0x0C ∨ code = 0x1B ∨ code = 0x7F then
    ['\\', 'x'] ++ digits
  else if 0x80 ≤ code ∧ code < 0xA0 then
    ['\\', 'u', '\x7b'] ++ digits ++ ['\x7d']
  else
    [char]

def escaped (text : String) : String :=
  String.ofList (text.toList.flatMap escapeChar)

end Text

end LittleComputer

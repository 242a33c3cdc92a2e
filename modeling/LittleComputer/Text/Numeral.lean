import LittleComputer.Word

namespace LittleComputer

/-! Numbers as text -/

namespace Numeral

def hexDigit (value : Nat) : Char :=
  Char.ofNat (if value < 10 then 48 + value else 55 + value)

/-- The last `width` hexadecimal digits of `value`, in upper case. -/
def hexDigits : (width : Nat) → (value : Nat) → List Char
  | 0, _ => []
  | width + 1, value => hexDigits width (value / 16) ++ [hexDigit (value % 16)]

@[simp] theorem length_hexDigits (width value : Nat) :
    (hexDigits width value).length = width := by
  induction width generalizing value with
  | zero => rfl
  | succ width ih => simp [hexDigits, ih]

def decimalDigits (value : Nat) : List Char :=
  Nat.toDigits 10 value

def decimal (value : Nat) : String :=
  String.ofList (decimalDigits value)

def signedDecimal : Int → String
  | .ofNat value => decimal value
  | .negSucc value => "-" ++ decimal (value + 1)

end Numeral

namespace Word

def hex (word : Word) : String :=
  "x" ++ String.ofList (Numeral.hexDigits 4 word.toNat)

end Word

namespace Byte

def hex (byte : Byte) : String :=
  "x" ++ String.ofList (Numeral.hexDigits 2 byte.toNat)

end Byte

end LittleComputer

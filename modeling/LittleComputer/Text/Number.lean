namespace LittleComputer

/-! Reading numbers -/

inductive NumberError where
  | empty
  | invalidDigit
  | tooLarge
  deriving DecidableEq

def NumberError.message : NumberError → String
  | empty => "cannot parse integer from empty string"
  | invalidDigit => "invalid digit found in string"
  | tooLarge => "number too large to fit in target type"

namespace Number

def digitValue? (radix : Nat) (digit : Char) : Option Nat :=
  let value :=
    if '0' ≤ digit ∧ digit ≤ '9' then digit.toNat - '0'.toNat
    else if 'a' ≤ digit ∧ digit ≤ 'z' then digit.toNat - 'a'.toNat + 10
    else if 'A' ≤ digit ∧ digit ≤ 'Z' then digit.toNat - 'A'.toNat + 10
    else radix
  if value < radix then some value else none

/-- Reads digits from the left, and stops at the first that is none or that makes the
number reach `bound`. -/
def parseDigits (radix bound : Nat) (value : Nat) : List Char → Except NumberError Nat
  | [] => .ok value
  | digit :: digits =>
      match digitValue? radix digit with
      | none => .error .invalidDigit
      | some low =>
          if value * radix + low < bound then
            parseDigits radix bound (value * radix + low) digits
          else
            .error .tooLarge

def parse (radix bound : Nat) : List Char → Except NumberError Nat
  | [] => .error .empty
  | ['+'] => .error .invalidDigit
  | '+' :: digits => parseDigits radix bound 0 digits
  | digits => parseDigits radix bound 0 digits

def dropSign : List Char → List Char
  | '+' :: rest | '-' :: rest => rest
  | rest => rest

def isExponent : List Char → Bool
  | [] => true
  | mark :: rest =>
      (mark = 'e' || mark = 'E') && !(dropSign rest).isEmpty && (dropSign rest).all Char.isDigit

/-- Whether a text is a decimal number. A point may stand anywhere among the digits, of which
there is at least one, and infinity and what is no number have names. -/
def isDecimal (text : List Char) : Bool :=
  let text := dropSign text
  let whole := text.takeWhile Char.isDigit
  let rest := text.drop whole.length
  let places := if rest.head? = some '.' then (rest.drop 1).takeWhile Char.isDigit else []
  let rest := if rest.head? = some '.' then rest.drop (places.length + 1) else rest
  ["inf", "infinity", "nan"].contains (String.ofList text).toLower ||
    !(whole ++ places).isEmpty && isExponent rest

end Number

end LittleComputer

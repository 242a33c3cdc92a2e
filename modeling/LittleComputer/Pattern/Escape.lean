import LittleComputer.Pattern.Flags
import LittleComputer.Text.Number

namespace LittleComputer

/-! What stands behind a backslash in a regular expression -/

namespace Pattern

inductive Primitive where
  /-- `isByte` says that the character was written as two hexadecimal digits. -/
  | literal (char : Char) (isByte : Bool)
  | charClass (negated : Bool)
  | assertion (atWord : Bool)
  deriving DecidableEq

def readHexDigits (flags : Flags) : (count : Nat) → (value : Nat) → List Char →
    Option (Nat × List Char)
  | 0, value, chars => some (value, chars)
  | _ + 1, _, [] => none
  | count + 1, value, char :: rest =>
      match Number.digitValue? 16 char with
      | none => none
      | some digit => readHexDigits flags count (16 * value + digit) (flags.skip rest)

def readCode (flags : Flags) (count : Nat) (chars : List Char) :
    Option (Primitive × List Char) :=
  match readHexDigits flags count 0 (flags.skip chars) with
  | none => none
  | some (code, rest) =>
      if code.isValidChar then some (.literal (Char.ofNat code) (count = 2), rest) else none

def isSign (char : Char) : Bool :=
  char.toNat < 0x80 && !char.isAlphanum && char ≠ '<' && char ≠ '>'

def readEscape (flags : Flags) : List Char → Option (Primitive × List Char)
  | [] => none
  | char :: rest =>
      let literal (code : Nat) := some (Primitive.literal (Char.ofNat code) false, rest)
      match char with
      | 'x' => readCode flags 2 rest
      | 'u' => readCode flags 4 rest
      | 'U' => readCode flags 8 rest
      | 'd' | 's' | 'w' => some (.charClass false, rest)
      | 'D' | 'S' | 'W' => some (.charClass true, rest)
      | 'a' => literal 0x07
      | 't' => literal 0x09
      | 'n' => literal 0x0A
      | 'v' => literal 0x0B
      | 'f' => literal 0x0C
      | 'r' => literal 0x0D
      | 'A' | 'z' => some (.assertion false, rest)
      | 'b' | 'B' | '<' | '>' => some (.assertion true, rest)
      | _ => if isSign char then literal char.toNat else none

end Pattern

end LittleComputer

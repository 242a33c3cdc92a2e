import LittleComputer.Text.Blank

namespace LittleComputer

/-! How the characters of a regular expression are taken -/

namespace Pattern

structure Flags where
  caseInsensitive : Bool := false
  unicode : Bool := true
  extended : Bool := false
  deriving DecidableEq

def skipExtended (inComment : Bool) : List Char → List Char
  | [] => []
  | char :: rest =>
      if inComment then skipExtended (char ≠ '\n') rest
      else if Text.isBlank char then skipExtended false rest
      else if char = '#' then skipExtended true rest
      else char :: rest

def peekExtended? (inComment : Bool) : List Char → Option Char
  | [] => none
  | char :: rest =>
      if Text.isBlank char then peekExtended? inComment rest
      else if !inComment && char = '#' then peekExtended? true rest
      else some char

namespace Flags

def skip (flags : Flags) (chars : List Char) : List Char :=
  if flags.extended then skipExtended false chars else chars

def peek? (flags : Flags) (chars : List Char) : Option Char :=
  if flags.extended then (peekExtended? false chars).or chars.head? else chars.head?

/-- Whether a character can be matched by itself. There is no table of the cases of letters,
and no byte that could stand within a character. -/
def acceptsChar (flags : Flags) (char : Char) (isByte : Bool) : Bool :=
  if flags.unicode then !flags.caseInsensitive else !isByte || char.toNat < 0x80

def acceptsMember (flags : Flags) (char : Char) : Bool :=
  if flags.unicode then !flags.caseInsensitive else char.toNat < 0x80

def acceptsClass (flags : Flags) (negated : Bool) : Bool :=
  !flags.unicode && !negated

def acceptsNamed (flags : Flags) (negated : Bool) : Bool :=
  if flags.unicode then !flags.caseInsensitive else !negated

end Flags

end Pattern

end LittleComputer

import LittleComputer.Pattern.Flags
import LittleComputer.Text.Digit

namespace LittleComputer

/-! What stands behind an opening parenthesis of a regular expression -/

namespace Pattern

inductive Opening where
  | settings (flags : Flags)
  | group (flags : Flags) (name : Option String)
  deriving DecidableEq

def beginsName (char : Char) : Bool :=
  char = '_' || Text.isLetter char

def continuesName (char : Char) : Bool :=
  char = '_' || char = '.' || char = '[' || char = ']' || Text.isAlphanumeric char

def readName : List Char → Option (String × List Char)
  | [] => none
  | first :: rest =>
      let name := rest.takeWhile continuesName
      match beginsName first, rest.drop name.length with
      | true, '>' :: rest => some (String.ofList (first :: name), rest)
      | _, _ => none

def isFlag (char : Char) : Bool :=
  ['i', 'm', 's', 'U', 'u', 'R', 'x'].contains char

/-- Flags behind a dash are turned off. The others are about greed and the ends of lines. -/
def Flags.set (flags : Flags) (enabled : Bool) (flag : Char) : Flags :=
  match flag with
  | 'i' => { flags with caseInsensitive := enabled }
  | 'u' => { flags with unicode := enabled }
  | 'x' => { flags with extended := enabled }
  | _ => flags

/-- Reads flags up to a colon or the closing parenthesis. Nothing stands there twice, and
something stands behind a dash. -/
def readFlags (flags : Flags) (seen : List Char) : List Char → Option (Opening × List Char)
  | [] => none
  | char :: rest =>
      if char = ':' ∨ char = ')' then
        if seen.head? = some '-' then none
        else if char = ':' then some (.group flags none, rest)
        else if seen.isEmpty then none
        else some (.settings flags, rest)
      else if seen.contains char then none
      else if char = '-' then readFlags flags (char :: seen) rest
      else if isFlag char then
        readFlags (flags.set (!seen.contains '-') char) (char :: seen) rest
      else none

def readOpening (flags : Flags) : List Char → Option (Opening × List Char)
  | '?' :: '=' :: _ | '?' :: '!' :: _ => none
  | '?' :: '<' :: '=' :: _ | '?' :: '<' :: '!' :: _ => none
  | '?' :: 'P' :: '<' :: rest | '?' :: '<' :: rest =>
      (readName rest).map fun (name, rest) => (.group flags (some name), rest)
  | '?' :: rest => readFlags flags [] rest
  | rest => some (.group flags none, rest)

end Pattern

end LittleComputer

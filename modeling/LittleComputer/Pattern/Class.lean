import LittleComputer.Pattern.Escape

namespace LittleComputer

/-! Bracketed classes of a regular expression -/

namespace Pattern

/-- Parts side by side are one level deeper than the deepest of them. -/
def joinedDepth : List Nat → Nat
  | [] => 0
  | [depth] => depth
  | depths => depths.foldl max 0 + 1

def operationDepth : (left : Option Nat) → (right : Nat) → Nat
  | none, right => right
  | some left, right => max left right + 1

def classNames : List String :=
  ["alnum", "alpha", "ascii", "blank", "cntrl", "digit", "graph", "lower", "print", "punct",
    "space", "upper", "word", "xdigit"]

/-- Behind an opening bracket the name of a class may stand between colons. Gives whether it
is negated. -/
def readNamed? : List Char → Option (Bool × List Char)
  | ':' :: rest =>
      let negated := rest.head? = some '^'
      let rest := if negated then rest.drop 1 else rest
      let name := rest.takeWhile (· ≠ ':')
      match rest.drop name.length with
      | ':' :: ']' :: rest =>
          if classNames.contains (String.ofList name) then some (negated, rest) else none
      | _ => none
  | _ => none

def readItem (flags : Flags) : List Char → Option (Primitive × List Char)
  | [] => none
  | '\\' :: rest => readEscape flags rest
  | char :: rest => some (.literal char false, rest)

def acceptsItem (flags : Flags) : Primitive → Bool
  | .literal char _ => flags.acceptsMember char
  | .charClass negated => flags.acceptsClass negated
  | .assertion _ => false

def acceptsRange (flags : Flags) : (first last : Primitive) → Bool
  | .literal first _, .literal last _ =>
      first ≤ last && flags.acceptsMember first && flags.acceptsMember last
  | _, _ => false

/-- A dash makes a range, unless a bracket or another dash follows it. -/
def readMember (flags : Flags) (chars : List Char) : Option (List Char) := do
  let (first, rest) ← readItem flags chars
  match flags.skip rest with
  | [] => none
  | '-' :: after =>
      if flags.peek? after = some ']' ∨ flags.peek? after = some '-' then
        if acceptsItem flags first then some ('-' :: after) else none
      else
        let (last, rest) ← readItem flags (flags.skip after)
        if acceptsRange flags first last then some rest else none
  | rest => if acceptsItem flags first then some rest else none

def readDashes (flags : Flags) : (fuel : Nat) → (count : Nat) → List Char →
    Nat × List Char
  | fuel + 1, count, '-' :: rest => readDashes flags fuel (count + 1) (flags.skip rest)
  | _, count, chars => (count, chars)

def openClass (flags : Flags) (chars : List Char) : Bool × List Nat × List Char :=
  let chars := flags.skip chars
  let negated := chars.head? = some '^'
  let chars := if negated then flags.skip (chars.drop 1) else chars
  let (dashes, chars) := readDashes flags chars.length 0 chars
  match dashes, chars with
  | 0, ']' :: rest => (negated, [0], flags.skip rest)
  | _, _ => (negated, List.replicate dashes 0, chars)

/-- Reads members up to the closing bracket. Gives the depth of the class. -/
def readMembers (flags : Flags) : (fuel : Nat) → (left : Option Nat) → (members : List Nat) →
    List Char → Option (Nat × List Char)
  | 0, _, _, _ => none
  | fuel + 1, left, members, chars =>
      let operate (rest : List Char) :=
        readMembers flags fuel (some (operationDepth left (joinedDepth members))) [] rest
      match flags.skip chars with
      | [] => none
      | ']' :: rest => some (operationDepth left (joinedDepth members), rest)
      | '[' :: rest =>
          match readNamed? rest with
          | some (negated, rest) =>
              if flags.acceptsNamed negated then
                readMembers flags fuel left (0 :: members) rest
              else none
          | none =>
              let (negated, inner, rest) := openClass flags rest
              if negated && !flags.unicode || !inner.isEmpty && !flags.acceptsMember '-' then
                none
              else
                match readMembers flags fuel none inner rest with
                | none => none
                | some (depth, rest) =>
                    readMembers flags fuel left ((depth + 1) :: members) rest
      | '&' :: '&' :: rest => operate rest
      | '-' :: '-' :: rest => operate rest
      | '~' :: '~' :: rest => operate rest
      | chars =>
          match readMember flags chars with
          | none => none
          | some rest => readMembers flags fuel left (0 :: members) rest

def readClass (flags : Flags) (chars : List Char) : Option (Nat × List Char) :=
  let (negated, members, rest) := openClass flags chars
  if negated && !flags.unicode || !members.isEmpty && !flags.acceptsMember '-' then none
  else (readMembers flags (chars.length + 1) none members rest).map fun (depth, rest) =>
    (depth + 1, rest)

end Pattern

end LittleComputer

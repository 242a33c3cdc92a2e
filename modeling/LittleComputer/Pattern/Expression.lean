import LittleComputer.Pattern.Class
import LittleComputer.Pattern.Group

namespace LittleComputer

/-! Which regular expressions can be used: those of characters, classes, groups, branches and
repetitions without counts -/

namespace Pattern

/-- A part of a branch. The depth counts what it is nested in. -/
structure Part where
  depth : Nat := 0
  repeatable : Bool := true
  deriving DecidableEq

def acceptsPrimitive (flags : Flags) : Primitive → Bool
  | .literal char isByte => flags.acceptsChar char isByte
  | .charClass negated => flags.acceptsClass negated
  | .assertion atWord => !atWord || !flags.unicode

def readAtom (flags : Flags) : List Char → Option (Nat × List Char)
  | [] => none
  | '[' :: rest => readClass flags rest
  | '\\' :: rest =>
      match readEscape flags rest with
      | none => none
      | some (primitive, rest) =>
          if acceptsPrimitive flags primitive then some (0, rest) else none
  | '^' :: rest | '$' :: rest => some (0, rest)
  | '.' :: rest => if flags.unicode then some (0, rest) else none
  | '\x7b' :: _ => none
  | char :: rest => if flags.acceptsChar char false then some (0, rest) else none

def repeatLast : List Part → Option (List Part)
  | ⟨depth, true⟩ :: parts => some (⟨depth + 1, true⟩ :: parts)
  | _ => none

def skipLazy : List Char → List Char
  | '?' :: rest => rest
  | rest => rest

def branchesDepth (branches : List Nat) (parts : List Part) : Nat :=
  let last := joinedDepth (parts.map (·.depth))
  if branches.isEmpty then last else branches.foldl max last + 1

/-- Reads up to the parenthesis that closes the group, or to the end. Gives the depth, the
names of groups, of which no two are equal, and what is left. -/
def readBranches : (fuel : Nat) → (flags : Flags) → (names : List String) →
    (branches : List Nat) → (parts : List Part) → List Char →
    Option (Nat × List String × List Char)
  | 0, _, _, _, _, _ => none
  | fuel + 1, flags, names, branches, parts, chars =>
      match flags.skip chars with
      | [] => some (branchesDepth branches parts, names, [])
      | ')' :: rest => some (branchesDepth branches parts, names, ')' :: rest)
      | '|' :: rest =>
          let last := joinedDepth (parts.map (·.depth))
          readBranches fuel flags names (last :: branches) [] rest
      | '(' :: rest =>
          match readOpening flags (flags.skip rest) with
          | none => none
          | some (.settings flags, rest) =>
              readBranches fuel flags names branches ({ repeatable := false } :: parts) rest
          | some (.group inner name, rest) =>
              if name.any names.contains then none
              else
                match readBranches fuel inner (name.toList ++ names) [] [] rest with
                | some (depth, names, ')' :: rest) =>
                    let part : Part := { depth := depth + 1 }
                    readBranches fuel flags names branches (part :: parts) rest
                | _ => none
      | '?' :: rest | '*' :: rest | '+' :: rest =>
          match repeatLast parts with
          | none => none
          | some parts => readBranches fuel flags names branches parts (skipLazy rest)
      | chars =>
          match readAtom flags chars with
          | none => none
          | some (depth, rest) =>
              readBranches fuel flags names branches ({ depth } :: parts) rest

def depthLimit : Nat := 250

def isWellFormed (text : String) : Bool :=
  match readBranches (text.length + 1) {} [] [] [] text.toList with
  | some (depth, _, []) => depth ≤ depthLimit
  | _ => false

end Pattern

end LittleComputer

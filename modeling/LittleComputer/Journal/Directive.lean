import LittleComputer.Journal.Event
import LittleComputer.Pattern.Expression
import LittleComputer.Text.Slice

namespace LittleComputer

/-! Directives for the journal: `target[span{field=value}]=level`, or a part of this -/

structure Directive where
  target : String := ""
  field : Option String := none
  /-- It is about what happens in a span, or while a field of a span has some value. There
  are no spans. -/
  inSpan : Bool := false
  level : Option Level := some .trace
  deriving DecidableEq

namespace Directive

def concerns (directive : Directive) (event : Event) : Bool :=
  !directive.inSpan && event.target.startsWith directive.target &&
    directive.field.all event.hasField

def admits (directive : Directive) (level : Level) : Bool :=
  directive.level.any level.within

/-- A longer target is more specific, and of equal targets the one with a field. -/
def isAsSpecificAs (directive other : Directive) : Bool :=
  if directive.target.length = other.target.length then
    match directive.field, other.field with
    | _, none => true
    | none, some _ => false
    | some field, some otherField => otherField ≤ field
  else
    other.target.length < directive.target.length

def readLevel (source : List Char) (directive : Directive) (start : Nat) : Option Directive :=
  match Text.splitAt? start source with
  | none => none
  | some (_, []) => some directive
  | some (_, level) =>
      (Level.parse? (String.ofList level)).map ({ directive with level := · })

def readField (directive : Directive) (text : List Char) : Option Directive :=
  if text.isEmpty then none
  else
    match (String.ofList text).splitOn "=" with
    | name :: value :: _ =>
        if Number.isDecimal value.toList || Pattern.isWellFormed value then
          some { directive with field := some name, inSpan := true }
        else none
    | _ => some { directive with field := some (String.ofList text) }

def readEnd (source : List Char) (directive : Directive) (start : Nat) :
    List Char → Option Directive
  | [] => some directive
  | '=' :: _ => readLevel source directive (start + 1)
  | _ => none

def readScope (source : List Char) (directive : Directive) (start : Nat) (chars : List Char) :
    Option Directive := do
  let span := chars.takeWhile fun char => char ≠ ']' && char ≠ '\x7b'
  let stop := start + Text.size span
  -- The name has to be in one piece, though there is no span to compare it with.
  let _ ← Text.slice? start stop source
  match chars.drop span.length with
  | ']' :: rest => readEnd source { directive with inSpan := true } (stop + 1) rest
  | '\x7b' :: rest =>
      let field := rest.takeWhile (· ≠ '\x7d')
      let fieldStop := stop + 1 + Text.size field
      match rest.drop field.length with
      | '\x7d' :: ']' :: rest =>
          let piece ← Text.slice? (stop + 1) fieldStop source
          let directive ← readField { directive with inSpan := !span.isEmpty } piece
          readEnd source directive (fieldStop + 2) rest
      | _ => none
  | _ => none

def beginsName (char : Char) : Bool :=
  char = '-' || char = ':' || char = '_' || Text.isAlphanumeric char

def ofWord (text : String) : Directive :=
  (Level.parse? text).elim { target := text } ({ level := · })

/-- The marks are looked for in the text without the blanks around it, and what stands between
two of them is taken from the whole text, at the same positions. -/
def parse? (text : String) : Option Directive :=
  let source := text.toList
  match Text.trim source with
  | [] => none
  | '[' :: scope => readScope source {} 1 scope
  | first :: rest =>
      if beginsName first then do
        let name := first :: rest.takeWhile fun char => char ≠ '=' && char ≠ '['
        let stop := Text.size name
        match (first :: rest).drop name.length with
        | '=' :: _ =>
            let target ← Text.slice? 0 stop source
            readLevel source { target := String.ofList target } (stop + 1)
        | '[' :: scope =>
            let target ← Text.slice? 0 stop source
            readScope source { target := String.ofList target } (stop + 1) scope
        | _ => some (ofWord text)
      else none

end Directive

end LittleComputer

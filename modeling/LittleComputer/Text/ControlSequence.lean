namespace LittleComputer

/-! Control sequences in a text, and the text without them -/

inductive ControlState where
  | outside
  | escape
  | escapeIntermediate
  | parameters
  | deviceEntry
  | deviceParameters
  | deviceIntermediate
  | deviceString
  | messageString
  | command
  deriving DecidableEq

namespace ControlState

def inRange (first last : Nat) (char : Char) : Bool :=
  first ≤ char.toNat && char.toNat ≤ last

def isIntermediate (char : Char) : Bool := inRange 0x20 0x2F char

def isParameter (char : Char) : Bool := inRange 0x30 0x3F char

def isPrivateMark (char : Char) : Bool := inRange 0x3C 0x3F char

def isFinal (char : Char) : Bool := inRange 0x40 0x7E char

/-- A byte of this value ends a string wherever it stands in a character. -/
def terminator : UInt8 := 0x9C

def holdsTerminator (char : Char) : Bool :=
  (String.utf8EncodeChar char).contains terminator

def afterEscape (char : Char) : ControlState :=
  if char = '[' then parameters
  else if char = ']' then command
  else if char = 'P' then deviceEntry
  else if char = 'X' ∨ char = '^' ∨ char = '_' then messageString
  else if isIntermediate char then escapeIntermediate
  else if isParameter char ∨ isFinal char then outside
  else escape

def afterDevice (state : ControlState) (char : Char) : ControlState :=
  if isIntermediate char then deviceIntermediate
  else if isFinal char then deviceString
  else if isParameter char then
    match state with
    | deviceEntry => deviceParameters
    | deviceParameters => if isPrivateMark char then deviceString else deviceParameters
    | _ => deviceString
  else state

def next (state : ControlState) (char : Char) : ControlState :=
  if char.toNat = 0x18 ∨ char.toNat = 0x1A then outside
  else if char.toNat = 0x1B then escape
  else
    match state with
    | outside => outside
    | escape => afterEscape char
    | escapeIntermediate => if isParameter char ∨ isFinal char then outside else state
    | parameters => if isFinal char then outside else state
    | deviceEntry | deviceParameters | deviceIntermediate => state.afterDevice char
    | deviceString | messageString => if holdsTerminator char then outside else state
    | command => if char.toNat = 0x07 then outside else state

/-- Tabulators, ends of lines and of pages do their work also within a sequence, but not
within a string. -/
def obeysLayout : ControlState → Bool
  | outside | escape | escapeIntermediate | parameters => true
  | _ => false

end ControlState

namespace Text

def isLayout (char : Char) : Bool :=
  char = '\t' || char = '\n' || char.toNat = 0x0C || char = '\r'

def isVisible (char : Char) : Bool :=
  isLayout char || (0x20 ≤ char.toNat && char.toNat ≠ 0x7F)

def isShown (state : ControlState) (char : Char) : Bool :=
  if state = .outside then isVisible char
  else state.obeysLayout && isLayout char

/-- Leaves control characters and sequences out. A sequence in which something is shown is
taken up again behind the text that follows, unless that has characters beyond ASCII. -/
def dropControls (showing : Bool) (state : ControlState) : List Char → List Char
  | [] => []
  | char :: rest =>
      if (showing && isVisible char) || isShown state char then
        char :: dropControls true (if char.toNat < 0x80 then state else .outside) rest
      else
        dropControls false (state.next char) rest

def styled (style text : String) : String :=
  "\x1b[" ++ style ++ "m" ++ text ++ "\x1b[0m"

def withoutControls (text : String) : String :=
  String.ofList (dropControls false .outside text.toList)

end Text

end LittleComputer

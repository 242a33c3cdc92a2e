import LittleComputer.CommandLine.Number
import LittleComputer.Machine
import LittleComputer.Text.ControlSequence

namespace LittleComputer

/-! The arguments of the program -/

structure Options where
  images : List String := []
  entry : Option Word := none
  limit : Option UInt64 := none
  quiet : Bool := false
  verbosity : Nat := 0
  deriving DecidableEq

def Options.config (options : Options) : Config where
  entry := options.entry.getD Region.user.first
  limit := options.limit
  banner := !options.quiet

inductive Flag where
  | quiet
  | verbose
  | version
  | help
  deriving DecidableEq

inductive ValueOption where
  | entry
  | maxInstructions
  deriving DecidableEq

def ValueOption.usage : ValueOption → String
  | entry => "--entry <ADDR>"
  | maxInstructions => "--max-instructions <N>"

inductive Switch where
  | flag (flag : Flag)
  | value (option : ValueOption)
  deriving DecidableEq

namespace Switch

def ofName? : String → Option Switch
  | "quiet" => some (flag .quiet)
  | "verbose" => some (flag .verbose)
  | "version" => some (flag .version)
  | "help" => some (flag .help)
  | "entry" => some (value .entry)
  | "max-instructions" => some (value .maxInstructions)
  | _ => none

end Switch

def Flag.ofLetter? : Char → Option Flag
  | 'v' => some .verbose
  | 'V' => some .version
  | 'h' => some .help
  | _ => none

inductive Refusal where
  | version
  | help
  | invalidValue (option : ValueOption) (text reason : String)
  | misuse
  deriving DecidableEq

inductive Pending where
  | nothing
  | images (names : List String)
  | option (option : ValueOption)
  | value (option : ValueOption) (text : String)
  deriving DecidableEq

structure ArgumentReader where
  options : Options := {}
  pending : Pending := .nothing

namespace ArgumentReader

def giveValue (options : Options) (option : ValueOption) (text : String) :
    Except Refusal Options :=
  match option with
  | .entry =>
      if options.entry.isSome then .error .misuse
      else
        match Number.readAddress text with
        | .ok address => .ok { options with entry := some address }
        | .error error => .error (.invalidValue .entry text
            ("invalid address `" ++ text ++ "`: " ++ error.message))
  | .maxInstructions =>
      if options.limit.isSome then .error .misuse
      else
        match Number.readLimit text with
        | .ok limit => .ok { options with limit := some limit }
        | .error error => .error (.invalidValue .maxInstructions text error.message)

def settle (reader : ArgumentReader) : Except Refusal Options :=
  match reader.pending with
  | .nothing => .ok reader.options
  | .images names =>
      if names.any String.isEmpty then .error .misuse
      else .ok { reader.options with images := reader.options.images ++ names }
  | .option _ => .error .misuse
  | .value option text => giveValue reader.options option text

def giveFlag (reader : ArgumentReader) (flag : Flag) : Except Refusal ArgumentReader := do
  let options ← reader.settle
  match flag with
  | .quiet =>
      if options.quiet then throw .misuse
      return { options := { options with quiet := true } }
  | .verbose => return { options := { options with verbosity := options.verbosity + 1 } }
  | .version => throw .version
  | .help => throw .help

/-- An argument that is no option. It follows an option without a value as its value. -/
def givePlain (reader : ArgumentReader) (text : String) : Except Refusal ArgumentReader :=
  match reader.pending with
  | .option option => .ok { reader with pending := .value option text }
  | .images names => .ok { reader with pending := .images (names ++ [text]) }
  | _ => do
      let options ← reader.settle
      return { options, pending := .images [text] }

def giveImage (reader : ArgumentReader) (text : String) : Except Refusal ArgumentReader :=
  match reader.pending with
  | .option _ => .error .misuse
  | _ => reader.givePlain text

def giveSwitch (reader : ArgumentReader) (switch : Switch) (attached : Option String) :
    Except Refusal ArgumentReader :=
  match switch, attached with
  | .flag flag, none => reader.giveFlag flag
  | .flag _, some _ => .error .misuse
  | .value option, none => do
      let options ← reader.settle
      return { options, pending := .option option }
  | .value option, some text => do
      let options ← reader.settle
      let options ← giveValue options option text
      return { options }

def giveLong (reader : ArgumentReader) (body : String) : Except Refusal ArgumentReader :=
  match body.splitOn "=" with
  | [] => .error .misuse
  | name :: attached =>
      match Switch.ofName? name with
      | none => .error .misuse
      | some switch =>
          reader.giveSwitch switch
            (if attached.isEmpty then none else some ("=".intercalate attached))

def giveLetter (reader : ArgumentReader) (letter : Char) : Except Refusal ArgumentReader :=
  match Flag.ofLetter? letter with
  | none => .error .misuse
  | some flag => reader.giveFlag flag

def give (reader : ArgumentReader) (argument : String) : Except Refusal ArgumentReader :=
  match argument.toList with
  | '-' :: '-' :: body => reader.giveLong (String.ofList body)
  | '-' :: letter :: letters => (letter :: letters).foldlM giveLetter reader
  | _ => reader.givePlain argument

def giveAll (reader : ArgumentReader) : List String → Except Refusal ArgumentReader
  | [] => .ok reader
  | "--" :: arguments => arguments.foldlM giveImage reader
  | argument :: arguments => do
      let reader ← reader.give argument
      reader.giveAll arguments

end ArgumentReader

def Options.parse (arguments : List String) : Except Refusal Options := do
  let reader ← ArgumentReader.giveAll {} arguments
  let options ← reader.settle
  if options.images.isEmpty then
    throw .misuse
  return options

namespace Refusal

def exitCode : Refusal → Nat
  | version | help => 0
  | invalidValue .. | misuse => 2

/-- What is said about it, if it is about a value. No styles or commands to a terminal are
left in it, also none that were in the value. -/
def message? : Refusal → Option String
  | invalidValue option text reason =>
      some (Text.withoutControls
        (Text.styled "31" "error:" ++ " invalid value '" ++ Text.styled "33" text ++
          "' for '" ++ Text.styled "1" option.usage ++ "': " ++ reason ++
          "\n\nFor more information, try '" ++ Text.styled "1" "--help" ++ "'."))
  | _ => none

end Refusal

end LittleComputer

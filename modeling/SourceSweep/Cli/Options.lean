import SourceSweep.Text.Basic

/-! Reading a command line. Every argument is first told apart as an option or a value; then they
are taken in order. Long options may be shortened, no argument stands on its own, and the last
root wins. -/
namespace SourceSweep.Cli
open Text

inductive Flag where
  | dryRun
  | json
  | verbose
  | failOnError
  deriving DecidableEq, Repr

inductive Switch where
  | help
  | root
  | flag (flag : Flag)
  deriving DecidableEq, Repr

structure Settings where
  root : Text
  flags : List Flag
  deriving DecidableEq, Repr

def Settings.has (settings : Settings) (flag : Flag) : Bool := settings.flags.contains flag

inductive Reading where
  | misuse
  | help
  | run (settings : Settings)
  deriving DecidableEq, Repr

def longNames : List (Text × Switch) :=
  [("help".toList, .help), ("root".toList, .root), ("dry-run".toList, .flag .dryRun),
    ("json".toList, .flag .json), ("verbose".toList, .flag .verbose),
    ("fail-on-error".toList, .flag .failOnError)]

inductive Word where
  | value (text : Text)
  | divider
  | unknown
  | long (switch : Switch) (attached : Option Text)
  | short (attached : Option Text)
  deriving DecidableEq, Repr

/-- Whether a text without its hyphen reads as a number, which makes it a value. -/
def isUnsigned (text : Text) : Bool :=
  let text := if text.getLast? = some '\n' then text.dropLast else text
  let fraction := text.dropWhile isDecimalDigit
  if fraction.isEmpty then !text.isEmpty
  else match fraction with
    | '.' :: digits => !digits.isEmpty && digits.all isDecimalDigit
    | _ => false

def splitEquals (text : Text) : Text × Option Text :=
  match text.dropWhile (· ≠ '=') with
  | [] => (text, none)
  | _ :: attached => (text.takeWhile (· ≠ '='), some attached)

def unnamed (argument : Text) : Word :=
  if isUnsigned (argument.drop 1) || argument.contains ' ' then .value argument else .unknown

def readLong (argument : Text) : Option Word :=
  let (name, attached) := splitEquals (argument.drop 2)
  match longNames.filter fun option => name.isPrefixOf option.1 with
  | [] => some (unnamed argument)
  | [option] => some (.long option.2 attached)
  | _ => none

def readShort (argument : Text) : Word :=
  match argument.drop 1 with
  | ['h'] => .short none
  | 'h' :: '=' :: attached => .short (some attached)
  | 'h' :: attached => .short (some attached)
  | _ => unnamed argument

def readWord (argument : Text) : Option Word :=
  match argument with
  | ['-', '-'] => some .divider
  | '-' :: '-' :: _ => readLong argument
  | '-' :: _ :: _ => some (readShort argument)
  | _ => some (.value argument)

def readWords : List Text → Option (List Word)
  | [] => some []
  | argument :: rest =>
    match readWord argument with
    | none => none
    | some .divider => some (.divider :: rest.map .value)
    | some word => (readWords rest).map (word :: ·)

def repeatsHelp : Option Text → Bool
  | none => true
  | some attached => !attached.isEmpty && attached.all (· = 'h')

def take (stray : Bool) (settings : Settings) : List Word → Reading
  | [] => if stray then .misuse else .run settings
  | .value _ :: rest | .divider :: rest | .unknown :: rest => take true settings rest
  | .short attached :: _ => if repeatsHelp attached then .help else .misuse
  | .long .help none :: _ => .help
  | .long .root (some root) :: rest => take stray { settings with root } rest
  | .long .root none :: .value root :: rest => take stray { settings with root } rest
  | .long (.flag flag) none :: rest =>
    take stray { settings with flags := flag :: settings.flags } rest
  | .long _ _ :: _ => .misuse

def read (root : Text) (arguments : List Text) : Reading :=
  match readWords arguments with
  | none => .misuse
  | some words => take false ⟨root, []⟩ words

end SourceSweep.Cli

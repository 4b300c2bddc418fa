import SourceSweep.Text.Word

/-! The forms in which a script refers to a class: as a quoted name, in a `className` attribute,
as a member of a style module, or as an argument of a class list. -/
namespace SourceSweep.Usage
open Text

/-! A pattern is a row of parts that have to follow each other. It is found when some choice of
lengths for its open parts fits somewhere. -/

inductive Part where
  | anyOf (choices : List Text)
  | one (fits : Char → Bool)
  | many (fits : Char → Bool)
  | edge

abbrev Pattern := List Part

structure Spot where
  before : Option Char
  rest : Text

def Spot.past (spot : Spot) (text rest : Text) : Spot := ⟨text.getLast?.or spot.before, rest⟩

def anyRun (fits : Char → Bool) (holds : Spot → Bool) : Option Char → Text → Bool
  | before, [] => holds ⟨before, []⟩
  | before, c :: rest =>
    holds ⟨before, c :: rest⟩ || (fits c && anyRun fits holds (some c) rest)

def fitsAt : Pattern → Spot → Bool
  | [], _ => true
  | .anyOf choices :: parts, spot => choices.any fun choice =>
    match choice.isPrefixOf? spot.rest with
    | some rest => fitsAt parts (spot.past choice rest)
    | none => false
  | .one fits :: parts, spot =>
    match spot.rest with
    | c :: rest => fits c && fitsAt parts ⟨some c, rest⟩
    | [] => false
  | .many fits :: parts, spot => anyRun fits (fitsAt parts) spot.before spot.rest
  | .edge :: parts, spot => isEdge spot.before spot.rest.head? && fitsAt parts spot

def found (pattern : Pattern) (text : Text) : Bool :=
  anyRun (fun _ => true) (fitsAt pattern) none text

/-! The patterns of a name. -/

def isQuote (c : Char) : Bool := c = '\x27' || c = '\x22' || c = '\x60'

def isOpenBrace (c : Char) : Bool := c = '{'
def isCloseBrace (c : Char) : Bool := c = '}'

def word (text : String) : Part := .anyOf [text.toList]
def blanks : Part := .many isBlank
def quote : Part := .one isQuote

def quotedName (name : Text) : Pattern := [quote, .anyOf [name], quote]

def quotedPhrase (name : Text) : Pattern :=
  [quote, .many (!isQuote ·), .edge, .anyOf [name], .edge, .many (!isQuote ·), quote]

def classAttribute : Pattern := [word "className", blanks, word "=", blanks]

def attributeText (name : Text) : Pattern := classAttribute ++ quotedPhrase name

def attributeExpression (name : Text) : Pattern :=
  classAttribute ++ [.one isOpenBrace, .many (!isCloseBrace ·)] ++ quotedPhrase name ++
    [.many (!isCloseBrace ·), .one isCloseBrace]

def moduleMember (name : Text) : Pattern := [word "styles.", .anyOf [name], .edge]

def moduleIndex (name : Text) : Pattern := [word "["] ++ quotedName name ++ [word "]"]

def classListCall (name : Text) : Pattern :=
  [word "classList.", .anyOf ["add".toList, "remove".toList, "toggle".toList, "contains".toList],
    blanks, word "("] ++ quotedName name ++ [word ")"]

def references (name : Text) : List Pattern :=
  [quotedName name, attributeText name, attributeExpression name, moduleMember name,
    moduleIndex name, classListCall name]

def refersTo (script name : Text) : Bool := (references name).any (found · script)

end SourceSweep.Usage

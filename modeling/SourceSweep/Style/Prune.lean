import SourceSweep.Text.Lines
import SourceSweep.Text.Word

/-! Pruning a stylesheet, line by line. Outside a block a line may ask whether its class is used;
the block that the line opens is kept or dropped as a whole, to the line on which its braces are
balanced again. A line that continues a selector list never asks. -/
namespace SourceSweep.Style
open Text

/-! Class names: a full stop, an ASCII letter or underscore, then word characters and hyphens. They
are read off the raw text, wherever they stand. -/

def beginsName (c : Char) : Bool := c.isAlpha || c = '_'

def continuesName (c : Char) : Bool := isWordChar c || c = '-'

def readName? : Text → Option (Text × Text)
  | [] => none
  | c :: rest =>
    if beginsName c then some (c :: rest.takeWhile continuesName, rest.dropWhile continuesName)
    else none

def classTokens : Text → List Text
  | [] => []
  | c :: rest =>
    if c = '.' then (match readName? rest with
      | some (name, _) => name :: classTokens rest
      | none => classTokens rest)
    else classTokens rest

def classNames (css : Text) : List Text := (classTokens css).eraseDups

def classCount (css : Text) : Nat := (classNames css).length

/-! Lines on which a rule with a single-class selector begins. The rest of the line is the rule's
body as far as it stands there, closed or still open. -/

def notBrace (c : Char) : Bool := c ≠ '{' && c ≠ '}'

def isBodyEnd (text : Text) : Bool :=
  match text.dropWhile notBrace with
  | [] => true
  | '}' :: rest => allBlank rest
  | _ => false

def ruleClass? (line : Text) : Option Text :=
  match skipBlanks line with
  | '.' :: rest => do
    let (name, rest) ← readName? rest
    match skipBlanks rest with
    | '{' :: body => if isBodyEnd body then some name else none
    | _ => none
  | _ => none

def braceBalance (line : Text) : Int := (line.count '{' : Int) - line.count '}'

/-! The pruning itself. -/

inductive Place where
  | outside
  | inside (depth : Int) (dropping : Bool)
  deriving DecidableEq, Repr

/-- Where a pruning stands; the kept lines are listed latest first. -/
structure Pruning where
  kept : List Text
  place : Place
  deriving DecidableEq, Repr

def Pruning.start : Pruning := ⟨[], .outside⟩

def continuesList (kept : List Text) : Bool :=
  match kept.find? (!allBlank ·) with
  | some line => (trimEnd line).getLast? = some ','
  | none => false

def Pruning.question? (state : Pruning) (line : Text) : Option Text :=
  match state.place with
  | .inside _ _ => none
  | .outside => if continuesList state.kept then none else ruleClass? line

def Pruning.pass (state : Pruning) (line : Text) : Pruning :=
  match state.place with
  | .inside depth dropping =>
    let depth := depth + braceBalance line
    ⟨if dropping then state.kept else line :: state.kept,
      if depth ≤ 0 then .outside else .inside depth dropping⟩
  | .outside =>
    let opened := braceBalance line
    ⟨line :: state.kept, if 0 < opened then .inside opened false else .outside⟩

def Pruning.answer (state : Pruning) (line : Text) (used : Bool) : Pruning :=
  ⟨if used then line :: state.kept else state.kept,
    if line.contains '}' then .outside else .inside 1 (!used)⟩

def Pruning.step (used : Text → Bool) (state : Pruning) (line : Text) : Pruning :=
  match state.question? line with
  | none => state.pass line
  | some name => state.answer line (used name)

def Pruning.text (state : Pruning) : Text := unlines state.kept.reverse

def prune (used : Text → Bool) (css : Text) : Text :=
  ((lines css).foldl (Pruning.step used) .start).text

/-- What a pruning comes to when its questions are put one after another to `ask`, whose state
they may change and which may fail; then the pruning ends there. -/
def pruneAsking {σ ε : Type} (ask : σ → Text → Except ε Bool × σ) :
    σ → Pruning → List Text → Except ε Pruning × σ
  | asked, state, [] => (.ok state, asked)
  | asked, state, line :: rest =>
    match state.question? line with
    | none => pruneAsking ask asked (state.pass line) rest
    | some name =>
      match ask asked name with
      | (.ok used, asked) => pruneAsking ask asked (state.answer line used) rest
      | (.error failure, asked) => (.error failure, asked)

theorem pruneAskingFixed {ε : Type} (used : Text → Bool) (state : Pruning) (rest : List Text) :
    pruneAsking (ε := ε) (fun (_ : Unit) name => (.ok (used name), ())) () state rest =
      (.ok (rest.foldl (Pruning.step used) state), ()) := by
  induction rest generalizing state with
  | nil => rfl
  | cons line rest ih =>
    simp only [pruneAsking, List.foldl_cons, Pruning.step]
    cases state.question? line <;> exact ih _

end SourceSweep.Style

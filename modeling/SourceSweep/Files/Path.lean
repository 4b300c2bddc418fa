import SourceSweep.Text.Lines
import SourceSweep.Text.Utf8

/-! Paths as texts, handled without looking at any file. Locations are the other kind: absolute,
free of links and dots, and listed with the innermost name first. -/
namespace SourceSweep.Files
open Text

abbrev Name := Text

/-- An entry's own name, the name of its directory, and so on up; `[]` is the root. -/
abbrev Location := List Name

def selfName : Name := ['.']
def parentName : Name := ['.', '.']

def isAbsolute (path : Text) : Bool := path.head? = some '/'

def hasNull (path : Text) : Bool := path.contains '\x00'

/-- The names of a path; a slash at the end asks for a directory, as a last dot does. -/
def pathNames (path : Text) : List Name :=
  let names := (cutAt '/' path).filter (!·.isEmpty)
  if path.getLast? = some '/' && !names.isEmpty then names ++ [selfName] else names

def join (dir name : Text) : Text :=
  if isAbsolute name then name
  else if dir.isEmpty || dir.getLast? = some '/' then dir ++ name
  else dir ++ '/' :: name

def notSlash (c : Char) : Bool := c ≠ '/'

def baseName (path : Text) : Text := (path.reverse.takeWhile notSlash).reverse

/-- What precedes the last slash, without slashes at its end unless it has nothing else. -/
def dirName (path : Text) : Text :=
  let head := path.reverse.dropWhile notSlash
  let trimmed := head.dropWhile (!notSlash ·)
  if trimmed.isEmpty then head.reverse else trimmed.reverse

def rootSlashes (path : Text) : Text :=
  match path with
  | '/' :: '/' :: '/' :: _ => ['/']
  | '/' :: '/' :: _ => ['/', '/']
  | '/' :: _ => ['/']
  | _ => []

def tidy (path : Text) : Text :=
  let names := (cutAt '/' path).filter fun name => !name.isEmpty && name ≠ selfName
  let text := rootSlashes path ++ joinWith '/' names
  if text.isEmpty then selfName else text

def climb (rooted : Bool) (names : List Name) (name : Name) : List Name :=
  if name.isEmpty || name = selfName then names
  else if name = parentName then
    match names with
    | [] => if rooted then [] else [name]
    | last :: before => if last = parentName then name :: names else before
  else name :: names

/-- A path with its double dots taken as they stand, whatever the names before them are. -/
def normal (path : Text) : Text :=
  let slashes := rootSlashes path
  let names := (cutAt '/' path).foldl (climb !slashes.isEmpty) []
  let text := slashes ++ joinWith '/' names.reverse
  if text.isEmpty then selfName else text

def Location.path (location : Location) : Text := '/' :: joinWith '/' location.reverse

def absolute (workDir : Location) (path : Text) : Text := normal (join workDir.path path)

def Location.ofPath (path : Text) : Location := (pathNames path).reverse

def extension (name : Name) : Text :=
  let body := name.dropWhile (· = '.')
  if body.contains '.' then '.' :: (body.reverse.takeWhile (· ≠ '.')).reverse else []

end SourceSweep.Files

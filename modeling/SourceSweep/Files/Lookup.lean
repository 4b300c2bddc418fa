import SourceSweep.Files.Errno
import SourceSweep.Files.Store

/-! Where a path leads in a store. Names are taken one by one from a directory on; a link puts the
names of its target in its place, and only so many links are followed. -/
namespace SourceSweep.Files
open Text

def linkLimit : Nat := 40

def nameLimit : Nat := 255

/-- How many bytes a path may take, the null at its end included. -/
def pathLimit : Nat := 4096

namespace Store

def enter (store : Store) (dir : Location) (name : Name) : Except Errno Location :=
  if !store.isDir dir then .error Errno.notDirectory
  else if nameLimit < Utf8.size name then .error Errno.nameTooLong
  else .ok (name :: dir)

def walkNames (store : Store) (follow : Location → Text → List Name → Except Errno Location) :
    Location → List Name → Except Errno Location
  | here, [] => .ok here
  | here, name :: rest =>
    if name = selfName then
      if store.isDir here then walkNames store follow here rest else .error Errno.notDirectory
    else if name = parentName then
      if store.isDir here then walkNames store follow here.tail rest else .error Errno.notDirectory
    else match store.enter here name with
      | .error number => .error number
      | .ok next =>
        match store.get? next with
        | none => .error Errno.noEntry
        | some (.link target) => follow here target rest
        | some _ => walkNames store follow next rest

def origin (dir : Location) (path : Text) : Location := if isAbsolute path then [] else dir

def walk (store : Store) : (links : Nat) → Location → List Name → Except Errno Location
  | 0 => store.walkNames fun _ _ _ => .error Errno.linkLoop
  | links + 1 => store.walkNames fun dir target rest =>
    walk store links (origin dir target) (pathNames target ++ rest)

def accept (path : Text) : Except Errno Unit :=
  if path.isEmpty then .error Errno.noEntry
  else if pathLimit ≤ Utf8.size path then .error Errno.nameTooLong
  else .ok ()

def find (store : Store) (workDir : Location) (path : Text) : Except Errno Location := do
  accept path
  store.walk linkLimit (origin workDir path) (pathNames path)

def findsDir (store : Store) (workDir : Location) (path : Text) : Bool :=
  match store.find workDir path with
  | .ok place => store.isDir place
  | .error _ => false

/-- The directory and the name of the entry that a path names, the entry itself not looked at;
no name if the path ends in dots or is the root. -/
def findSlot (store : Store) (workDir : Location) (path : Text) :
    Except Errno (Location × Option Name) := do
  accept path
  let names := (cutAt '/' path).filter (!·.isEmpty)
  let dir ← store.walk linkLimit (origin workDir path) names.dropLast
  match names.getLast? with
  | none => .ok (dir, none)
  | some name =>
    if !store.isDir dir then .error Errno.notDirectory
    else if name = selfName || name = parentName then .ok (dir, none)
    else .ok (dir, some name)

def findEntry (store : Store) (workDir : Location) (path : Text) : Except Errno Location := do
  match ← store.findSlot workDir path with
  | (dir, some name) =>
    if path.getLast? = some '/' then store.find workDir path
    else
      let place ← store.enter dir name
      if (store.get? place).isSome then .ok place else .error Errno.noEntry
  | (_, none) => store.find workDir path

def linkTarget? (store : Store) (workDir : Location) (path : Text) : Option Text :=
  match store.findEntry workDir path with
  | .ok place => match store.get? place with
    | some (.link target) => some target
    | _ => none
  | .error _ => none

def node? (store : Store) (workDir : Location) (path : Text) : Option Node :=
  if hasNull path then none
  else match store.find workDir path with
    | .ok place => store.get? place
    | .error _ => none

end Store
end SourceSweep.Files

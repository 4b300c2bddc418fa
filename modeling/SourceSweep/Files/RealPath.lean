import SourceSweep.Files.Host

/-! Resolving a path to the absolute one without links that it stands for. What does not exist is
taken as written, double dots included. A link that is met again while it is being resolved ends
the resolution, and the rest of the path stays as it is. -/
namespace SourceSweep.Files
open Text

abbrev Met := List (Text × Option Text)

structure Resolved where
  met : Met
  path : Text
  complete : Bool

def above (path : Text) : Text :=
  if path.isEmpty then parentName
  else if baseName path = parentName then join (join (dirName path) parentName) parentName
  else dirName path

def resolveNames (target? : Text → Option Text) (expand : Met → Text → Text → Resolved) :
    Met → Text → List Name → Resolved
  | met, path, [] => ⟨met, path, true⟩
  | met, path, name :: rest =>
    if name.isEmpty || name = selfName then resolveNames target? expand met path rest
    else if name = parentName then resolveNames target? expand met (above path) rest
    else
      let next := join path name
      match target? next with
      | none => resolveNames target? expand met next rest
      | some target =>
        match met.lookup next with
        | some (some known) => resolveNames target? expand met known rest
        | some none => ⟨met, join next (joinWith '/' rest), false⟩
        | none =>
          let inner := expand ((next, none) :: met) path target
          if inner.complete then
            resolveNames target? expand ((next, some inner.path) :: inner.met) inner.path rest
          else ⟨inner.met, join inner.path (joinWith '/' rest), false⟩

def resolveFrom (target? : Text → Option Text) : (depth : Nat) → Met → Text → Text → Resolved
  | 0, met, start, path => ⟨met, join start path, false⟩
  | depth + 1, met, start, path =>
    let start := if isAbsolute path then ['/'] else start
    resolveNames target? (resolveFrom target? depth) met start (cutAt '/' path)

def resolveDepth : Nat := 1000

namespace Store

def realPath (store : Store) (workDir : Location) (path : Text) : Text :=
  absolute workDir (resolveFrom (store.linkTarget? workDir) resolveDepth [] [] path).path

end Store

namespace Host

def resolve (host : Host) (store : Store) (path : Text) : Except Escape Text :=
  if hasNull path then .error .nullInPath
  else
    let real := store.realPath host.workDir (tidy path)
    match host.stat store real with
    | .ok _ => .ok real
    | .error (.system error) =>
      if error.number? = some Errno.linkLoop then .error (.linkCycle real) else .ok real
    | .error escape => .error escape

def isEngineFile (host : Host) (store : Store) (path : Text) : Except Escape Bool :=
  (host.resolve store path).map fun real => host.engine.isSuffixOf (Location.ofPath real)

end Host
end SourceSweep.Files

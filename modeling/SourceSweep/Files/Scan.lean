import SourceSweep.Text.LowerCase
import SourceSweep.Files.OsError
import SourceSweep.Files.RealPath

/-! Scanning a directory for files of given extensions. The files of a directory come first, in
order, then those of its directories. Links are not followed below the start, ignored directories
are passed over, and a directory that cannot be listed is reported and left out. -/
namespace SourceSweep.Files
open Text

def ignoredDirs : List Name :=
  ["node_modules", "dist", "build", ".git", "coverage", ".next", ".cache"].map String.toList

def scriptExtensions : List Text := [".js", ".jsx", ".ts", ".tsx"].map String.toList

def styleExtensions : List Text := [".css".toList]

structure Scan where
  files : List Text
  failures : List ListingFailure

namespace Scan

def none : Scan := ⟨[], []⟩

def append (first second : Scan) : Scan :=
  ⟨first.files ++ second.files, first.failures ++ second.failures⟩

def gather (scan : Text → Except Escape Scan) : List Text → Except Escape Scan
  | [] => .ok none
  | path :: rest => do return (← scan path).append (← gather scan rest)

end Scan

namespace Host

def list (host : Host) (store : Store) (path : Text) : Except Escape Location := do
  let place ← host.seek store .list path
  if store.isDir place then .ok place
  else .error (.system (.ofErrno Errno.notDirectory [path]))

/-- Whether an entry counts as a directory. A link is followed by its whole path, and counts as none
where that cannot be done. -/
def leadsToDir (host : Host) (store : Store) (path : Text) (dir : Location) (name : Name) : Bool :=
  match store.get? (name :: dir) with
  | some (.dir _) => true
  | some (.link _) => store.findsDir host.workDir (join path name)
  | _ => false

def isLink (host : Host) (store : Store) (path : Text) : Bool :=
  (store.linkTarget? host.workDir path).isSome

def ownFiles (host : Host) (store : Store) : List Text → Except Escape (List Text)
  | [] => .ok []
  | path :: rest => do
    let skipped ← if host.isLink store path then pure true else host.isEngineFile store path
    let files ← ownFiles host store rest
    return if skipped then files else path :: files

def scanBelow (host : Host) (store : Store) (wanted : List Text) :
    (depth : Nat) → Text → Except Escape Scan
  | 0, _ => .ok .none
  | depth + 1, path =>
    match host.list store path with
    | .error (.system error) => .ok ⟨[], [.ofError error]⟩
    | .error escape => .error escape
    | .ok place => do
      let names := store.namesIn place
      let dirs := names.filter fun name =>
        host.leadsToDir store path place name && !ignoredDirs.contains name
      let others := names.filter fun name =>
        !host.leadsToDir store path place name && wanted.contains (lower (extension name))
      let files ← host.ownFiles store (others.map (join path))
      let below := (dirs.map (join path)).filter (!host.isLink store ·)
      return (Scan.mk files []).append (← Scan.gather (scanBelow host store wanted depth) below)

/-- Directories never nest deeper than the store has entries. -/
def scan (host : Host) (store : Store) (extensions : List Text) (start : Text) :
    Except Escape Scan :=
  host.scanBelow store (extensions.map lower) (store.entries.length + 1) start

end Host
end SourceSweep.Files

import SourceSweep.Cli.Program

/-! The command. What lies below the source directory is loaded, the tool works on what was
loaded, and the files it changed are written back. A file that cannot be written back counts as one
that the tool could not replace, and the tool starts again from what was loaded. -/
namespace SourceSweep.Command
open Text Files

structure Loaded where
  store : Store
  faults : List Fault

def troubleOf : IO.Error → Trouble
  | .noFileOrDirectory _ _ _ => .errno Errno.noEntry
  | .permissionDenied _ _ _ => .errno Errno.accessDenied
  | error => .remark (toString error).toList

partial def loadEntry (shown : Text) (entry : IO.FS.DirEntry) (loaded : Loaded) : IO Loaded := do
  let place := Location.ofPath shown
  let failed (call : Call) (node : Node) (error : IO.Error) : Loaded :=
    ⟨loaded.store.put place node, ⟨call, shown, troubleOf error⟩ :: loaded.faults⟩
  match (← entry.path.symlinkMetadata).type with
  | .dir =>
    try
      let inner ← entry.path.readDir
      let start : Loaded := { loaded with store := loaded.store.put place (.dir dirMode) }
      inner.foldlM (fun loaded entry =>
        loadEntry (join shown entry.fileName.toList) entry loaded) start
    catch error => return failed .list (.dir dirMode) error
  | .symlink =>
    let target ← try IO.FS.realPath entry.path catch _ => pure entry.path
    return { loaded with store := loaded.store.put place (.link target.toString.toList) }
  | _ =>
    try
      let bytes ← IO.FS.readBinFile entry.path
      let node : Node := .file fileMode bytes.toList
      return { loaded with store := loaded.store.put place node }
    catch error => return failed .openRead (.file fileMode []) error

def load (workDir : Location) (root : Text) : IO Loaded := do
  let start : Loaded := ⟨Store.empty.makeDirs workDir, []⟩
  let named := Location.ofPath (absolute workDir root)
  try
    let real ← IO.FS.realPath (String.ofList root)
    unless ← real.isDir do return start
    let shown := real.toString.toList
    let place := Location.ofPath shown
    let store := start.store.makeDirs place
    let store := if named = place then store
      else (store.makeDirs named.tail).put named (.link shown)
    (← real.readDir).foldlM (fun loaded entry =>
      if entry.fileName = "src" then loadEntry (join shown "src".toList) entry loaded
      else pure loaded) { start with store }
  catch _ => return start

def writeBack (path : Text) (bytes : Utf8.Bytes) : IO (Option Fault) := do
  try
    IO.FS.writeBinFile (String.ofList path) ⟨bytes.toArray⟩
    return none
  catch error => return some ⟨.replace, path, troubleOf error⟩

def changedFiles (before after : Store) : List (Text × Utf8.Bytes) :=
  let changed := after.entries.filterMap fun entry =>
    match entry.2 with
    | .file _ bytes =>
      if before.get? entry.1 = some entry.2 then none else some (entry.1.path, bytes)
    | _ => none
  let (styles, scripts) := changed.partition fun file =>
    styleExtensions.contains (lower (extension (baseName file.1)))
  scripts ++ styles

partial def settle (tool : Cli.Tool) (arguments : List Text) (preset : Text) (host : Host)
    (store : Store) : IO UInt32 := do
  match Cli.main tool arguments preset host store with
  | .error escape =>
    IO.eprintln (String.ofList escape.message)
    return 1
  | .ok outcome =>
    for (path, bytes) in changedFiles store outcome.store do
      if let some fault ← writeBack path bytes then
        return ← settle tool arguments preset { host with faults := fault :: host.faults } store
    IO.print (String.ofList outcome.output)
    IO.eprint (String.ofList outcome.log)
    return outcome.exitCode.toUInt32

def pickTool : List String → Cli.Tool × List Text
  | "strip" :: rest => (.strip, rest.map String.toList)
  | "prune" :: rest => (.prune, rest.map String.toList)
  | "cleanup" :: rest => (.cleanup, rest.map String.toList)
  | rest => (.cleanup, rest.map String.toList)

def run (arguments : List String) : IO UInt32 := do
  let (tool, arguments) := pickTool arguments
  let preset := ((← IO.getEnv "CLEANUP_PROJECT_ROOT").getD "").toList
  let workDir := Location.ofPath (← IO.currentDir).toString.toList
  let engine := Location.ofPath (← IO.appDir).toString.toList
  let loaded ← match Cli.read (if preset.isEmpty then selfName else preset) arguments with
    | .run settings => load workDir settings.root
    | _ => pure ⟨.empty, []⟩
  settle tool arguments preset ⟨workDir, engine, loaded.faults, ["00000000".toList]⟩ loaded.store

end SourceSweep.Command

def main (arguments : List String) : IO UInt32 := SourceSweep.Command.run arguments

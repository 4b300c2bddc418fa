import SourceSweep.Files.OsError
import SourceSweep.Files.Lookup

/-! The host on which files are worked on: its working directory, the engine's own directory, the
names it can give to temporary files, and the calls that fail there. -/
namespace SourceSweep.Files
open Text

inductive Call where
  | stat
  | list
  | openRead
  | access
  | makeTemp
  | openTemp
  | writeTemp
  | copyMode
  | replace
  | removeTemp
  deriving DecidableEq, Repr

inductive Trouble where
  | errno (number : Errno)
  | remark (text : Text)
  | foreign (text : Text)
  deriving DecidableEq, Repr

/-- A call fails whenever it is made for the path. -/
structure Fault where
  call : Call
  path : Text
  trouble : Trouble
  deriving DecidableEq, Repr

structure Host where
  workDir : Location
  engine : Location
  faults : List Fault
  tags : List Text

def Trouble.escape (paths : List Text) : Trouble → Escape
  | errno number => .system (.ofErrno number paths)
  | remark text => .system (.bare (some text))
  | foreign text => .foreign text

namespace Host

def trouble? (host : Host) (call : Call) (path : Text) : Option Trouble :=
  (host.faults.find? fun fault => fault.call = call && fault.path = path).map Fault.trouble

def seek (host : Host) (store : Store) (call : Call) (path : Text) : Except Escape Location :=
  match host.trouble? call path with
  | some trouble => .error (trouble.escape [path])
  | none =>
    if hasNull path then .error .nullInPath
    else match store.find host.workDir path with
      | .ok place => .ok place
      | .error number => .error (.system (.ofErrno number [path]))

def stat (host : Host) (store : Store) (path : Text) : Except Escape (Option Node) :=
  (host.seek store .stat path).map store.get?

end Host
end SourceSweep.Files

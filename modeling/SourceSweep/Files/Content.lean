import SourceSweep.Files.Host
import SourceSweep.Problem

/-! Whole files as texts. Line ends and a byte order mark stay as they are. A new text goes into a
temporary file beside the target, which then takes the target's place in one step; when anything fails
before, the temporary file is removed again. -/
namespace SourceSweep.Files
open Text

def readFailure (path : Text) : Escape → Failure
  | .system error =>
    .problem <|
      if error.isAbsent then .readAbsent path
      else if error.isDenied then .readDenied path
      else if error.number? = some Errno.isDirectory then .readDirectory path
      else .readFailed path error
  | escape => .escape escape

namespace Host

def open? (host : Host) (store : Store) (path : Text) : Except Escape Utf8.Bytes := do
  let place ← host.seek store .openRead path
  match store.get? place with
  | some (.file _ bytes) => .ok bytes
  | _ => .error (.system (.ofErrno Errno.isDirectory [path]))

def read (host : Host) (store : Store) (path : Text) : Except Failure Text :=
  match host.open? store path with
  | .error escape => .error (readFailure path escape)
  | .ok bytes =>
    match Utf8.decode bytes with
    | .ok text => .ok text
    | .error defect => .error (.problem (.readUndecodable path defect))

end Host

/-! Replacing a file. -/

def writeFailure (path : Text) : Escape → Failure
  | .system error =>
    .problem <|
      if error.isDenied then .writeDenied path
      else if error.number? = some Errno.noSpace then .writeNoSpace path
      else if error.number? = some Errno.readOnly then .writeReadOnly path
      else .writeFailed path error
  | escape => .escape escape

structure Temp where
  path : Text
  place : Location

def Node.mode : Node → Nat
  | .file mode _ => mode
  | .dir mode => mode
  | .link _ => 0o777

namespace Store

def newPlace (store : Store) (workDir : Location) (path : Text) : Except Errno Location := do
  match ← store.findSlot workDir path with
  | (dir, some name) => store.enter dir name
  | (_, none) => .error Errno.alreadyThere

def moveOver (store : Store) (workDir : Location) (temp : Location) (target : Text) :
    Except Errno Store := do
  match ← store.findSlot workDir target with
  | (_, none) => .error Errno.busy
  | (dir, some name) =>
    let place ← store.enter dir name
    if target.getLast? = some '/' then .error Errno.notDirectory
    else if store.isDir place then .error Errno.isDirectory
    else match store.get? temp with
      | some node => .ok ((store.erase temp).put place node)
      | none => .error Errno.noEntry

end Store

namespace Host

def tempPaths (host : Host) (target : Text) : List Text :=
  let dir := if (dirName target).isEmpty then selfName else dirName target
  host.tags.map fun tag =>
    join (absolute host.workDir dir) ('.' :: baseName target ++ '.' :: tag ++ ".tmp".toList)

def noFreeName : OsError :=
  .coded (some Errno.alreadyThere) (some "No usable temporary file name found".toList) []

def firstFree (host : Host) (store : Store) : List Text → Except Escape Temp
  | [] => .error (.system noFreeName)
  | path :: rest =>
    if hasNull path then .error .nullInPath
    else match store.newPlace host.workDir path with
      | .error number => .error (.system (.ofErrno number [path]))
      | .ok place =>
        if (store.get? place).isSome then firstFree host store rest else .ok ⟨path, place⟩

def makeTemp (host : Host) (store : Store) (target : Text) : Except Escape Temp :=
  match host.trouble? .makeTemp target with
  | some trouble => .error (trouble.escape ((host.tempPaths target).take 1))
  | none => host.firstFree store (host.tempPaths target)

/-- Whether there is a target is told by the store here and in `write`: a `stat` of it that fails, for which
it would count as absent, is not among the faults consulted. -/
def copyMode (host : Host) (store : Store) (temp : Temp) (target : Text) : Except Escape Store :=
  match store.node? host.workDir target, store.get? temp.place with
  | some node, some (.file _ bytes) =>
    match host.trouble? .copyMode target with
    | some trouble => .error (trouble.escape [target])
    | none => .ok (store.put temp.place (.file node.mode bytes))
  | _, _ => .ok store

def replace (host : Host) (store : Store) (temp : Temp) (target : Text) : Except Escape Store :=
  match host.trouble? .replace target with
  | some trouble => .error (trouble.escape [temp.path, target])
  | none =>
    if hasNull target then .error .nullInPath
    else match store.moveOver host.workDir temp.place target with
      | .ok store => .ok store
      | .error number => .error (.system (.ofErrno number [temp.path, target]))

/-- Writes the text into the temporary file; a failure on the way leaves half of it there. -/
def fill (host : Host) (store : Store) (temp : Temp) (target content : Text) :
    Except Escape Unit × Store :=
  match host.trouble? .openTemp target with
  | some trouble => (.error (trouble.escape [temp.path]), store)
  | none =>
    let holding (text : Text) := store.put temp.place (.file privateMode (Utf8.encode text))
    match host.trouble? .writeTemp target with
    | some trouble =>
      (.error (trouble.escape []), holding (content.take (content.length / 2)))
    | none => (.ok (), holding content)

def install (host : Host) (store : Store) (temp : Temp) (target content : Text) :
    Except Escape Unit × Store :=
  match host.fill store temp target content with
  | (.error escape, store) => (.error escape, store)
  | (.ok (), store) =>
    match host.copyMode store temp target with
    | .error escape => (.error escape, store)
    | .ok store =>
      match host.replace store temp target with
      | .error escape => (.error escape, store)
      | .ok store => (.ok (), store)

/-- Removes the temporary file after a failure; a failure to do so takes the other's place. -/
def discard (host : Host) (store : Store) (temp : Temp) (target : Text) (failure : Failure) :
    Failure × Store :=
  match host.trouble? .removeTemp target with
  | some trouble => (.escape (trouble.escape [temp.path]), store)
  | none => (failure, store.erase temp.place)

def write (host : Host) (store : Store) (target content : Text) : Except Failure Unit × Store :=
  if (store.node? host.workDir target).isSome && (host.trouble? .access target).isSome then
    (.error (.problem (.writeDenied target)), store)
  else match host.makeTemp store target with
    | .error escape => (.error (writeFailure target escape), store)
    | .ok temp =>
      match host.install (store.put temp.place (.file privateMode [])) temp target content with
      | (.ok (), store) => (.ok (), store)
      | (.error escape, store) =>
        let (failure, store) := host.discard store temp target (writeFailure target escape)
        (.error failure, store)

end Host

end SourceSweep.Files

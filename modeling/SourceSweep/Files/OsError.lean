import SourceSweep.Text.Quoted
import SourceSweep.Files.Errno

/-! Errors of system calls, and what else can leave a file operation that has no name for it. -/
namespace SourceSweep.Files
open Text

inductive Subject where
  | path (path : Text)
  | descriptor (number : Int)
  deriving DecidableEq, Repr

def Subject.text : Subject → Text
  | path value => value
  | descriptor number => ofInt number

def Subject.shown : Subject → Text
  | path value => quoted value
  | descriptor number => ofInt number

inductive OsError where
  | bare (remark : Option Text)
  | coded (number : Option Errno) (text : Option Text) (subjects : List Subject)
  deriving DecidableEq, Repr

namespace OsError

def ofErrno (number : Errno) (paths : List Text) : OsError :=
  .coded (some number) (some number.text) (paths.map .path)

def number? : OsError → Option Errno
  | bare _ => none
  | coded number _ _ => number

def absent : Text := "None".toList

def message : OsError → Text
  | bare remark => remark.getD absent
  | coded number text subjects =>
    "[Errno ".toList ++ (number.map ofInt).getD absent ++ "] ".toList ++ text.getD absent ++
      match subjects.map Subject.shown with
      | [] => []
      | first :: rest => ": ".toList ++ first ++ rest.flatMap (" -> ".toList ++ ·)

def isDenied (error : OsError) : Bool :=
  error.number? = some Errno.accessDenied || error.number? = some Errno.notPermitted

def isAbsent (error : OsError) : Bool := error.number? = some Errno.noEntry

end OsError

inductive Escape where
  | system (error : OsError)
  | foreign (text : Text)
  | nullInPath
  | linkCycle (path : Text)
  deriving DecidableEq, Repr

def Escape.message : Escape → Text
  | system error => error.message
  | foreign text => text
  | nullInPath => "embedded null byte".toList
  | linkCycle path => "Symlink loop from ".toList ++ quoted path

/-! What a scan reports of a directory that cannot be listed. -/

inductive ListingKind where
  | permissionDenied
  | notFound
  | unknown
  deriving DecidableEq, Repr

def ListingKind.name : ListingKind → Text
  | permissionDenied => "permission_denied".toList
  | notFound => "not_found".toList
  | unknown => "unknown".toList

structure ListingFailure where
  path : Text
  code : Text
  message : Text
  kind : ListingKind
  deriving DecidableEq, Repr

namespace ListingFailure

def subjectText : OsError → Text
  | .coded _ _ (subject :: _) => subject.text
  | _ => []

def reasonText (error : OsError) : Text :=
  match error with
  | .coded _ (some text) _ => if text.isEmpty then error.message else text
  | _ => error.message

def ofError (error : OsError) : ListingFailure where
  path := subjectText error
  code := (error.number?.map Errno.name).getD []
  message := reasonText error
  kind := if error.isDenied then .permissionDenied else if error.isAbsent then .notFound else .unknown

end ListingFailure

end SourceSweep.Files

import SourceSweep.Files.OsError
import SourceSweep.Text.Utf8

/-! Problems: everything that an operation reports by a code of its own. Each is named for its
cause; the record of it is what callers and reports see. -/
namespace SourceSweep
open Text Files

/-! Values of any kind, as callers hand them in and as records carry them. -/

inductive Datum where
  | null
  | bool (value : Bool)
  | int (value : Int)
  /-- A number written with a fraction or an exponent: `digits * 10 ^ exponent`. -/
  | decimal (digits exponent : Int)
  | text (value : Text)
  | bytes (value : Utf8.Bytes)
  | list (items : List Datum)
  | object (fields : List (Text × Datum))
  deriving Inhabited

namespace Datum

def kindName : Datum → Text
  | null => "NoneType".toList
  | bool _ => "bool".toList
  | int _ => "int".toList
  | decimal _ _ => "float".toList
  | text _ => "str".toList
  | bytes _ => "bytes".toList
  | list _ => "list".toList
  | object _ => "dict".toList

def isVoid : Datum → Bool
  | null => true
  | bool value => !value
  | int value => value = 0
  | decimal digits _ => digits = 0
  | text value => value.isEmpty
  | bytes value => value.isEmpty
  | list items => items.isEmpty
  | object fields => fields.isEmpty

end Datum

/-! Codes and records. -/

inductive Code where
  | invalidProjectRoot
  | sourceDirNotFound
  | fileReadError
  | fileWriteError
  | permissionDenied
  | directoryScanError
  | invalidFileContent
  | unknownError
  deriving DecidableEq, Repr

def Code.name : Code → Text
  | invalidProjectRoot => "INVALID_PROJECT_ROOT".toList
  | sourceDirNotFound => "SRC_DIR_NOT_FOUND".toList
  | fileReadError => "FILE_READ_ERROR".toList
  | fileWriteError => "FILE_WRITE_ERROR".toList
  | permissionDenied => "PERMISSION_DENIED".toList
  | directoryScanError => "DIRECTORY_SCAN_ERROR".toList
  | invalidFileContent => "INVALID_FILE_CONTENT".toList
  | unknownError => "UNKNOWN_ERROR".toList

structure Record where
  code : Text
  message : Text
  details : List (Text × Datum)

def Record.ofParts (code message : Text) (details : Option (List (Text × Datum))) : Record :=
  ⟨code, message, details.getD []⟩

inductive Problem where
  | scriptNotText (kind : Text)
  | styleNotText (kind : Text)
  | rootMissing (provided : Datum)
  | rootNotPath (kind : Text)
  | rootAbsent (path : Text)
  | rootDenied (path : Text)
  | rootUnreachable (path : Text) (error : OsError)
  | rootNotDirectory (path : Text)
  | sourceDirAbsent (path : Text)
  | notListed (failure : ListingFailure)
  | readAbsent (path : Text)
  | readDenied (path : Text)
  | readDirectory (path : Text)
  | readUndecodable (path : Text) (defect : Utf8.Defect)
  | readFailed (path : Text) (error : OsError)
  | writeDenied (path : Text)
  | writeNoSpace (path : Text)
  | writeReadOnly (path : Text)
  | writeFailed (path : Text) (error : OsError)
  | unexpected (path : Text) (escape : Escape)

def Text.Utf8.Defect.message (defect : Utf8.Defect) : Text :=
  let reason := match defect.reason with
    | .badStart => "invalid start byte"
    | .badContinuation => "invalid continuation byte"
    | .cutShort => "unexpected end of data"
  let place := match defect.bytes with
    | [byte] => "byte 0x".toList ++ hexDigits 2 byte.toNat ++ " in position ".toList ++
        Text.ofNat defect.offset
    | bytes => "bytes in position ".toList ++ Text.ofNat defect.offset ++ '-' ::
        Text.ofNat (defect.offset + bytes.length - 1)
  "'utf-8' codec can't decode ".toList ++ place ++ ": ".toList ++ reason.toList

namespace Problem

def code : Problem → Code
  | scriptNotText _ | styleNotText _ | readUndecodable _ _ => .invalidFileContent
  | rootMissing _ | rootNotPath _ | rootAbsent _ | rootUnreachable _ _ | rootNotDirectory _ =>
    .invalidProjectRoot
  | rootDenied _ | readDenied _ | writeDenied _ => .permissionDenied
  | sourceDirAbsent _ => .sourceDirNotFound
  | notListed _ => .directoryScanError
  | readAbsent _ | readDirectory _ | readFailed _ _ => .fileReadError
  | writeNoSpace _ | writeReadOnly _ | writeFailed _ _ => .fileWriteError
  | unexpected _ _ => .unknownError

def message : Problem → Text
  | scriptNotText _ => "Invalid content type for console log removal".toList
  | styleNotText _ => "Invalid content type for CSS class removal".toList
  | rootMissing _ => "Project root path is required".toList
  | rootNotPath _ => "Project root must be a string path".toList
  | rootAbsent _ => "Project root directory does not exist".toList
  | rootDenied _ => "Permission denied accessing project root".toList
  | rootUnreachable _ error => "Failed to access project root: ".toList ++ error.message
  | rootNotDirectory _ => "Project root must be a directory".toList
  | sourceDirAbsent path => "Source directory not found: ".toList ++ path
  | notListed failure => "Failed to scan directory: ".toList ++ failure.path
  | readAbsent path => "File not found: ".toList ++ path
  | readDenied path => "Permission denied reading file: ".toList ++ path
  | readDirectory path => "Path is a directory, not a file: ".toList ++ path
  | readUndecodable path _ => "File is not valid UTF-8 text: ".toList ++ path
  | readFailed _ error => "Failed to read file: ".toList ++ error.message
  | writeDenied path => "Permission denied writing to file: ".toList ++ path
  | writeNoSpace path => "No space left on device when writing: ".toList ++ path
  | writeReadOnly path => "Read-only file system, cannot write: ".toList ++ path
  | writeFailed _ error => "Failed to write file: ".toList ++ error.message
  | unexpected path escape =>
    "Unexpected error processing ".toList ++ path ++ ": ".toList ++ escape.message

def detail (key : String) (value : Text) : Text × Datum := (key.toList, .text value)

def details : Problem → List (Text × Datum)
  | scriptNotText kind | styleNotText kind => [detail "contentType" kind]
  | rootMissing provided => [("provided".toList, provided)]
  | rootNotPath kind => [detail "provided" kind]
  | rootUnreachable path error | readFailed path error | writeFailed path error =>
    [detail "path" path, detail "originalError" error.message]
  | readUndecodable path defect => [detail "path" path, detail "originalError" defect.message]
  | notListed failure => [detail "path" failure.path, detail "code" failure.code,
      detail "message" failure.message, detail "type" failure.kind.name]
  | rootAbsent path | rootDenied path | rootNotDirectory path | sourceDirAbsent path
  | readAbsent path | readDenied path | readDirectory path | writeDenied path | writeNoSpace path
  | writeReadOnly path | unexpected path _ => [detail "path" path]

def record (problem : Problem) : Record :=
  ⟨problem.code.name, problem.message, problem.details⟩

end Problem

inductive Failure where
  | problem (cause : Problem)
  | escape (cause : Escape)

def Failure.message : Failure → Text
  | problem cause => cause.message
  | escape cause => cause.message

def Failure.toProblem (path : Text) : Failure → Problem
  | problem cause => cause
  | escape cause => .unexpected path cause

inductive Event where
  | notListed (failure : Files.ListingFailure)
  | sourceSkipped (path : Text) (cause : Problem)
  | ruleDropped (name : Text)
  | callsRemoved (path : Text) (count : Int)
  | classesRemoved (path : Text) (count : Int)
  | fileFailed (path : Text) (cause : Failure)
  | finished (calls classes files : Int)

end SourceSweep

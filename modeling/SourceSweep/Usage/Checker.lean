import SourceSweep.Problem
import SourceSweep.Usage.Reference

/-! Looking up whether any script of a list refers to a class. Texts are read when they are first
needed and kept; a script that cannot be read proves nothing and is not tried again. -/
namespace SourceSweep.Usage
open Text

abbrev Reader := Text → Except Failure Text

structure Checker where
  files : List Text
  cache : List (Text × Text)
  unreadable : List Text
  verdicts : List (Text × Bool)
  opened : List Text
  journal : List Event

namespace Checker

def ofFiles (files : List Text) (cache : List (Text × Text)) : Checker :=
  ⟨files, cache, [], [], [], []⟩

def note (checker : Checker) (event : Event) : Checker :=
  { checker with journal := event :: checker.journal }

def text? (read : Reader) (checker : Checker) (path : Text) :
    Except Files.Escape (Option Text) × Checker :=
  match checker.cache.lookup path with
  | some text => (.ok (some text), checker)
  | none =>
    if checker.unreadable.contains path then (.ok none, checker)
    else
      let checker := { checker with opened := path :: checker.opened }
      match read path with
      | .ok text => (.ok (some text), { checker with cache := checker.cache ++ [(path, text)] })
      | .error (.problem cause) =>
        (.ok none, { checker with unreadable := path :: checker.unreadable }.note
          (.sourceSkipped path cause))
      | .error (.escape cause) => (.error cause, checker)

def search (read : Reader) (name : Text) (checker : Checker) :
    List Text → Except Files.Escape Bool × Checker
  | [] => (.ok false, checker)
  | path :: rest =>
    match checker.text? read path with
    | (.error cause, checker) => (.error cause, checker)
    | (.ok none, checker) => search read name checker rest
    | (.ok (some text), checker) =>
      if refersTo text name then (.ok true, checker) else search read name checker rest

def isUsed (read : Reader) (checker : Checker) (name : Text) :
    Except Files.Escape Bool × Checker :=
  match checker.verdicts.lookup name with
  | some used => (.ok used, checker)
  | none =>
    match checker.search read name checker.files with
    | (.ok used, checker) =>
      (.ok used, { checker with verdicts := checker.verdicts ++ [(name, used)] })
    | (.error cause, checker) => (.error cause, checker)

end Checker
end SourceSweep.Usage

import SourceSweep.Files.Content
import SourceSweep.Proofs.Usage.Verdict

/-! A checker that is asked one question after another. What it has kept never shows in its answers, and what
it keeps is what the files hold: a file that it has opened once is never opened again. -/
namespace SourceSweep.Usage
open Text

namespace Checker

def asked (read : Reader) : Checker → List Text → List (Except Files.Escape Bool) × Checker
  | checker, [] => ([], checker)
  | checker, name :: rest =>
    let (answer, next) := checker.isUsed read name
    let (later, last) := asked read next rest
    (answer :: later, last)

theorem askedCons (read : Reader) (checker : Checker) (name : Text) (rest : List Text) :
    checker.asked read (name :: rest) =
      ((checker.isUsed read name).1 :: ((checker.isUsed read name).2.asked read rest).1,
        ((checker.isUsed read name).2.asked read rest).2) := rfl

/-- The notes of a checker, told by the texts that it was given and by what the files hold. -/
structure Kept (known : List (Text × Text)) (read : Reader) (checker : Checker) : Prop where
  cached : ∃ added, checker.cache = known ++ added ∧
    ∀ path text, (path, text) ∈ added → known.lookup path = none ∧ read path = .ok text
  unreadable : ∀ path ∈ checker.unreadable,
    checker.cache.lookup path = none ∧ ∃ cause, read path = .error (.problem cause)
  settled : ∀ path ∈ checker.opened, (checker.cache.lookup path).isSome = true ∨ path ∈ checker.unreadable
  once : checker.opened.Nodup

theorem keptStart (files : List Text) (known : List (Text × Text)) (read : Reader) :
    Kept known read (ofFiles files known) where
  cached := ⟨[], (List.append_nil known).symm, fun _ _ mem => absurd mem List.not_mem_nil⟩
  unreadable _ mem := absurd mem List.not_mem_nil
  settled _ mem := absurd mem List.not_mem_nil
  once := .nil

section
variable {known : List (Text × Text)} {read : Reader} {checker : Checker} (kept : Kept known read checker)
include kept

theorem Kept.givenMissing {path : Text} (missing : checker.cache.lookup path = none) :
    known.lookup path = none := by
  obtain ⟨added, cache, -⟩ := kept.cached
  rw [cache, List.lookup_append, Option.or_eq_none_iff] at missing
  exact missing.1

theorem Kept.notOpened {path : Text} (missing : checker.cache.lookup path = none)
    (unlisted : path ∉ checker.unreadable) : path ∉ checker.opened := fun mem => by
  rcases kept.settled path mem with found | listed
  · rw [missing] at found
    cases found
  · exact unlisted listed

section
variable {path : Text} (missing : checker.cache.lookup path = none) (unlisted : path ∉ checker.unreadable)
include missing unlisted

theorem Kept.keepText {text : Text} (found : read path = .ok text) : Kept known read
    { checker with opened := path :: checker.opened, cache := checker.cache ++ [(path, text)] } where
  cached := by
    obtain ⟨added, cache, entries⟩ := kept.cached
    refine ⟨added ++ [(path, text)], by simp [cache], fun path' text' mem => ?_⟩
    rcases List.mem_append.mp mem with earlier | latest
    · exact entries path' text' earlier
    · obtain ⟨rfl, rfl⟩ := Prod.mk.inj (List.mem_singleton.mp latest)
      exact ⟨kept.givenMissing missing, found⟩
  unreadable path' mem := by
    obtain ⟨uncached, refused⟩ := kept.unreadable path' mem
    have other : (path' == path) = false := beq_false_of_ne fun same => unlisted (same ▸ mem)
    exact ⟨by simp [List.lookup_append, uncached, List.lookup_cons, other], refused⟩
  settled path' mem := by
    rcases List.mem_cons.mp mem with rfl | mem
    · exact .inl (by simp [List.lookup_append])
    · exact (kept.settled path' mem).imp_left fun found => by simp [List.lookup_append, found]
  once := List.nodup_cons.mpr ⟨kept.notOpened missing unlisted, kept.once⟩

theorem Kept.keepUnreadable {cause : Problem} (refused : read path = .error (.problem cause)) : Kept known read
    { checker with opened := path :: checker.opened, unreadable := path :: checker.unreadable } where
  cached := kept.cached
  unreadable path' mem := by
    rcases List.mem_cons.mp mem with rfl | mem
    · exact ⟨missing, cause, refused⟩
    · exact kept.unreadable path' mem
  settled path' mem := by
    rcases List.mem_cons.mp mem with rfl | mem
    · exact .inr List.mem_cons_self
    · exact (kept.settled path' mem).imp_right (List.mem_cons_of_mem path)
  once := List.nodup_cons.mpr ⟨kept.notOpened missing unlisted, kept.once⟩

end

theorem Kept.ofParts {other : Checker} (cache : other.cache = checker.cache)
    (unreadable : other.unreadable = checker.unreadable) (opened : other.opened = checker.opened) :
    Kept known read other := by
  obtain ⟨cached, unread, settled, once⟩ := kept
  exact ⟨cache ▸ cached, by rwa [unreadable, cache], by rwa [opened, cache, unreadable], opened ▸ once⟩

theorem textKept {path : Text} (told : ∀ cause, read path ≠ .error (.escape cause)) :
    Kept known read (checker.text? read path).2 := by
  unfold text?
  split
  · exact kept
  · rename_i missing
    split
    · exact kept
    · rename_i unlisted
      rw [List.contains_iff_mem] at unlisted
      split
      · rename_i text found
        exact kept.keepText missing unlisted found
      · rename_i cause refused
        exact (kept.keepUnreadable missing unlisted refused).ofParts rfl rfl rfl
      · rename_i cause escaped
        exact absurd escaped (told cause)

theorem searchKept (name : Text) {paths : List Text}
    (told : ∀ path ∈ paths, ∀ cause, read path ≠ .error (.escape cause)) :
    Kept known read (checker.search read name paths).2 := by
  induction paths generalizing checker with
  | nil => exact kept
  | cons path rest ih =>
    obtain ⟨here, later⟩ := List.forall_mem_cons.mp told
    have looked := textKept kept here
    unfold search
    split
    · rename_i same
      rw [same] at looked
      exact looked
    · rename_i same
      rw [same] at looked
      exact ih looked later
    · rename_i same
      rw [same] at looked
      split
      · exact looked
      · exact ih looked later

theorem isUsedKept (told : ∀ path ∈ checker.files, ∀ cause, read path ≠ .error (.escape cause)) (name : Text) :
    Kept known read (checker.isUsed read name).2 := by
  have looked := searchKept kept name told
  unfold isUsed
  split
  · exact kept
  · split
    · rename_i same
      rw [same] at looked
      exact looked.ofParts rfl rfl rfl
    · rename_i same
      rw [same] at looked
      exact looked

end

section
variable {known : List (Text × Text)} {read : Reader} {checker : Checker}

theorem askedFaithful (faithful : Faithful known read checker) (names : List Text) :
    (checker.asked read names).1 = names.map (fun name => verdict (readKnown known read) name checker.files) ∧
      (checker.asked read names).2.files = checker.files ∧
      Faithful known read (checker.asked read names).2 := by
  induction names generalizing checker with
  | nil => exact ⟨rfl, rfl, faithful⟩
  | cons name rest ih =>
    obtain ⟨answer, files, next⟩ := isUsedFaithful faithful name
    obtain ⟨answers, same, last⟩ := ih next
    rw [files] at answers
    rw [askedCons]
    exact ⟨by rw [answer, answers, List.map_cons], same.trans files, last⟩

theorem askedKept (kept : Kept known read checker) (faithful : Faithful known read checker)
    (told : ∀ path ∈ checker.files, ∀ cause, read path ≠ .error (.escape cause)) (names : List Text) :
    Kept known read (checker.asked read names).2 := by
  induction names generalizing checker with
  | nil => exact kept
  | cons name rest ih =>
    obtain ⟨-, files, next⟩ := isUsedFaithful faithful name
    rw [askedCons]
    exact ih (isUsedKept kept told name) next (by rwa [files])

end

theorem toldKnown {known : List (Text × Text)} {read : Reader} {files : List Text}
    (told : ∀ path ∈ files, ∀ cause, read path ≠ .error (.escape cause)) :
    ∀ path ∈ files, ∀ cause, readKnown known read path ≠ .error (.escape cause) := by
  intro path listed cause
  unfold readKnown
  split
  · exact fun escaped => by cases escaped
  · exact told path listed cause

end Checker

theorem askedVerdict {files : List Text} {known : List (Text × Text)} {read : Reader}
    (told : ∀ path ∈ files, ∀ cause, read path ≠ .error (.escape cause)) (earlier : List Text) (name : Text) :
    (((Checker.ofFiles files known).asked read earlier).2.isUsed read name).1 =
      .ok (usedIn (readKnown known read) files name) := by
  obtain ⟨-, same, later⟩ := Checker.askedFaithful (Checker.faithfulStart files known read) earlier
  rw [(Checker.isUsedFaithful later name).1, same]
  exact verdictTold (Checker.toldKnown told) name

theorem usedInIff (read : Reader) (scripts : List Text) (name : Text) : usedIn read scripts name = true ↔
    ∃ path ∈ scripts, ∃ text, read path = .ok text ∧ ∃ pattern ∈ references name, found pattern text = true := by
  rw [usedIn, List.any_eq_true]
  constructor
  · rintro ⟨path, listed, refers⟩
    split at refers
    · rename_i text available
      exact ⟨path, listed, text, available, List.any_eq_true.mp refers⟩
    · cases refers
  · rintro ⟨path, listed, text, available, refers⟩
    exact ⟨path, listed, by simpa [available, refersTo] using refers⟩

theorem cachingTransparent (files : List Text) (known : List (Text × Text)) {read : Reader}
    (told : ∀ path ∈ files, ∀ cause, read path ≠ .error (.escape cause)) (names : List Text) :
    ((Checker.ofFiles files known).asked read names).1 =
      names.map (fun name => .ok (usedIn (readKnown known read) files name)) ∧
    (∀ name, usedIn (readKnown known read) files name = true ↔ ∃ path ∈ files, ∃ text,
      readKnown known read path = .ok text ∧ ∃ pattern ∈ references name, found pattern text = true) ∧
    (∀ name, (((Checker.ofFiles files known).asked read names).2.isUsed read name).1 =
      ((Checker.ofFiles files known).isUsed read name).1) ∧
    ((Checker.ofFiles files known).asked read names).2.Kept known read := by
  have start := Checker.faithfulStart files known read
  refine ⟨?_, usedInIff _ files, fun name => ?_, Checker.askedKept (Checker.keptStart files known read) start told names⟩
  · rw [(Checker.askedFaithful start names).1]
    exact List.map_congr_left fun name _ => verdictTold (Checker.toldKnown told) name
  · exact (askedVerdict told names name).trans (askedVerdict told [] name).symm

def cardOnly : Files.Store :=
  (Files.Store.empty.put [] (.dir Files.dirMode)).put ["a.js".toList]
    (.file Files.fileMode (Utf8.encode "\"card\"".toList))

def bareHost : Files.Host where
  workDir := []
  engine := ["engine".toList]
  faults := []
  tags := []

def menuKnown : List (Text × Text) := [("c.js".toList, "styles.menu".toList)]

def someScripts : List Text := ["b.js".toList, "a.js".toList, "c.js".toList, "a.js".toList]

def someNames : List Text := ["menu".toList, "card".toList, "old".toList, "card".toList]

theorem lostScriptSkipped :
    (∀ path ∈ someScripts, ∀ cause, bareHost.read cardOnly path ≠ .error (.escape cause)) ∧
    ((Checker.ofFiles someScripts menuKnown).asked (bareHost.read cardOnly) someNames).1 =
      [.ok true, .ok true, .ok false, .ok true] ∧
    ((Checker.ofFiles someScripts menuKnown).asked (bareHost.read cardOnly) someNames).2.Kept
      menuKnown (bareHost.read cardOnly) := by
  have reads : ∀ path ∈ someScripts, (match bareHost.read cardOnly path with
      | .error (.escape _) => false
      | _ => true) = true := by decide +kernel
  have told : ∀ path ∈ someScripts, ∀ cause, bareHost.read cardOnly path ≠ .error (.escape cause) := by
    intro path listed cause escaped
    have read := reads path listed
    rw [escaped] at read
    cases read
  have used : someNames.map (usedIn (readKnown menuKnown (bareHost.read cardOnly)) someScripts) =
      [true, true, false, true] := by decide +kernel
  obtain ⟨answers, -, -, kept⟩ := cachingTransparent someScripts menuKnown told someNames
  refine ⟨told, ?_, kept⟩
  rw [answers, ← Function.comp_def, ← List.map_map, used]
  rfl

end SourceSweep.Usage

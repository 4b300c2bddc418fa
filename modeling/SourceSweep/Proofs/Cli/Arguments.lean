import SourceSweep.Cli.Options

/-! What an argument list asks for: the switches that its arguments name, in full or shortened. A list that is
read to its end has every flag set that one of them names, and no other. -/
namespace SourceSweep.Cli
open Text

def Word.switch? : Word → Option Switch
  | .long switch _ => some switch
  | .short _ => some .help
  | _ => none

def sets (arguments : List Text) (switch : Switch) : Bool :=
  arguments.any fun argument => (readWord argument).bind Word.switch? = some switch

theorem setsIff {arguments : List Text} {switch : Switch} : sets arguments switch = true ↔
    ∃ argument ∈ arguments, ∃ word, readWord argument = some word ∧ word.switch? = some switch := by
  simp [sets, Option.bind_eq_some_iff]

/-- Words that were read to their end, from some settings to others: all of them were options, and each
flag is set that was set before or that one of the words names. -/
structure Taken (stray : Bool) (settings : Settings) (words : List Word) (settings' : Settings) : Prop where
  options : stray = false ∧ .divider ∉ words
  flags : ∀ flag, flag ∈ settings'.flags ↔
    flag ∈ settings.flags ∨ ∃ word ∈ words, word.switch? = some (.flag flag)

theorem takenRun {stray : Bool} {settings settings' : Settings} {words : List Word}
    (taken : take stray settings words = .run settings') : Taken stray settings words settings' := by
  fun_induction take stray settings words with
  | case2 stray settings plain =>
    cases taken
    exact ⟨⟨by simpa using plain, List.not_mem_nil⟩, by simp⟩
  | case3 _ _ _ _ ih | case4 _ _ _ ih | case5 _ _ _ ih => exact absurd (ih taken).options.1 (by decide)
  | case9 stray settings root rest ih =>
    obtain ⟨⟨plain, others⟩, flags⟩ := ih taken
    exact ⟨⟨plain, by simp [others]⟩, fun flag => (flags flag).trans (by simp [Word.switch?])⟩
  | case10 stray settings root rest ih =>
    obtain ⟨⟨plain, others⟩, flags⟩ := ih taken
    exact ⟨⟨plain, by simp [others]⟩, fun flag => (flags flag).trans (by simp [Word.switch?])⟩
  | case11 stray settings flag rest ih =>
    obtain ⟨⟨plain, others⟩, flags⟩ := ih taken
    refine ⟨⟨plain, by simp [others]⟩, fun other => (flags other).trans ?_⟩
    simp [Word.switch?, or_assoc, or_left_comm, eq_comm]
  | case1 | case6 | case7 | case8 | case12 => cases taken

theorem takenHelp {stray : Bool} {settings : Settings} {words : List Word}
    (taken : take stray settings words = .help) : ∃ word ∈ words, word.switch? = some .help := by
  fun_induction take stray settings words with
  | case6 stray settings attached => exact ⟨.short attached, List.mem_cons_self, rfl⟩
  | case8 => exact ⟨.long .help none, List.mem_cons_self, rfl⟩
  | case3 _ _ _ _ ih | case4 _ _ _ ih | case5 _ _ _ ih | case9 _ _ _ _ ih | case11 _ _ _ _ ih =>
    obtain ⟨word, mem, help⟩ := ih taken
    exact ⟨word, List.mem_cons_of_mem _ mem, help⟩
  | case10 _ _ _ _ ih =>
    obtain ⟨word, mem, help⟩ := ih taken
    exact ⟨word, List.mem_cons_of_mem _ (List.mem_cons_of_mem _ mem), help⟩
  | case1 | case2 | case7 | case12 => cases taken

section
variable {arguments : List Text} {words : List Word} (told : readWords arguments = some words)
include told

theorem wordsSet {word : Word} (mem : word ∈ words) {switch : Switch} (names : word.switch? = some switch) :
    sets arguments switch = true := by
  rw [setsIff]
  induction arguments generalizing words with
  | nil =>
    cases told
    cases mem
  | cons argument rest ih =>
    rw [readWords] at told
    split at told
    · cases told
    · cases told
      rcases List.mem_cons.mp mem with rfl | later
      · cases names
      · obtain ⟨value, _, rfl⟩ := List.mem_map.mp later
        cases names
    · rename_i first _ named
      obtain ⟨others, later, rfl⟩ := Option.map_eq_some_iff.mp told
      rcases List.mem_cons.mp mem with rfl | behind
      · exact ⟨argument, List.mem_cons_self, _, named, names⟩
      · obtain ⟨other, listed, word, named, names⟩ := ih later behind
        exact ⟨other, List.mem_cons_of_mem _ listed, word, named, names⟩

theorem argumentsWords (undivided : .divider ∉ words) : arguments.map readWord = words.map some := by
  induction arguments generalizing words with
  | nil =>
    cases told
    rfl
  | cons argument rest ih =>
    rw [readWords] at told
    split at told
    · cases told
    · cases told
      exact absurd List.mem_cons_self undivided
    · rename_i first _ named
      obtain ⟨others, later, rfl⟩ := Option.map_eq_some_iff.mp told
      rw [List.map_cons, List.map_cons, named, ih later fun mem => undivided (List.mem_cons_of_mem _ mem)]

end

theorem readHelp {root : Text} {arguments : List Text} (asked : read root arguments = .help) :
    sets arguments .help = true := by
  unfold read at asked
  split at asked
  · cases asked
  · rename_i words told
    obtain ⟨word, mem, names⟩ := takenHelp asked
    exact wordsSet told mem names

theorem readFlags {root : Text} {arguments : List Text} {settings : Settings}
    (asked : read root arguments = .run settings) (flag : Flag) :
    settings.has flag = sets arguments (.flag flag) := by
  unfold read at asked
  split at asked
  · cases asked
  · rename_i words told
    obtain ⟨⟨_, undivided⟩, flags⟩ := takenRun asked
    rw [Bool.eq_iff_iff, Settings.has, List.contains_iff_mem, flags flag]
    constructor
    · rintro (before | ⟨word, mem, names⟩)
      · cases before
      · exact wordsSet told mem names
    · intro set
      obtain ⟨argument, mem, word, named, names⟩ := setsIff.mp set
      have read : readWord argument ∈ arguments.map readWord := List.mem_map_of_mem mem
      rw [argumentsWords told undivided, named] at read
      obtain ⟨_, listed, same⟩ := List.mem_map.mp read
      cases same
      exact .inr ⟨word, listed, names⟩

end SourceSweep.Cli

import Chiptune.CommandLine

/-! Flags on the command line. An option that occurs is given in the arguments, so a flag that the
arguments lack is not among the words; with the flag in front, the words ask for the same and for
what the flag stands for.
-/

namespace Chiptune

namespace Arguments

/-- Whether an option is given; the options that ask for a text never are. -/
def gives (arguments : Arguments) : CommandOption → Bool
  | .filename => arguments.filename.isSome
  | .device => arguments.device.isSome
  | .quiet => arguments.quiet
  | .display => arguments.display
  | .decompile => arguments.decompile
  | .debug => arguments.debug
  | .tempo => arguments.tempo.isSome
  | .audio => arguments.audio
  | .wav => arguments.wav.isSome
  | .dryRun => arguments.dryRun
  | .help => false
  | .version => false

/-- The arguments, with a debug session and a progress line in addition if these are wanted. -/
def presented (arguments : Arguments) (debug display : Bool) : Arguments :=
  { arguments with
    debug := arguments.debug || debug
    display := arguments.display || display }

variable {arguments longer final : Arguments} {occurrence : Occurrence}
variable {seen : List CommandOption} {error : Option UsageError} {options : List Occurrence}

-----------------------------------------------------------------------------------------
-- Options that are set
-----------------------------------------------------------------------------------------

/-- An option that is set is given in addition to those before, by cases on it. -/
theorem gives_of_set (sets : arguments.set occurrence = .ok longer)
    (runs : occurrence.option ≠ .help ∧ occurrence.option ≠ .version) (option : CommandOption)
    : longer.gives option ↔ option = occurrence.option ∨ arguments.gives option := by
  obtain ⟨other, value⟩ := occurrence
  cases other with
  | help => exact absurd rfl runs.1
  | version => exact absurd rfl runs.2
  | filename | device | wav | tempo =>
      simp only [set] at sets
      split at sets <;> cases sets
      cases option <;> simp [gives]
  | quiet | display | decompile | debug | audio | dryRun =>
      cases sets
      cases option <;> simp [gives]

/-- How a song is presented has no influence on what sets an option, by cases on it. -/
theorem set_presented (arguments : Arguments) (debug display : Bool) (occurrence : Occurrence)
    : (arguments.presented debug display).set occurrence
      = (arguments.set occurrence).map (·.presented debug display) := by
  obtain ⟨option, value⟩ := occurrence
  cases option with
  | filename | device | wav | tempo => simp only [set]; split <;> rfl
  | quiet | decompile | audio | dryRun | help | version => rfl
  | display | debug => simp [set, presented, Except.map]

-----------------------------------------------------------------------------------------
-- Options that are asked for
-----------------------------------------------------------------------------------------

/-- What is asked for goes on from the first option to the others. -/
theorem exists_set_of_request
    (asked : arguments.request seen error (occurrence :: options) = .ok (.run final))
    : occurrence.option ≠ .help
      ∧ occurrence.option ≠ .version
      ∧ ¬seen.contains occurrence.option
      ∧ ∃ longer,
          arguments.set occurrence = .ok longer
          ∧ longer.request (occurrence.option :: seen) error options = .ok (.run final) := by
  simp only [request] at asked
  split at asked
  · cases asked
  · next runs =>
    split at asked
    · cases asked
    · next runsToo =>
      split at asked
      · cases asked
      · next longer sets =>
        split at asked
        · cases asked
        · next new => exact ⟨runs, runsToo, new, longer, sets, asked⟩

theorem eq_of_request_nil (asked : arguments.request seen error [] = .ok (.run final))
    : error = none ∧ arguments.conflict? = none ∧ final = arguments := by
  simp only [request] at asked
  split at asked
  · cases asked
  · cases asked
  · next peace => cases asked; exact ⟨rfl, peace, rfl⟩

/-- The final arguments give the options that were given before and those that occur, by induction
on the latter.
-/
theorem gives_of_request (asked : arguments.request seen error options = .ok (.run final))
    (option : CommandOption)
    : final.gives option ↔ arguments.gives option ∨ option ∈ options.map Occurrence.option := by
  induction options generalizing arguments seen with
  | nil =>
      obtain ⟨-, -, rfl⟩ := eq_of_request_nil asked
      simp
  | cons occurrence options ih =>
      obtain ⟨runs, runsToo, -, longer, sets, rest⟩ := exists_set_of_request asked
      rw [ih rest, gives_of_set sets ⟨runs, runsToo⟩, List.map_cons, List.mem_cons]
      grind

/-- Other options ask for the same after some flags as without them, by induction on them. -/
theorem request_presented (debug display : Bool) {flags : List CommandOption}
    (asked : arguments.request seen error options = .ok (.run final))
    (absent : ∀ flag ∈ flags, ¬final.gives flag)
    : (arguments.presented debug display).request (seen ++ flags) error options
      = .ok (.run (final.presented debug display)) := by
  induction options generalizing arguments seen with
  | nil =>
      obtain ⟨rfl, peace, rfl⟩ := eq_of_request_nil asked
      have peace : (final.presented debug display).conflict? = none := peace
      simp only [request, peace]
  | cons occurrence options ih =>
      obtain ⟨runs, runsToo, new, longer, sets, rest⟩ := exists_set_of_request asked
      have given : final.gives occurrence.option :=
        (gives_of_request asked _).mpr (.inr List.mem_cons_self)
      have new : ¬(seen ++ flags).contains occurrence.option := by
        have unflagged : occurrence.option ∉ flags := fun flagged => absent _ flagged given
        simpa [unflagged] using new
      simp only [request, if_neg runs, if_neg runsToo, set_presented, sets, Except.map,
        if_neg new]
      exact ih rest

/-- A flag in front of words that lack it asks for the same with the flag. -/
theorem parse_cons {words : List String} {text : String} (flag : CommandOption)
    {debug display : Bool} (isFlag : text ≠ "--" ∧ word text = { complete := [⟨flag, ""⟩] })
    (runs : flag ≠ .help ∧ flag ≠ .version)
    (sets
      : ({} : Arguments).set ⟨flag, ""⟩ = .ok (({} : Arguments).presented debug display))
    (parsed : parse words = .ok (.run final)) (absent : ¬final.gives flag)
    : parse (text :: words) = .ok (.run (final.presented debug display)) := by
  have first
      : occurrences (text :: words)
        = (⟨flag, ""⟩ :: (occurrences words).1, (occurrences words).2) := by
    rw [occurrences]
    · simp [isFlag.2]
    · exact isFlag.1
  rw [parse] at parsed
  have rest := request_presented debug display parsed
    (List.forall_mem_singleton.mpr absent)
  rw [parse, first]
  simp only [request, if_neg runs.1, if_neg runs.2, sets]
  exact rest

end Arguments

namespace CommandLine

variable {words : List String} {arguments : Arguments}

theorem request_eq_ok_iff
    : request words = .ok arguments ↔ Arguments.parse words = .ok (.run arguments) := by
  rw [request]
  split <;> simp_all

theorem request_debug (asked : request words = .ok arguments) (absent : arguments.debug = false)
    : request ("--debug" :: words) = .ok { arguments with debug := true } := by
  have longer
      : Arguments.parse ("--debug" :: words) = .ok (.run (arguments.presented true false)) :=
    Arguments.parse_cons .debug ⟨by decide, rfl⟩ ⟨nofun, nofun⟩ rfl
      (request_eq_ok_iff.mp asked) (Bool.eq_false_iff.mp absent)
  rw [request_eq_ok_iff, longer]
  simp [Arguments.presented]

theorem request_display (asked : request words = .ok arguments)
    (absent : arguments.display = false)
    : request ("--display" :: words) = .ok { arguments with display := true } := by
  have longer
      : Arguments.parse ("--display" :: words) = .ok (.run (arguments.presented false true)) :=
    Arguments.parse_cons .display ⟨by decide, rfl⟩ ⟨nofun, nofun⟩ rfl
      (request_eq_ok_iff.mp asked) (Bool.eq_false_iff.mp absent)
  rw [request_eq_ok_iff, longer]
  simp [Arguments.presented]

end CommandLine

end Chiptune

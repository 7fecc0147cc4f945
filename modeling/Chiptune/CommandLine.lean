import Chiptune.CommandLine.Arguments
import Chiptune.CommandLine.Performance
import Chiptune.Compile
import Chiptune.Notation
import Chiptune.Output.Recorder
import Chiptune.Settings.File

/-! The command line: settings are gathered, a song is read and compiled, and then it is listed,
rendered or played. Each step may end the program.
-/

namespace Chiptune.CommandLine

/-- The name of the program. -/
def programName : String := "beeper"

/-- The version of the program. -/
def programVersion : String := "0.1.0"

/-- The text on the version. -/
def versionText : String :=
  asLine s!"{programName} {programVersion}"

/-- The lines on an option. -/
def optionText (option : CommandOption) : String :=
  let short := (option.letter?.map fun letter => s!"-{letter}, ").getD "    "
  let value := if option.hasValue then " <VALUE>" else ""
  asLine ("  " ++ short ++ "--" ++ option.long ++ value)
    ++ asLine ("          " ++ option.purpose)

/-- The text on the options. -/
def helpText : String :=
  asLine "Compile a song and play it on the PC speaker" ++ asLine ""
    ++ asLine s!"Usage: {programName} [OPTIONS]" ++ asLine "" ++ asLine "Options:"
    ++ String.join (CommandOption.all.map optionText)

/-- What the program has written when it ends. -/
structure Transcript where
  exit : Exit
  out : String := ""
  err : String := ""
  /-- The wave file that was made, and its path. -/
  waveFile : Option (String × WaveFile) := none

/-- What the program finds around it. -/
structure Environment where
  /-- The path of the settings file, and its content if there is such a file. -/
  settingsPath : String
  settingsFile : Option (Except IoError (List UInt8))
  /-- The content of a file, or of the standard input if no path is given. -/
  read : Option String → Except IoError (List UInt8)
  /-- A file that is created, with the reason why it takes no data, if it takes none. -/
  create : String → Except IoError (Option IoError)
  /-- A device that is opened. -/
  device : String → Except IoError Device

/-- The settings that the settings file at `path`, if there is one, describes to a reader, and what
is wrong with it. A file that is of no use leaves the defaults.
-/
def fileSettings (reader : Settings.Reader) (path : String)
    (file : Option (Except IoError (List UInt8)))
    : Settings × Option SettingsFileError :=
  match file with
  | none => ({}, none)
  | some content =>
    match Settings.loadBy reader path content with
    | .ok settings => (settings, none)
    | .error error => ({}, some error)

/-- Settings with those that arguments give. -/
def override (settings : Settings) (arguments : Arguments) : Settings :=
  { settings with
    device := arguments.device.getD settings.device
    tempo := arguments.tempo.getD settings.tempo
    display := settings.display || arguments.display }

/-- The warning on a settings file. -/
def warning (error : SettingsFileError) : String :=
  asLine s!"warning: {error.describe}; using defaults"

/-- Where a song is to be heard or seen. -/
inductive Target where
  /-- All tones are listed. -/
  | listing
  | waveFile (path : String)
  | soundCard
  | speaker (path : String)
deriving DecidableEq

/-- A song that is ready to be played. -/
structure Performable where
  program : Program
  settings : Settings
  presentation : Presentation
  target : Target
  /-- What has been written so far. -/
  out : String
  err : String

/-- The target that arguments ask for. -/
def target (arguments : Arguments) (settings : Settings) : Target :=
  if arguments.dryRun then .listing
  else
    match arguments.wav with
    | some path => .waveFile path
    | none => if arguments.audio then .soundCard else .speaker settings.device

/-- What is written on a song that cannot be read. -/
def cannotRead (filename : Option String) (error : IoError) : String :=
  let name := filename.getD "stdin"
  asLine s!"cannot read {name}: {error.describe}"

/-- The settings for a song, and the warning about the settings file if there is one. They are
checked before the song is read, and once: as they are with those of the arguments.
-/
def settleBy (reader : Settings.Reader) (arguments : Arguments) (path : String)
    (file : Option (Except IoError (List UInt8)))
    : Except Transcript (Settings × String) :=
  let (fromFile, fileError) := fileSettings reader path file
  let settings := override fromFile arguments
  let err := (fileError.map warning).getD ""
  match settings.problem? with
  | none => .ok (settings, err)
  | some problem =>
    let error := SettingsFileError.unusable problem
    .error { exit := .usage, err := err ++ asLine error.describe }

/-- The settings for a song where the settings file is a YAML document. -/
def settle (arguments : Arguments) (path : String) (file : Option (Except IoError (List UInt8)))
    : Except Transcript (Settings × String) :=
  settleBy Settings.ofYaml? arguments path file

/-- Compiles the song with this content, until something ends the program or the song is ready to
be played. What has been written so far is `err`.
-/
def prepare (arguments : Arguments) (settings : Settings) (err : String)
    (content : Except IoError (List UInt8))
    : Except Transcript Performable :=
  match content with
  | .error error => .error { exit := .usage, err := err ++ cannotRead arguments.filename error }
  | .ok source =>
    match Program.compile source with
    | .error (.rejected error) =>
      let report := asLine (Report.diagnostic error.diagnostic source)
      .error { exit := .badSong, err := err ++ report }
    | .error (.trapped _) => .error { exit := .stopped, err }
    | .ok program =>
      let out := if arguments.decompile then Notation.render program else ""
      if arguments.quiet then .error { exit := .success, out, err }
      else
        .ok
          { program, settings, out, err
            presentation := ⟨arguments.debug, settings.display⟩
            target := target arguments settings }

namespace Performable

/-- A player of the song on an output. -/
def player (song : Performable) (sink : σ) : Player σ :=
  ⟨Machine.new song.settings.tempo song.settings.maxDepth, song.program, sink⟩

/-- The transcript when nothing is played because of an error. -/
def failed (song : Performable) (exit : Exit) (message : String) : Transcript :=
  { exit, out := song.out, err := song.err ++ asLine message }

/-- The transcript of a song that was listed. -/
def listed (song : Performable) (performance : Performance Recorder) : Transcript :=
  { exit := performance.exit
    out := song.out ++ Report.toneListing performance.sink.played
    err := song.err ++ performance.shown }

/-- The transcript of listing a song. -/
def list? (song : Performable) (budget : Nat) : Option Transcript :=
  let recorder : Recorder := {}
  (Performance.perform? song.presentation (song.player recorder) budget).map song.listed

/-- The transcript when the wave file at `path` cannot be created. -/
def notCreated (song : Performable) (path : String) (error : SinkError) : Transcript :=
  song.failed .cannotOpen s!"cannot create {path}: {error.describe}"

/-- The transcript of a song that was rendered into the wave file at `path`. A file that cannot be
completed counts more than a fault of the song.
-/
def rendered (song : Performable) (path : String) (performance : Performance WaveFile)
    : Transcript :=
  let (closed, error) := performance.sink.close
  let shown := song.err ++ performance.shown
  let complete : Transcript :=
    { exit := performance.exit, out := song.out, err := shown, waveFile := some (path, closed) }
  match error with
  | none => complete
  | some error =>
    let message := asLine s!"cannot finish {path}: {error.describe}"
    { complete with exit := .cannotOpen, err := shown ++ message }

/-- The transcript of rendering a song into the wave file at `path`. -/
def render? (song : Performable) (path : String) (storage : Except IoError (Option IoError))
    (budget : Nat)
    : Option Transcript :=
  match WaveFile.create storage song.settings.sampleRate with
  | .error error => some (song.notCreated path error)
  | .ok file =>
    (Performance.perform? song.presentation (song.player file) budget).map (song.rendered path)

/-- The exit for a speaker that cannot be used. -/
def speakerExit : SpeakerError → Exit
  | .cannotOpen .. => .cannotOpen
  | .cannotQuery .. => .cannotQuery
  | .noSound _ => .noSound

/-- The transcript when a speaker cannot be used. -/
def unsounded (song : Performable) (error : SpeakerError) : Transcript :=
  song.failed (speakerExit error) error.describe

/-- The transcript of a song that was played on a speaker. -/
def sounded (song : Performable) (performance : Performance Speaker) : Transcript :=
  { exit := performance.exit, out := song.out, err := song.err ++ performance.shown }

/-- The transcript of playing a song on the speaker at `path`. -/
def sound? (song : Performable) (path : String) (device : Except IoError Device) (budget : Nat)
    : Option Transcript :=
  match Speaker.start path device with
  | .error error => some (song.unsounded error)
  | .ok speaker =>
    (Performance.perform? song.presentation (song.player speaker) budget).map song.sounded

/-- The transcript if a sound card is asked for, because there is no support for one. -/
def withoutSoundCard (song : Performable) : Transcript :=
  song.failed .usage "built without sound card support; rebuild with --features audio"

/-- The transcript of a song; none if the budget is spent before the song ends. -/
def finish? (song : Performable) (environment : Environment) (budget : Nat) : Option Transcript :=
  match song.target with
  | .listing => song.list? budget
  | .waveFile path => song.render? path (environment.create path) budget
  | .soundCard => some song.withoutSoundCard
  | .speaker path => song.sound? path (environment.device path) budget

end Performable

/-- What the words of the command line ask for: a song to be played, or no more than some text. -/
def request (words : List String) : Except Transcript Arguments :=
  match Arguments.parse words with
  | .error error => .error { exit := .usage, err := asLine error.describe }
  | .ok .help => .error { exit := .success, out := helpText }
  | .ok .version => .error { exit := .success, out := versionText }
  | .ok (.run arguments) => .ok arguments

/-- The song that the words of the command line ask for, unless something ends the program first.
The settings file is read by `reader`.
-/
def songBy (reader : Settings.Reader) (words : List String) (environment : Environment)
    : Except Transcript Performable := do
  let arguments ← request words
  let (settings, err) ←
    settleBy reader arguments environment.settingsPath environment.settingsFile
  prepare arguments settings err (environment.read arguments.filename)

/-- The transcript of the program with a reader of the settings file; none if the budget is spent
before the song ends.
-/
def runBy? (reader : Settings.Reader) (words : List String) (environment : Environment)
    (budget : Nat)
    : Option Transcript :=
  match songBy reader words environment with
  | .error transcript => some transcript
  | .ok song => song.finish? environment budget

/-- The transcript of the program; none if the budget is spent before the song ends. -/
def run? (words : List String) (environment : Environment) (budget : Nat) : Option Transcript :=
  runBy? Settings.ofYaml? words environment budget

end Chiptune.CommandLine

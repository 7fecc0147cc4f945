import Chiptune.CommandLine
import Chiptune.Text.Hex

/-! The program: it reads files, sounds tones on a device as a song goes on, and writes what the
command line answers. What is written and with which exit it ends is decided there.
-/

namespace Chiptune.Main

open CommandLine

/-- The error number of a failure that has none of its own. -/
def inputOutputError : Nat := 5

/-- The error number that came with a failure. Some calls report it negated. -/
def systemError (code : UInt32) : IoError :=
  .system (min code (-code)).toNat

/-- A failure as the system reported it. -/
def failure : IO.Error → IoError
  | .alreadyExists _ code _ => systemError code
  | .otherError code _ => systemError code
  | .resourceBusy code _ => systemError code
  | .resourceVanished code _ => systemError code
  | .unsupportedOperation code _ => systemError code
  | .hardwareFault code _ => systemError code
  | .unsatisfiedConstraints code _ => systemError code
  | .illegalOperation code _ => systemError code
  | .protocolError code _ => systemError code
  | .timeExpired code _ => systemError code
  | .interrupted _ code _ => systemError code
  | .noFileOrDirectory _ code _ => systemError code
  | .invalidArgument _ code _ => systemError code
  | .permissionDenied _ code _ => systemError code
  | .resourceExhausted _ code _ => systemError code
  | .inappropriateType _ code _ => systemError code
  | .noSuchThing _ code _ => systemError code
  | .unexpectedEof => .system inputOutputError
  | .userError _ => .system inputOutputError

/-- The result of an action, or why it failed. -/
def attempt (action : IO α) : IO (Except IoError α) := do
  try
    return .ok (← action)
  catch error =>
    return .error (failure error)

/-- The result of an action on the file at `path`, or why it failed. -/
def attemptAt (path : String) (action : String → IO α) : IO (Except IoError α) :=
  if path.toList.contains '\x00' then return .error .nulInPath
  else attempt (action path)

/-- The bytes of a file, or of the standard input if no path is given. -/
def read : Option String → IO (Except IoError (List UInt8))
  | some path => attemptAt path fun path => return (← IO.FS.readBinFile path).toList
  | none => attempt do return (← (← IO.getStdin).readBinToEnd).toList

/-- Whether there is something at `path`. -/
def isPresent (path : String) : IO Bool := do
  try
    let _ ← IO.FS.realPath path
    return true
  catch _ =>
    return false

/-- The path of the settings file, and its content if there is such a file. -/
def settingsFile : IO (String × Option (Except IoError (List UInt8))) := do
  match ← IO.getEnv "HOME" with
  | none => return ("", none)
  | some "" => return ("", none)
  | some home =>
    let path := home ++ "/.beeper/config.yaml"
    if ← isPresent path then return (path, some (← read (some path)))
    else return (path, none)

/-- The bits of the last word of a line of hexadecimal words. -/
def lastWord? (line : String) : Option UInt32 :=
  let digits := line.toList.reverse.dropWhile Char.isWhitespace |>.takeWhile (· ≠ ' ')
  (Hex.value? digits.reverse).map UInt32.ofNat

/-- The kinds of event that the device at `path` knows, as the system lists them. -/
def capabilities (path : String) : IO (Except IoError UInt32) := do
  try
    let name := (← IO.FS.realPath path).fileName.getD ""
    let line ← IO.FS.readFile s!"/sys/class/input/{name}/device/capabilities/ev"
    return ((lastWord? line).map Except.ok).getD (.error .notQueryable)
  catch _ =>
    return .error .notQueryable

/-- Writes an event to a device. -/
def writeEvent (handle : IO.FS.Handle) (value : UInt32) : IO Unit := do
  handle.write ⟨(Speaker.eventBytes value).toArray⟩
  handle.flush

/-- The tone that the next instruction asks for. -/
def nextTone? (player : Player Speaker) : Option Tone :=
  let ahead : Player Recorder := ⟨player.machine, player.program, {}⟩
  (ahead.play .singleStep 1).player.sink.tones.back?

/-- Sounds the tone that the next instruction asks for. The speaker then knows what the device
answered.
-/
def soundNext (handle : IO.FS.Handle) (player : Player Speaker) : IO (Player Speaker) := do
  match nextTone? player with
  | none => return player
  | some tone =>
    let answer ← attempt do
      writeEvent handle tone.frequency
      IO.sleep tone.millis
      if tone.frequency ≠ 0 then writeEvent handle 0
    match answer with
    | .ok _ => return player
    | .error error => return { player with sink := { player.sink with refusal := some error } }

/-- Plays until a song has ended. What `ahead` does precedes each instruction. Everything is shown
at once, but for what comes with the end.
-/
partial def perform [ToneSink σ] (presentation : Presentation)
    (ahead : Player σ → IO (Player σ))
    : PerformanceStatus σ → IO (Performance σ)
  | .ended performance => return performance
  | .underway player shown => do
    IO.eprint shown
    perform presentation ahead (Performance.proceed presentation 1 (← ahead player))

/-- Plays a song from its start. -/
def performSong [ToneSink σ] (song : Performable) (ahead : Player σ → IO (Player σ))
    (sink : σ)
    : IO (Performance σ) :=
  perform song.presentation ahead (Performance.start song.presentation 0 (song.player sink))

/-- Writes a transcript, and tells its exit code. -/
def tell (transcript : Transcript) : IO UInt32 := do
  IO.print transcript.out
  (← IO.getStdout).flush
  IO.eprint transcript.err
  return UInt32.ofNat transcript.exit.code

/-- Renders a song into a file. -/
def render (song : Performable) (path : String) : IO Transcript := do
  let opened ← attemptAt path fun path => IO.FS.Handle.mk path .write
  let storage := opened.map fun _ => none
  match opened, WaveFile.create storage song.settings.sampleRate with
  | .ok handle, .ok file =>
    let performance ← performSong song pure file
    let answer ← attempt do
      handle.write ⟨performance.sink.close.1.bytes.toArray⟩
      handle.flush
    match answer with
    | .ok _ => return song.rendered path performance
    | .error error =>
      let refusing := { performance.sink with refusal := some error }
      return song.rendered path { performance with sink := refusing }
  | .error error, _ => return song.notCreated path (.failed error)
  | _, .error error => return song.notCreated path error

/-- Plays a song on a speaker, which is silent after a fault. -/
def sound (song : Performable) (path : String) : IO Transcript := do
  let opened ← attemptAt path fun path => IO.FS.Handle.mk path .readWrite
  match opened with
  | .error error => return song.unsounded (.cannotOpen path error)
  | .ok handle =>
    let device : Device := { capabilities := ← capabilities path }
    match Speaker.start path (.ok device) with
    | .error error => return song.unsounded error
    | .ok speaker =>
      let performance ← performSong song (soundNext handle) speaker
      if performance.exit = .fault then
        let _ ← attempt (writeEvent handle 0)
      return song.sounded performance

/-- Plays a song on its target, after showing what was written before. -/
def play (song : Performable) : IO Transcript := do
  IO.print song.out
  (← IO.getStdout).flush
  IO.eprint song.err
  let song := { song with out := "", err := "" }
  match song.target with
  | .listing =>
    let recorder : Recorder := {}
    return song.listed (← performSong song pure recorder)
  | .waveFile path => render song path
  | .soundCard => return song.withoutSoundCard
  | .speaker path => sound song path

/-- The program, from the words of the command line to the transcript. The song is read only if the
settings can be used.
-/
def run (words : List String) : IO Transcript := do
  let (settingsPath, settingsFile) ← settingsFile
  match request words with
  | .error transcript => return transcript
  | .ok arguments =>
    match settle arguments settingsPath settingsFile with
    | .error transcript => return transcript
    | .ok (settings, err) =>
      match prepare arguments settings err (← read arguments.filename) with
      | .error transcript => return transcript
      | .ok song => play song

end Chiptune.Main

/-- Runs the program. -/
def main (words : List String) : IO UInt32 := do
  Chiptune.Main.tell (← Chiptune.Main.run words)

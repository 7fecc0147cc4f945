import Chiptune.Proofs.CommandLine.Flags
import Chiptune.Proofs.Debugging
import Chiptune.Proofs.Playback.Silence
import Chiptune.Proofs.Text.AsciiText

/-! How a song is presented does not matter for what comes of it. A debug session that steps by
itself and a run that shows its progress leave the same output and exit behind as a run that nobody
watches; so a listing has the tones that such a run asks for, and a rendering is the same file.
-/

namespace Chiptune

open ToneSink (HasFixedRange)

-----------------------------------------------------------------------------------------
-- Outputs
-----------------------------------------------------------------------------------------

theorem WaveFile.range_extend (file : WaveFile) (hertz : UInt32) (count : Nat)
    : (file.extend hertz count).range = file.range := by
  have sameRate : (file.extend hertz count).wave.rate = file.wave.rate :=
    SquareWave.rate_render file.wave hertz count file.samples
  rw [range, range, sameRate]
  rfl

/-- Tones that are rendered change neither the rate of a file nor whether it is closed. -/
instance : HasFixedRange WaveFile where
  range_emit file tone := by
    simp only [ToneSink.range, ToneSink.emit, WaveFile.emit]
    split
    · rfl
    · split
      · rfl
      · split
        · split <;> exact file.range_extend tone.frequency _
        · exact file.range_extend tone.frequency _

/-- A recorder that is not told to refuse has recorded all requests. -/
def Tap.IsComplete (tap : Tap Recorder) : Prop :=
  tap.sink.failAt = none ∧ tap.sink.tones.toList = tap.requests

theorem Tap.IsComplete.emit {tap : Tap Recorder} (complete : tap.IsComplete) (tone : Tone)
    : (ToneSink.emit tap tone).1.IsComplete := by
  obtain ⟨never, recorded⟩ := complete
  simp [ToneSink.emit, Recorder.emit, Recorder.refusal?, never, Recorder.record, IsComplete,
    recorded]

theorem Player.isComplete_runWithin {range : ToneRange} {player : Player (Tap Recorder)}
    (complete : player.sink.IsComplete) (mode : Mode) (budget : Nat)
    : (runWithin range mode (fun _ _ _ => ()) budget player ()).player.sink.IsComplete := by
  refine runWithin_preserves (fun player : Player (Tap Recorder) => player.sink.IsComplete) ?_
    complete mode budget
  intro player result complete attempted
  rcases sink_attempt? attempted with same | ⟨tone, -, asked⟩
  · rw [same]
    exact complete
  · rw [asked]
    exact complete.emit tone

-----------------------------------------------------------------------------------------
-- Performances
-----------------------------------------------------------------------------------------

/-- The run for those who do not hear its reports. -/
def Run.untold (run : Run σ ρ) : Run σ Unit :=
  ⟨run.player, (), run.outcome⟩

/-- Reports have no influence on a run. -/
theorem Player.untold_runWithin [ToneSink σ] (range : ToneRange) (mode : Mode)
    (reporter : ρ → Nat → Nat → ρ) (budget : Nat) (player : Player σ) (report : ρ)
    : (runWithin range mode reporter budget player report).untold
      = runWithin range mode (fun _ _ _ => ()) budget player () :=
  retold_runWithin (fun _ => ()) (fun _ _ _ => rfl) budget player report

namespace Performance

/-- What a performance leaves behind for those who do not see what it shows. -/
def heard (performance : Performance σ) : σ × Exit :=
  (performance.sink, performance.exit)

variable [ToneSink σ]

/-- What playing leaves behind when it has stopped for good. -/
def left (player : Player σ) (outcome : Outcome Fault) : σ × Exit :=
  if outcome.fault?.isSome then ((ToneSink.emit player.sink .stop).1, .fault)
  else (player.sink, .success)

theorem heard_conclude (player : Player σ) (outcome : Outcome Fault) (shown : String)
    (isReported : Bool)
    : (conclude player outcome shown isReported).heard = left player outcome := by
  rw [conclude, left]
  cases outcome.fault? <;> rfl

/-- A performance leaves behind what a continuous run of the same budget leaves behind, and it ends
if the run does.
-/
theorem perform?_heard [HasFixedRange σ] (presentation : Presentation) (player : Player σ)
    (budget : Nat)
    : let run := player.play .continuous budget
      (perform? presentation player budget).map heard = run.outcome.map (left run.player) := by
  intro run
  rw [perform?, start]
  split
  · cases finished : player.program.isFinished with
    | true =>
        have atEnd : player.program.current? = none :=
          Array.getElem?_eq_none (of_decide_eq_true finished)
        have ended : run = ⟨player, (), some .ended⟩ :=
          Player.runWithin_ended (congrArg (Option.map _) atEnd) budget
        rw [Debugger.session, if_pos finished, ended]
        rfl
    | false =>
        obtain ⟨lines, session, -⟩ := Debugger.exists_session_automatic player finished budget
        rw [session, ofSession]
        cases run.outcome with
        | none => rfl
        | some outcome => exact congrArg some (heard_conclude ..)
  · have untold : (player.run .continuous (showProgress presentation.display) "" budget).untold
        = run :=
      Player.untold_runWithin ..
    rw [← untold, playThrough, ofRun, Run.untold]
    split
    · next unfinished => rw [unfinished]; rfl
    · next outcome finished => rw [finished]; exact congrArg some (heard_conclude ..)

end Performance

-----------------------------------------------------------------------------------------
-- Transcripts
-----------------------------------------------------------------------------------------

/-- What a recorder has played is not changed by a request to be silent. -/
theorem Recorder.played_stop (recorder : Recorder)
    : (ToneSink.emit recorder .stop).1.played = recorder.played :=
  congrArg Audible.played (isDeaf_audible.stop recorder).2

namespace CommandLine

namespace Performable

/-- A listing has the tones that a continuous run asks for, apart from requests to be silent. -/
theorem list?_heard (song : Performable) (budget : Nat)
    : let run := (song.player ({} : Recorder)).tapped.play .continuous budget
      (song.list? budget).map (fun transcript => (transcript.out, transcript.exit.code))
        = run.outcome.map fun outcome =>
            (song.out ++ Report.toneListing (run.player.sink.requests.filter (· ≠ .stop)),
              if outcome.fault?.isSome then 6 else 0) := by
  intro run
  have complete : run.player.sink.IsComplete :=
    Player.isComplete_runWithin ⟨rfl, rfl⟩ .continuous budget
  have played : run.player.sink.sink.played = run.player.sink.requests.filter (· ≠ .stop) := by
    rw [Recorder.played, complete.2]
  have untapped : (song.player ({} : Recorder)).play .continuous budget = run.viewed Tap.sink :=
    Player.run_viewed Tap.isView_sink (song.player ({} : Recorder)).tapped .continuous _ () budget
  let told (heard : Recorder × Exit) : String × Nat :=
    (song.out ++ Report.toneListing heard.1.played, heard.2.code)
  calc (song.list? budget).map fun transcript => (transcript.out, transcript.exit.code)
    _ = ((Performance.perform? song.presentation (song.player ({} : Recorder)) budget).map
          Performance.heard).map told := by rw [list?, Option.map_map, Option.map_map]; rfl
    _ = (run.outcome.map (Performance.left (run.viewed Tap.sink).player)).map told := by
        rw [Performance.perform?_heard, untapped]; rfl
    _ = _ := by
        rw [Option.map_map, ← played]
        congr 1
        funext outcome
        rw [Function.comp, Performance.left]
        cases outcome.fault? with
        | none => rfl
        | some fault =>
            simp only [Option.isSome_some, if_true, told, Recorder.played_stop]
            rfl

/-- A rendering is what a continuous run leaves behind, once it is closed. -/
theorem render?_heard (song : Performable) (path : String)
    (storage : Except IoError (Option IoError)) (budget : Nat)
    : (song.render? path storage budget).map
          (fun transcript => (transcript.out, transcript.exit, transcript.waveFile))
        = match WaveFile.create storage song.settings.sampleRate with
          | .error _ => some (song.out, .cannotOpen, none)
          | .ok file =>
            let run := (song.player file).play .continuous budget
            run.outcome.map fun outcome =>
              let (left, exit) := Performance.left run.player outcome
              (song.out, if left.close.2.isSome then .cannotOpen else exit,
                some (path, left.close.1)) := by
  rw [render?]
  cases WaveFile.create storage song.settings.sampleRate with
  | error error => rfl
  | ok file =>
      have heard := Performance.perform?_heard song.presentation (song.player file) budget
      have told
          : (fun transcript => (transcript.out, transcript.exit, transcript.waveFile))
                ∘ song.rendered path
              = (fun heard : WaveFile × Exit =>
                  (song.out, if heard.1.close.2.isSome then .cannotOpen else heard.2,
                    some (path, heard.1.close.1)))
                ∘ Performance.heard := by
        funext performance
        rcases closes : performance.sink.close with ⟨closed, _ | error⟩ <;>
          simp [rendered, Performance.heard, closes]
      simp only [Option.map_map, told]
      rw [← Option.map_map, heard, Option.map_map]
      rfl

theorem finish?_of_listing (song : Performable) (listing : song.target = .listing)
    (environment : Environment) (budget : Nat)
    : song.finish? environment budget = song.list? budget := by
  rw [finish?, listing]

theorem finish?_of_waveFile (song : Performable) {path : String}
    (rendering : song.target = .waveFile path) (environment : Environment) (budget : Nat)
    : song.finish? environment budget
      = song.render? path (environment.create path) budget := by
  rw [finish?, rendering]

end Performable

variable {words : List String} {environment : Environment} {arguments : Arguments}
variable {settings : Settings} {err : String} {source : List UInt8} {program : Program}

/-- The settings do not depend on how the song is presented, but for the progress line. -/
theorem exists_settle {path : String} {file : Option (Except IoError (List UInt8))}
    (settled : settle arguments path file = .ok (settings, err)) (debug display : Bool)
    : ∃ shown,
        settle { arguments with debug, display } path file
          = .ok ({ settings with display := shown }, err) := by
  rcases loaded : fileSettings Settings.ofYaml? path file with ⟨fromFile, fileError⟩
  have sameProblem
      : (override fromFile { arguments with debug, display }).problem?
        = (override fromFile arguments).problem? :=
    rfl
  simp only [settle, settleBy, loaded, sameProblem] at settled ⊢
  cases sound : (override fromFile arguments).problem? with
  | some problem => rw [sound] at settled; cases settled
  | none =>
      rw [sound] at settled
      cases settled
      exact ⟨_, rfl⟩

/-- What becomes of a song that is read and compiled and is to be played. -/
theorem run?_eq (asked : request words = .ok arguments)
    (settled
      : settle arguments environment.settingsPath environment.settingsFile = .ok (settings, err))
    (readable : environment.read arguments.filename = .ok source)
    (compiled : Program.compile source = .ok program) (plays : arguments.quiet = false)
    (budget : Nat)
    : run? words environment budget
      = Performable.finish?
          { program, settings, err
            out := if arguments.decompile then Notation.render program else ""
            presentation := ⟨arguments.debug, settings.display⟩
            target := target arguments settings }
          environment budget := by
  rw [settle] at settled
  simp [run?, runBy?, songBy, asked, settled, prepare, readable, compiled, plays, bind,
    Except.bind]

/-- However a song is presented, there is a listing of it if a continuous run ends, with the tones
that the run asks for and the exit for its outcome; and there is the same rendering, with the same
exit. With `--debug` or `--display` in front the words ask for the same in another presentation.
-/
theorem run?_of_presentations (asked : request words = .ok arguments)
    (settled
      : settle arguments environment.settingsPath environment.settingsFile = .ok (settings, err))
    (readable : environment.read arguments.filename = .ok source)
    (compiled : Program.compile source = .ok program) (plays : arguments.quiet = false)
    : let start : Player Recorder := ⟨.new settings.tempo settings.maxDepth, program, {}⟩
      let recorded budget := start.tapped.play .continuous budget
      (∀ others debug display, request others = .ok { arguments with debug, display }
        → ∀ budget,
          (arguments.dryRun
            → (run? others environment budget).map
                  (fun transcript => (transcript.out, transcript.exit.code))
                = (recorded budget).outcome.map fun outcome =>
                    ((if arguments.decompile then Notation.render program else "")
                      ++ Report.toneListing
                          ((recorded budget).player.sink.requests.filter (· ≠ .stop)),
                      if outcome.fault?.isSome then 6 else 0))
          ∧ (arguments.dryRun = false → arguments.wav.isSome
            → (run? others environment budget).map
                  (fun transcript => (transcript.out, transcript.exit, transcript.waveFile))
                = (run? words environment budget).map
                  (fun transcript => (transcript.out, transcript.exit, transcript.waveFile))))
      ∧ (arguments.debug = false
        → request ("--debug" :: words) = .ok { arguments with debug := true })
      ∧ (arguments.display = false
        → request ("--display" :: words) = .ok { arguments with display := true }) := by
  intro start recorded
  refine ⟨fun others debug display askedToo budget => ?_, request_debug asked,
    request_display asked⟩
  obtain ⟨shown, settledToo⟩ := exists_settle settled debug display
  rw [run?_eq askedToo settledToo readable compiled plays]
  refine ⟨fun dryRun => ?_, fun dryRun wav => ?_⟩
  · have listing : target arguments settings = .listing := if_pos dryRun
    rw [Performable.finish?_of_listing _ listing]
    exact Performable.list?_heard _ budget
  · obtain ⟨path, wav⟩ := Option.isSome_iff_exists.mp wav
    have rendering : target arguments settings = .waveFile path := by
      simp [target, dryRun, wav]
    rw [run?_eq asked settled readable compiled plays,
      Performable.finish?_of_waveFile _ rendering, Performable.finish?_of_waveFile _ rendering,
      Performable.render?_heard, Performable.render?_heard]
    rfl

/-- A song with a rest of no length and a fault at its end, listed in a debug session. -/
theorem run?_of_presentations_fault
    : let words := ["--dry-run", "-d"]
      let source := Ascii.encode "A4 5ms REST 0ms RETURN".toList
      let environment : Environment :=
        { settingsPath := "", settingsFile := none
          read _ := .ok source, create _ := .ok none, device _ := .ok ⟨.ok 0, none⟩ }
      request ("--debug" :: words) = .ok { dryRun := true, decompile := true, debug := true }
      ∧ (run? ("--debug" :: words) environment 9).map
            (fun transcript => (transcript.out, transcript.exit.code))
          = some ("A4 5ms\nREST 0ms\nRETURN\n  440 Hz      5 ms\n1 tones, 5 ms\n", 6) := by
  intro words source environment
  let arguments : Arguments := { dryRun := true, decompile := true }
  let program : Program := { code := #[.note 440 (.millis 5), .rest (.millis 0), .comeBack] }
  have asked : request words = .ok arguments := request_eq_ok_iff.mpr (by decide +kernel)
  have sound : (override {} arguments).problem?.isNone := by decide +kernel
  have settled : settle arguments "" none = .ok ({}, "") := by
    simp only [settle, settleBy, fileSettings, Option.isNone_iff_eq_none.mp sound]
    rfl
  have readable : environment.read arguments.filename = .ok source := rfl
  have compiled : Program.compile source = .ok program := by decide +kernel
  obtain ⟨transcripts, debugged, -⟩ :=
    run?_of_presentations asked settled readable compiled rfl
  refine ⟨debugged rfl, ((transcripts _ true false (debugged rfl) 9).1 rfl).trans ?_⟩
  decide +kernel

end CommandLine

end Chiptune

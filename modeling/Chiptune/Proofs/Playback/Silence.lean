import Chiptune.Output.WaveFile
import Chiptune.Proofs.Playback.Tap

/-! Silence never interferes. A recorder writes a request for silence down and a rendering passes it
over, but neither counts it as something that was played. So the runs around it go on as if it had
not been asked for.
-/

namespace Chiptune

open ToneSink (IsView emit silence)

namespace Silencing

/-- What happens in a session with an output. -/
inductive Event where
  | run (mode : Mode) (budget : Nat)
  /-- The owner of the output handles it: a recorder is cleared, and a file is closed. -/
  | handle
  /-- The output is asked for silence like for a tone. -/
  | stop
  /-- Silence is demanded from outside. -/
  | silence
deriving DecidableEq

/-- Whether nothing happens but that silence is asked for. -/
def Event.isSilent : Event → Bool
  | .stop => true
  | .silence => true
  | _ => false

/-- An event, the player after it, and what came of it: the outcome of a run, and the refusal of an
output that was asked directly.
-/
structure Moment (σ : Type) where
  event : Event
  player : Player σ
  outcome : Option (Outcome Fault) := none
  refusal : Option SinkError := none

/-- What is noticed of a moment, with what is heard of the output as an `η`. -/
structure Scene (η : Type) where
  event : Event
  machine : Machine
  program : Program
  heard : η
  outcome : Option (Outcome Fault)
  refusal : Option SinkError

def Moment.seen (hear : σ → η) (moment : Moment σ) : Scene η :=
  ⟨moment.event, moment.player.machine, moment.player.program, hear moment.player.sink,
    moment.outcome, moment.refusal⟩

section History

variable [ToneSink σ] (handle : σ → σ × Option SinkError)

/-- What comes of an event, where the owner's way to handle the output is given. -/
def happen (player : Player σ) (event : Event) : Moment σ :=
  match event with
  | .run mode budget =>
    let run := player.play mode budget
    { event, player := run.player, outcome := run.outcome }
  | .handle =>
    let (sink, refusal) := handle player.sink
    { event, player := { player with sink }, refusal }
  | .stop =>
    let (sink, refusal) := emit player.sink .stop
    { event, player := { player with sink }, refusal }
  | .silence => { event, player := { player with sink := silence player.sink } }

/-- The moments of events that happen one after another. -/
def history (player : Player σ) : List Event → List (Moment σ)
  | [] => []
  | event :: later =>
    let moment := happen handle player event
    moment :: history moment.player later

/-- The player after events. -/
def after (player : Player σ) (events : List Event) : Player σ :=
  events.foldl (fun player event => (happen handle player event).player) player

end History

/-- Events are noticed as if silence had never been asked for among them: every other event leads to
the same, and so do all of them together. Whoever asks the output for silence is not refused.
-/
structure Unheard [ToneSink σ] (handle : σ → σ × Option SinkError) (hear : σ → η)
    (start : Player σ) (events : List Event)
    : Prop where
  scenes
    : ((history handle start events).filter (!·.event.isSilent)).map (·.seen hear)
      = (history handle start (events.filter (!·.isSilent))).map (·.seen hear)
  machine
    : (after handle start events).machine
      = (after handle start (events.filter (!·.isSilent))).machine
  program
    : (after handle start events).program
      = (after handle start (events.filter (!·.isSilent))).program
  heard
    : hear (after handle start events).sink
      = hear (after handle start (events.filter (!·.isSilent))).sink
  granted
    : ∀ moment ∈ history handle start events, moment.event = .stop → moment.refusal = none

-----------------------------------------------------------------------------------------
-- Views that show no silence
-----------------------------------------------------------------------------------------

/-- A view of an output that shows nothing of requests for silence, which are never refused, and in
which it makes no difference what else there is to the output when its owner handles it.
-/
structure IsDeaf [ToneSink σ] [ToneSink τ] (handle : σ → σ × Option SinkError) (view : σ → τ)
    : Prop where
  isView : IsView view
  stop (sink : σ) : (emit sink .stop).2 = none ∧ view (emit sink .stop).1 = view sink
  silence (sink : σ) : view (silence sink) = view sink
  handle {sink other : σ} (alike : view sink = view other)
    : (handle sink).2 = (handle other).2 ∧ view (handle sink).1 = view (handle other).1

namespace IsDeaf

variable [ToneSink σ] [ToneSink τ] {handle : σ → σ × Option SinkError} {view : σ → τ}
variable {player other : Player σ} {hear : σ → η}

/-- Silence is not seen, by cases on how it is asked for. -/
theorem viewed_happen_silent (deaf : IsDeaf handle view) (player : Player σ) {event : Event}
    (silent : event.isSilent)
    : (happen handle player event).player.viewed view = player.viewed view
      ∧ (happen handle player event).refusal = none := by
  cases event with
  | run | handle => cases silent
  | stop =>
      obtain ⟨granted, unseen⟩ := deaf.stop player.sink
      exact ⟨congrArg (Player.mk player.machine player.program) unseen, granted⟩
  | silence =>
      exact ⟨congrArg (Player.mk player.machine player.program) (deaf.silence player.sink), rfl⟩

/-- Players that look alike go on looking alike, by cases on the event. -/
theorem happen_eq (deaf : IsDeaf handle view) (alike : player.viewed view = other.viewed view)
    (event : Event)
    : (happen handle player event).player.viewed view
        = (happen handle other event).player.viewed view
      ∧ (happen handle player event).outcome = (happen handle other event).outcome
      ∧ (happen handle player event).refusal = (happen handle other event).refusal := by
  obtain ⟨machine, program, sink⟩ := player
  obtain ⟨machine', program', sink'⟩ := other
  simp only [Player.viewed, Player.mk.injEq] at alike
  obtain ⟨rfl, rfl, alike⟩ := alike
  cases event with
  | run mode budget =>
      have run := Player.run_viewed deaf.isView ⟨machine, program, sink⟩ mode (fun _ _ _ => ()) ()
        budget
      have runOther := Player.run_viewed deaf.isView ⟨machine, program, sink'⟩ mode
        (fun _ _ _ => ()) () budget
      simp only [Player.viewed] at run runOther
      rw [alike, runOther] at run
      exact ⟨congrArg Run.player run.symm, (congrArg Run.outcome run.symm :), rfl⟩
  | handle =>
      obtain ⟨answer, same⟩ := deaf.handle alike
      exact ⟨congrArg (Player.mk machine program) same, rfl, answer⟩
  | stop =>
      have answer := deaf.isView.emit sink .stop
      rw [alike, deaf.isView.emit sink' .stop] at answer
      obtain ⟨same, answer⟩ := Prod.mk.inj answer
      exact ⟨congrArg (Player.mk machine program) same.symm, rfl, answer.symm⟩
  | silence =>
      have same := (deaf.silence sink).trans (alike.trans (deaf.silence sink').symm)
      exact ⟨congrArg (Player.mk machine program) same, rfl, rfl⟩

theorem event_happen (player : Player σ) (event : Event)
    : (happen handle player event).event = event := by
  cases event <;> rfl

/-- Silence can be left out of a session, by induction on the events. -/
theorem history_filter (deaf : IsDeaf handle view)
    (hears : ∀ {sink other}, view sink = view other → hear sink = hear other)
    (alike : player.viewed view = other.viewed view) (events : List Event)
    : ((history handle player events).filter (!·.event.isSilent)).map (·.seen hear)
        = (history handle other (events.filter (!·.isSilent))).map (·.seen hear)
      ∧ (after handle player events).viewed view
        = (after handle other (events.filter (!·.isSilent))).viewed view := by
  induction events generalizing player other with
  | nil => exact ⟨rfl, alike⟩
  | cons event later ih =>
      have sameEvent : (happen handle player event).event = event := event_happen player event
      cases silent : event.isSilent with
      | true =>
          have unseen := (deaf.viewed_happen_silent player silent).1
          have rest := ih (unseen.trans alike)
          simpa [history, after, sameEvent, silent] using rest
      | false =>
          obtain ⟨next, outcome, refusal⟩ := deaf.happen_eq alike event
          obtain ⟨scenes, final⟩ := ih next
          have seen
              : (happen handle player event).seen hear = (happen handle other event).seen hear := by
            simp only [Player.viewed, Player.mk.injEq] at next
            obtain ⟨machine, program, sink⟩ := next
            simp only [Moment.seen, event_happen, machine, program, hears sink, outcome, refusal]
          constructor
          · simp [history, sameEvent, silent, seen, scenes]
          · simpa [after, silent] using final

end IsDeaf

/-- A view that shows what is heard shows that silence is unheard. -/
theorem IsDeaf.unheard [ToneSink σ] [ToneSink τ] {handle : σ → σ × Option SinkError}
    {view : σ → τ} {hear : σ → η} (deaf : IsDeaf handle view)
    (hears : ∀ {sink other}, view sink = view other → hear sink = hear other)
    (start : Player σ) (events : List Event)
    : Unheard handle hear start events := by
  obtain ⟨scenes, final⟩ := deaf.history_filter hears (rfl : start.viewed view = _) events
  simp only [Player.viewed, Player.mk.injEq] at final
  obtain ⟨machine, program, sink⟩ := final
  refine ⟨scenes, machine, program, hears sink, ?_⟩
  clear scenes machine program sink
  induction events generalizing start with
  | nil => exact List.forall_mem_nil _
  | cons event later ih =>
      refine List.forall_mem_cons.mpr ⟨fun asked => ?_, ih _⟩
      rw [event_happen] at asked
      exact (deaf.viewed_happen_silent start (by rw [asked]; rfl)).2

end Silencing

-----------------------------------------------------------------------------------------
-- Recorders and renderings
-----------------------------------------------------------------------------------------

/-- What matters of a recorder apart from silence: what was played, and what it still takes. -/
structure Recorder.Audible where
  played : List Tone
  range : ToneRange
  failAt : Option Nat

namespace Recorder

open Silencing (IsDeaf)

def audible (recorder : Recorder) : Audible :=
  ⟨recorder.played, recorder.range, recorder.failAt⟩

namespace Audible

def record (audible : Audible) (tone : Tone) : Audible :=
  { audible with played := audible.played ++ [tone] }

/-- Whether everything but silence is refused. -/
def isFull (audible : Audible) : Bool :=
  audible.failAt = some audible.played.length

instance : ToneSink Audible where
  range := range
  emit audible tone :=
    if tone = .stop then (audible, none)
    else if audible.isFull then (audible, some (.injected audible.played.length))
    else (audible.record tone, none)
  silence := id

end Audible

theorem audible_record_stop (recorder : Recorder)
    : (recorder.record .stop).audible = recorder.audible := by
  rw [audible, recorder.played_record_stop]
  rfl

theorem audible_record (recorder : Recorder) {tone : Tone} (sounds : tone ≠ .stop)
    : (recorder.record tone).audible = recorder.audible.record tone := by
  rw [audible, recorder.played_record sounds]
  rfl

/-- A tone is refused for what was played alone. -/
theorem refusal?_eq (recorder : Recorder) {tone : Tone} (sounds : tone ≠ .stop)
    : recorder.refusal? tone
      = if recorder.audible.isFull then some (.injected recorder.audible.played.length)
        else none := by
  obtain ⟨tones, range, failAt⟩ := recorder
  cases failAt with
  | none => simp [refusal?, Audible.isFull, audible]
  | some limit =>
      by_cases full : limit = (mk tones range (some limit)).played.length
      · simp [refusal?, Audible.isFull, audible, sounds, ← full]
      · simp [refusal?, Audible.isFull, audible, sounds, full, Ne.symm full]

/-- What a recorder answers can be told from what is heard of it, by cases on the request. -/
theorem isView_audible : ToneSink.IsView audible where
  range _ := rfl
  emit recorder tone := by
    by_cases stops : tone = .stop
    · subst stops
      have granted : recorder.refusal? .stop = none := by
        unfold refusal?
        cases recorder.failAt <;> rfl
      simp only [ToneSink.emit, emit, granted, audible_record_stop, if_true]
    · simp only [ToneSink.emit, emit, recorder.refusal?_eq stops, if_neg stops]
      by_cases full : recorder.audible.isFull
      · simp only [if_pos full]
      · simp only [if_neg full, recorder.audible_record stops]

theorem isDeaf_audible : IsDeaf (fun recorder => (recorder.clear, none)) audible where
  isView := isView_audible
  stop recorder := by
    obtain ⟨unheard, granted⟩ := Prod.mk.inj (isView_audible.emit recorder .stop)
    exact ⟨granted.symm, unheard.symm⟩
  silence := audible_record_stop
  handle alike := by
    simp only [audible, Audible.mk.injEq] at alike
    simp [audible, clear, alike, played]

/-- Silence lasts no time. -/
theorem totalMillis_eq (recorder : Recorder)
    : recorder.totalMillis = Tone.totalMillis recorder.played := by
  rw [totalMillis, Tone.totalMillis, Tone.totalMillis, played, List.foldl_filter]
  congr 1
  funext total tone
  by_cases stops : tone = .stop
  · simp [stops, Tone.stop]
  · simp [stops]

end Recorder

/-- Of a rendering all is heard, because silence does not change it. -/
theorem WaveFile.isDeaf_id : Silencing.IsDeaf WaveFile.close id where
  isView := ⟨fun _ => rfl, fun _ _ => rfl⟩
  stop _ := ⟨rfl, rfl⟩
  silence _ := rfl
  handle alike := ⟨congrArg (·.close.2) alike, congrArg (·.close.1) alike⟩

namespace Silencing

/-- Requests for silence before, between and after runs are never refused and change nothing else:
each run has the same outcome and leaves the machine and the program in the same state, a recorder
has the same tones played with the same sum of durations, and a rendering is the same in all
respects. That holds also after faults and refusals, of a recorder that is cleared meanwhile, and of
a file that is closed.
-/
theorem silence_unheard (machine : Machine) (program : Program) (events : List Event)
    : (∀ recorder : Recorder,
        Unheard (fun recorder => (recorder.clear, none))
          (fun recorder => (recorder.played, recorder.totalMillis))
          ⟨machine, program, recorder⟩ events)
      ∧ ∀ file : WaveFile, Unheard WaveFile.close id ⟨machine, program, file⟩ events := by
  refine ⟨fun recorder => ?_, fun file => WaveFile.isDeaf_id.unheard id _ events⟩
  refine Recorder.isDeaf_audible.unheard (fun {recorder other} alike => ?_) _ events
  have played : recorder.played = other.played := congrArg Recorder.Audible.played alike
  simp only [Recorder.totalMillis_eq, played]

/-- Silence before, between and after two runs, the second of which is refused its second tone. -/
theorem silence_unheard_refusal
    : let program : Program :=
        { code := #[.note 440 (.millis 5), .rest (.millis 0), .note 262 (.millis 7)] }
      let start : Player Recorder := ⟨.new 120 1, program, { failAt := some 1 }⟩
      let clear (recorder : Recorder) : Recorder × Option SinkError := (recorder.clear, none)
      let hear (recorder : Recorder) := (recorder.played, recorder.totalMillis)
      let events : List Event :=
        [.stop, .run .singleStep 9, .silence, .stop, .run .continuous 9, .stop, .silence]
      (history clear start events).map (·.outcome)
        = [none, some (.suspended 1), none, none, some (.faulted ⟨.refused (.injected 1), 2⟩), none,
          none]
      ∧ hear (after clear start events).sink
        = hear (after clear start [.run .singleStep 9, .run .continuous 9]).sink
      ∧ hear (after clear start events).sink = ([⟨440, 5⟩], 5)
      ∧ ∀ moment ∈ history clear start events, moment.event = .stop → moment.refusal = none := by
  intro program start clear hear events
  have unheard := (silence_unheard (.new 120 1) program events).1 { failAt := some 1 }
  exact ⟨by decide +kernel, unheard.heard, by decide +kernel, unheard.granted⟩

end Silencing

end Chiptune

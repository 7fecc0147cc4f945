import Chiptune.Output.WaveFile
import Chiptune.Proofs.Playback.Ranges
import Chiptune.Proofs.Playback.Sessions

/-! Outputs that can play less. An output has a say in a playback only where it is asked for a tone
that lies outside its range or that it refuses. Up to there a song is played on it as on any output
with a wider range, and what it has taken by then is the beginning of what the other one takes.
-/

namespace Chiptune

open ToneSink (NeverRefuses emit)

/-- Every tone in the range `inner` lies in the range `outer`. -/
structure ToneRange.Within (inner outer : ToneRange) : Prop where
  minHertz : outer.minHertz ≤ inner.minHertz
  maxHertz : inner.maxHertz ≤ outer.maxHertz
  maxMillis : inner.maxMillis ≤ outer.maxMillis

/-- Whether a fault is for the output to decide: what it can play, and what it refuses. -/
def FaultKind.isOfSink : FaultKind → Bool
  | .outOfRangeTone => true
  | .sinkFailure => true
  | _ => false

theorem FaultKind.isOfSink_eq_false {kind : FaultKind} (inRange : kind ≠ .outOfRangeTone)
    (taken : kind ≠ .sinkFailure)
    : kind.isOfSink = false := by
  cases kind with
  | outOfRangeTone => exact absurd rfl inRange
  | sinkFailure => exact absurd rfl taken
  | invalidJumpTarget | stackOverflow | stackUnderflow => rfl

-----------------------------------------------------------------------------------------
-- Moves
-----------------------------------------------------------------------------------------

namespace ToneRange.Within

variable {inner outer : ToneRange} {machine : Machine} {size cursor : Nat}
variable {instruction : Instruction} {length : Length} {millis : UInt32} {cause : FaultCause}

theorem acceptsFrequency (within : inner.Within outer) {hertz : UInt32}
    (inRange : inner.acceptsFrequency hertz)
    : outer.acceptsFrequency hertz := by
  obtain ⟨above, below⟩ := ToneRange.acceptsFrequency_iff.mp inRange
  exact ToneRange.acceptsFrequency_iff.mpr
    ⟨UInt32.le_trans within.minHertz above, UInt32.le_trans below within.maxHertz⟩

theorem resolve_eq_ok (within : inner.Within outer)
    (lasts : machine.resolve inner length = .ok millis)
    : machine.resolve outer length = .ok millis := by
  obtain ⟨resolved, held⟩ := Machine.resolve_eq_ok_iff.mp lasts
  exact Machine.resolve_eq_ok_iff.mpr ⟨resolved, UInt32.le_trans held within.maxMillis⟩

theorem sound_eq_ok (within : inner.Within outer) {hertz : UInt32} {target : Nat} {move : Move}
    (sounds : machine.sound inner hertz length target = .ok move)
    : machine.sound outer hertz length target = .ok move := by
  unfold Machine.sound at sounds ⊢
  cases lasts : machine.resolve inner length with
  | error cause => rw [lasts] at sounds; cases sounds
  | ok millis =>
      rw [lasts] at sounds
      rw [within.resolve_eq_ok lasts]
      exact sounds

/-- A move in a range is made in every wider one, by cases on the instruction. -/
theorem move_eq_ok (within : inner.Within outer) {move : Move}
    (moves : machine.move inner size cursor instruction = .ok move)
    : machine.move outer size cursor instruction = .ok move := by
  cases instruction with
  | note hertz length =>
      rw [Machine.move] at moves ⊢
      split at moves
      · next inRange =>
        rw [if_pos (within.acceptsFrequency inRange)]
        exact within.sound_eq_ok moves
      · cases moves
  | rest length => exact within.sound_eq_ok moves
  | tempo | jump | call | comeBack | repeatOpen | repeatClose | breakpoint => exact moves

end ToneRange.Within

-----------------------------------------------------------------------------------------
-- Tones that were taken
-----------------------------------------------------------------------------------------

/-- An output, and the tones that it took. -/
structure Ledger (σ : Type) where
  sink : σ
  taken : List Tone

namespace Ledger

variable [ToneSink σ] {ledger : Ledger σ} {tone : Tone} {sink : σ}

/-- The ledger after a request, given the answer of the output inside. -/
def enter (ledger : Ledger σ) (tone : Tone) : σ × Option SinkError → Ledger σ × Option SinkError
  | (sink, none) => (⟨sink, ledger.taken ++ [tone]⟩, none)
  | (sink, some error) => (⟨sink, ledger.taken⟩, some error)

instance : ToneSink (Ledger σ) where
  range ledger := ToneSink.range ledger.sink
  emit ledger tone := ledger.enter tone (emit ledger.sink tone)
  silence ledger := ⟨ToneSink.silence ledger.sink, ledger.taken ++ [.stop]⟩

theorem isView_sink : ToneSink.IsView (Ledger.sink : Ledger σ → σ) where
  range _ := rfl
  emit ledger tone := by
    simp only [ToneSink.emit]
    rcases emit ledger.sink tone with ⟨sink, _ | error⟩ <;> rfl

end Ledger

-----------------------------------------------------------------------------------------
-- Two players side by side
-----------------------------------------------------------------------------------------

namespace Player

variable [ToneSink σ] [ToneSink τ]

/-- The player on an output that writes down what it takes, which is nothing yet. -/
def ledgered (player : Player σ) : Player (Ledger σ) :=
  player.viewed fun sink => ⟨sink, []⟩

/-- The first player and the second one stand where the same way has led them: the first output
took all that the second one was asked for, and the second one refuses nothing.
-/
structure Alongside (narrow : Player (Ledger σ)) (wide : Player (Tap τ)) : Prop where
  machine : wide.machine = narrow.machine
  program : wide.program = narrow.program
  tones : wide.sink.requests = narrow.sink.taken
  steady : NeverRefuses wide.sink

/-- What attempts on two outputs lead to, the first of which took the tones `before` until then.
Either both lead to the same, or the first output puts an end to it and takes nothing more.
-/
inductive SameOrCut (before : List Tone)
    : Option (Player (Ledger σ) × Option Fault) → Option (Player (Tap τ) × Option Fault) → Prop
  | ended : SameOrCut before none none
  | same {narrow wide fault} (together : Alongside narrow wide)
    : SameOrCut before (some (narrow, fault)) (some (wide, fault))
  | cut {stopped fault result} (ofSink : fault.cause.kind.isOfSink)
    (unchanged : stopped.sink.taken = before)
    : SameOrCut before (some (stopped, some fault)) (some result)

/-- What runs on two outputs lead to. Either both lead to the same, or the first output puts an end
to its run, and what it took by then is the beginning of what the second one was asked for.
-/
inductive CutShort : Run (Ledger σ) ρ → Run (Tap τ) ρ → Prop
  | same {narrow wide report outcome} (together : Alongside narrow wide)
    : CutShort ⟨narrow, report, outcome⟩ ⟨wide, report, outcome⟩
  | cut {stopped report fault whole} (ofSink : fault.cause.kind.isOfSink)
    (earlier : stopped.sink.taken <+: whole.player.sink.requests)
    : CutShort ⟨stopped, report, some (.faulted fault)⟩ whole

namespace CutShort

variable {run : Run (Ledger σ) ρ} {whole : Run (Tap τ) ρ}

omit [ToneSink σ] in
theorem taken_isPrefix_requests (comes : CutShort run whole)
    : run.player.sink.taken <+: whole.player.sink.requests := by
  cases comes with
  | same together => exact together.tones ▸ List.prefix_refl _
  | cut _ earlier => exact earlier

omit [ToneSink σ] in
theorem same_of_forall (comes : CutShort run whole)
    (other
      : ∀ fault, run.outcome = some (.faulted fault) → fault.cause.kind.isOfSink = false)
    : Alongside run.player whole.player
      ∧ whole.outcome = run.outcome
      ∧ whole.report = run.report := by
  cases comes with
  | same together => exact ⟨together, rfl, rfl⟩
  | @cut _ _ fault _ ofSink _ => exact absurd ofSink (Bool.eq_false_iff.mp (other fault rfl))

end CutShort

variable {inner outer : ToneRange} {narrow : Player (Ledger σ)} {wide : Player (Tap τ)}
variable {mode : Mode} {reporter : ρ → Nat → Nat → ρ} {report : ρ}

namespace Alongside

/-- The output comes in only after the move was found, so attempts can differ in no other way than
by what it answers; by cases on the move and the answer.
-/
theorem attempt (alongside : Alongside narrow wide) (within : inner.Within outer)
    {instruction : Instruction} (here : narrow.program.current? = some instruction)
    : SameOrCut narrow.sink.taken (some (narrow.attempt inner instruction))
        (some (wide.attempt outer instruction)) := by
  obtain ⟨machine, program, tap⟩ := wide
  obtain ⟨rfl, rfl, tones, steady⟩ := alongside
  let start : Player (Tap τ) := ⟨narrow.machine, narrow.program, tap⟩
  have hereWide : start.program.current? = some instruction := here
  cases answer : narrow.machine.move inner narrow.program.size narrow.program.cursor instruction with
  | error cause =>
      rw [attempt_of_error here answer]
      by_cases other : cause.kind = .outOfRangeTone
      · refine .cut ?_ rfl
        simp only [other, FaultKind.isOfSink]
      · have answerWide
            : start.machine.move outer start.program.size start.program.cursor instruction
              = .error cause :=
          Machine.move_eq_error outer answer other
        rw [attempt_of_error hereWide answerWide]
        exact .same ⟨rfl, rfl, tones, steady⟩
  | ok move =>
      have answerWide
          : start.machine.move outer start.program.size start.program.cursor instruction
            = .ok move :=
        within.move_eq_ok answer
      cases asks : move.tone with
      | none =>
          rw [attempt_of_silent here answer asks, attempt_of_silent hereWide answerWide asks]
          exact .same ⟨rfl, rfl, tones, steady⟩
      | some tone =>
          rw [attempt_of_taken hereWide answerWide asks (steady.emit tone)]
          match inside : emit narrow.sink.sink tone with
          | (later, none) =>
            have taken : emit narrow.sink tone = (⟨later, narrow.sink.taken ++ [tone]⟩, none) :=
              congrArg (narrow.sink.enter tone) inside
            rw [attempt_of_taken here answer asks taken]
            refine .same ⟨rfl, rfl, ?_, steady.after [tone]⟩
            exact (congrArg Tap.requests (ToneSink.after_tap tap [tone])).trans
              (congrArg (· ++ [tone]) tones)
          | (later, some error) =>
            have refused : emit narrow.sink tone = (⟨later, narrow.sink.taken⟩, some error) :=
              congrArg (narrow.sink.enter tone) inside
            rw [attempt_of_refused here answer asks refused]
            exact .cut rfl rfl

theorem attempt? (alongside : Alongside narrow wide) (within : inner.Within outer)
    : SameOrCut narrow.sink.taken (narrow.attempt? inner) (wide.attempt? outer) := by
  rw [Player.attempt?, Player.attempt?, alongside.program]
  cases here : narrow.program.current? with
  | none => exact .ended
  | some instruction => exact alongside.attempt within here

/-- Runs stay side by side up to where the first output ends its run, by induction on the budget. -/
theorem runWithin (alongside : Alongside narrow wide) (within : inner.Within outer) (mode : Mode)
    (reporter : ρ → Nat → Nat → ρ) (budget : Nat) (report : ρ)
    : CutShort (runWithin inner mode reporter budget narrow report)
        (runWithin outer mode reporter budget wide report) := by
  induction budget generalizing narrow wide report with
  | zero =>
      have attempts := alongside.attempt? within
      generalize next : narrow.attempt? inner = result at attempts
      generalize nextWide : wide.attempt? outer = resultWide at attempts
      cases attempts with
      | ended =>
          rw [runWithin_ended next, runWithin_ended nextWide]
          exact .same alongside
      | same | cut =>
          rw [runWithin_zero next, runWithin_zero nextWide]
          exact .same alongside
  | succ budget ih =>
      have attempts := alongside.attempt? within
      generalize next : narrow.attempt? inner = result at attempts
      generalize nextWide : wide.attempt? outer = resultWide at attempts
      cases attempts with
      | ended =>
          rw [runWithin_ended next, runWithin_ended nextWide]
          exact .same alongside
      | cut ofSink unchanged =>
          rw [runWithin_faulted next]
          refine .cut ofSink ?_
          rw [unchanged, ← alongside.tones]
          exact isPrefix_requests_runWithin mode (budget + 1) wide report
      | @same later laterWide fault together =>
          cases fault with
          | some fault =>
              rw [runWithin_faulted next, runWithin_faulted nextWide]
              exact .same together
          | none =>
              have stops : laterWide.suspends mode = later.suspends mode := by
                rw [suspends, suspends, together.program]
              rw [runWithin_step next, runWithin_step nextWide, stops, together.program]
              split
              · exact .same together
              · exact ih together _

end Alongside

/-- A song is played on an output like on one with a wider range that never refuses, step by step,
until a tone lies outside the narrower range or is refused. So the tones that the first output takes
are always the beginning of those that the second one is asked for, and a run that does not end with
such a fault leads to the same on both.
-/
theorem run_cutShort (machine : Machine) (program : Program) (narrow : σ) (wide : τ)
    (within : (ToneSink.range narrow).Within (ToneSink.range wide)) (steady : NeverRefuses wide)
    (mode : Mode) (reporter : ρ → Nat → Nat → ρ) (report : ρ) (budget : Nat)
    : let onNarrow : Player σ := ⟨machine, program, narrow⟩
      let onWide : Player τ := ⟨machine, program, wide⟩
      let run := onNarrow.ledgered.run mode reporter report budget
      let whole := onWide.tapped.run mode reporter report budget
      run.player.sink.taken <+: whole.player.sink.requests
      ∧ ((∀ fault, run.outcome = some (.faulted fault)
          → fault.cause.kind ≠ .outOfRangeTone ∧ fault.cause.kind ≠ .sinkFailure)
        → whole.player.machine = run.player.machine
          ∧ whole.player.program = run.player.program
          ∧ whole.player.sink.requests = run.player.sink.taken
          ∧ whole.outcome = run.outcome
          ∧ whole.report = run.report)
      ∧ run.viewed Ledger.sink = onNarrow.run mode reporter report budget
      ∧ whole.viewed Tap.sink = onWide.run mode reporter report budget := by
  intro onNarrow onWide run whole
  have together : Alongside onNarrow.ledgered onWide.tapped :=
    ⟨rfl, rfl, rfl, steady.tap []⟩
  have comes : CutShort run whole := together.runWithin within mode reporter budget report
  refine ⟨comes.taken_isPrefix_requests, fun other => ?_, ?_, ?_⟩
  · obtain ⟨together, outcome, told⟩ := comes.same_of_forall fun fault faulted => by
      obtain ⟨inRange, taken⟩ := other fault faulted
      exact FaultKind.isOfSink_eq_false inRange taken
    exact ⟨together.machine, together.program, together.tones, outcome, told⟩
  · exact (run_viewed Ledger.isView_sink onNarrow.ledgered mode reporter report budget).symm
  · exact (run_viewed Tap.isView_sink onWide.tapped mode reporter report budget).symm

end Player

/-- A rendering has no wider range than a speaker, whatever its rate. -/
theorem WaveFile.within_pcSpeaker (file : WaveFile)
    : (ToneSink.range file).Within .pcSpeaker where
  minHertz := UInt32.le_refl _
  maxHertz := Std.min_le_right
  maxMillis := UInt32.le_refl _

/-- A rendering at a low rate stops before a high tone, which a recorder takes. Up to there both are
asked for the same.
-/
theorem Player.run_cutShort_rendering
    : let program : Program :=
        { code := #[.note 440 (.millis 0), .note 5000 (.millis 5), .rest (.millis 5)] }
      let file : WaveFile := { wave := { rate := 8000 } }
      let recorder : Recorder := {}
      let rendered : Player WaveFile := ⟨.new 120 1, program, file⟩
      let recorded : Player Recorder := ⟨.new 120 1, program, recorder⟩
      let run := rendered.ledgered.play .continuous 9
      let whole := recorded.tapped.play .continuous 9
      (ToneSink.range file).Within (ToneSink.range recorder)
      ∧ NeverRefuses recorder
      ∧ run.outcome = some (.faulted ⟨.frequencyOutOfRange 5000 ⟨21, 4000, 60000⟩, 1⟩)
      ∧ run.player.sink.taken = [⟨440, 0⟩]
      ∧ whole.player.sink.requests = [⟨440, 0⟩, ⟨5000, 5⟩, ⟨0, 5⟩]
      ∧ run.player.sink.taken <+: whole.player.sink.requests
      ∧ (rendered.ledgered.play .continuous 1).outcome = none
      ∧ (recorded.tapped.play .continuous 1).player.sink.requests
        = (rendered.ledgered.play .continuous 1).player.sink.taken := by
  intro program file recorder rendered recorded run whole
  have within := WaveFile.within_pcSpeaker file
  have steady : NeverRefuses recorder := Recorder.neverRefuses rfl
  have cutShort :=
    run_cutShort (.new 120 1) program file recorder within steady .continuous (fun _ _ _ => ()) ()
  have goesOn : (rendered.ledgered.play .continuous 1).outcome = none := by decide +kernel
  obtain ⟨earlier, -⟩ := cutShort 9
  obtain ⟨-, same, -⟩ := cutShort 1
  obtain ⟨-, -, requests, -⟩ := same fun fault faulted => by cases goesOn.symm.trans faulted
  exact ⟨within, steady, by decide +kernel, by decide +kernel, by decide +kernel, earlier, goesOn,
    requests⟩

end Chiptune

import Chiptune.Output.Recorder
import Chiptune.Proofs.Playback.Ranges
import Chiptune.Proofs.Playback.Tap

/-! Faults change nothing. What an instruction has done when it fails is undone by nobody, so that it
changes nothing but the output is a property of its steps. The song can be resumed at the
instruction that has the fault, and then it has the same fault again, unless the fault is about the
range of the output and the output has changed that.
-/

namespace Chiptune

/-- An output that is not changed by a request that it refuses. -/
class ToneSink.HasInertRefusals (σ : Type) [ToneSink σ] : Prop where
  eq_of_refused {sink refusing : σ} {tone : Tone} {error : SinkError}
    (refused : emit sink tone = (refusing, some error))
    : refusing = sink

instance : ToneSink.HasInertRefusals Recorder where
  eq_of_refused {recorder refusing tone error} refused := by
    simp only [ToneSink.emit, Recorder.emit] at refused
    split at refused
    · cases refused
    · cases refused; rfl

namespace Player

open ToneSink (HasInertRefusals)

variable [ToneSink σ] {range : ToneRange} {player stopped : Player σ} {fault : Fault}
variable {instruction : Instruction}

namespace Fails

theorem cursor_lt_size (fails : player.Fails range instruction fault stopped)
    : fault.cursor < player.program.size := by
  rw [fails.cursor, ← Program.current?_isSome_iff, fails.here]
  rfl

/-- A fault that is not a refusal was raised by the instruction, before the output was asked. -/
theorem reason_of_answered (fails : player.Fails range instruction fault stopped)
    (answered : fault.cause.kind ≠ .sinkFailure)
    : player.machine.move range player.program.size player.program.cursor instruction
        = .error fault.cause
      ∧ stopped.sink = player.sink := by
  rcases fails.reason with raised | ⟨_, _, error, -, -, -, refused⟩
  · exact raised
  · rw [refused] at answered
    exact absurd rfl answered

theorem exists_eq_mk (fails : player.Fails range instruction fault stopped)
    : ∃ cause sink,
        fault = ⟨cause, player.program.cursor⟩
        ∧ stopped = ⟨{ player.machine with lastFault := some fault }, player.program, sink⟩ := by
  refine ⟨fault.cause, stopped.sink, ?_, ?_⟩
  · rw [← fails.cursor]
  · rw [← fails.machine, ← fails.program]

/-- A cause that the instruction raises in a range is raised in that range after the fault, whatever
the output is, because the instruction looks at nothing that has changed.
-/
theorem attempt?_of_error [ToneSink τ] {other : ToneRange}
    (fails : player.Fails range instruction fault stopped)
    (raises
      : player.machine.move other player.program.size player.program.cursor instruction
        = .error fault.cause)
    (view : σ → τ)
    : (stopped.viewed view).attempt? other = some (stopped.viewed view, some fault) := by
  have here := fails.here
  obtain ⟨cause, sink, rfl, rfl⟩ := fails.exists_eq_mk
  have unmoved := player.machine.move_lastFault other player.program.size player.program.cursor
    instruction (some ⟨cause, player.program.cursor⟩)
  rw [raises] at unmoved
  exact Option.map_eq_some_iff.mpr ⟨instruction, here, attempt_of_error here unmoved⟩

/-- A fault that is not a refusal is met again in the same range, and in every range if it is not
about the range.
-/
theorem attempt?_of_answered [ToneSink τ] {other : ToneRange}
    (fails : player.Fails range instruction fault stopped)
    (answered : fault.cause.kind ≠ .sinkFailure)
    (steady : fault.cause.kind ≠ .outOfRangeTone ∨ other = range) (view : σ → τ)
    : (stopped.viewed view).attempt? other = some (stopped.viewed view, some fault) := by
  have raises := (fails.reason_of_answered answered).1
  rcases steady with unranged | rfl
  · exact fails.attempt?_of_error (Machine.move_eq_error other raises unranged) view
  · exact fails.attempt?_of_error raises view

/-- A fault is met again if refusals do not change the output, by cases on the reason. -/
theorem attempt?_stopped [HasInertRefusals σ]
    (fails : player.Fails range instruction fault stopped)
    : stopped.attempt? range = some (stopped, some fault) := by
  rcases fails.reason with ⟨raises, -⟩ | ⟨move, tone, error, moves, asks, refused, refusal⟩
  · exact fails.attempt?_of_error raises id
  · have here := fails.here
    have same := HasInertRefusals.eq_of_refused refused
    obtain ⟨cause, sink, rfl, rfl⟩ := fails.exists_eq_mk
    obtain rfl : sink = player.sink := same
    obtain rfl : cause = .refused error := refusal
    have unmoved := player.machine.move_lastFault range player.program.size
      player.program.cursor instruction (some ⟨.refused error, player.program.cursor⟩)
    rw [moves] at unmoved
    exact Option.map_eq_some_iff.mpr
      ⟨instruction, here, attempt_of_refused here unmoved asks refused⟩

end Fails

theorem exists_execute_of_attempt? (raised : player.attempt? range = some (stopped, some fault))
    : ∃ instruction left,
        player.program.current? = some instruction
        ∧ (execute range instruction).run player = .error fault left
        ∧ stopped = { left with machine.lastFault := some fault } := by
  obtain ⟨instruction, here, attempted⟩ := Option.map_eq_some_iff.mp raised
  rw [attempt] at attempted
  cases result : (execute range instruction).run player with
  | ok value next => rw [result] at attempted; cases attempted
  | error other left =>
      rw [result] at attempted
      cases attempted
      exact ⟨instruction, left, here, result, rfl⟩

/-- A run that ends with a fault has it again if refusals do not change the output and the output
has kept its range.
-/
theorem run_again [HasInertRefusals σ] {mode modeAgain : Mode} {reporter : ρ → Nat → Nat → ρ}
    {report : ρ} {budget : Nat}
    (faulted : (player.run mode reporter report budget).outcome = some (.faulted fault))
    (sameRange
      : ToneSink.range (player.run mode reporter report budget).player.sink
        = ToneSink.range player.sink)
    (reporterAgain : κ → Nat → Nat → κ) (reportAgain : κ) (budgetAgain : Nat)
    : (player.run mode reporter report budget).player.run modeAgain reporterAgain reportAgain
        (budgetAgain + 1)
      = ⟨(player.run mode reporter report budget).player, reportAgain,
          some (.faulted fault)⟩ := by
  obtain ⟨_, -, attempted⟩ := exists_reaches_of_faulted faulted
  obtain ⟨_, fails⟩ := fails_of_attempt? attempted
  rw [run, sameRange]
  exact runWithin_faulted fails.attempt?_stopped budgetAgain

/-- A run that ends with a fault has made its way to the instruction that the fault is about and
told the reporter of every instruction on the way. The steps of the instruction at fault leave the
machine and the program as they were, and the output as well if that did not refuse a tone; then the
fault is noted down. If the fault is neither a refusal nor about the range of the output, every run
from there has the same fault at once, asks the output for nothing and tells the reporter nothing.
A fault about the range is met again as long as the output has the range that it had when the run
began; so is a refusal, if refusals do not change the output, and every fault on a recorder.
-/
theorem run_faulted (player : Player σ) (mode : Mode) (reporter : ρ → Nat → Nat → ρ)
    (report : ρ) (budget : Nat) {fault : Fault}
    (faulted : (player.run mode reporter report budget).outcome = some (.faulted fault))
    : let range := ToneSink.range player.sink
      let run := player.run mode reporter report budget
      let tapped := player.tapped.run mode reporter report budget
      tapped.viewed Tap.sink = run
      ∧ (∃ before instruction left,
          Reaches range reporter player.tapped report before tapped.report
          ∧ before.program.current? = some instruction
          ∧ (execute range instruction).run before = .error fault left
          ∧ left.machine = before.machine
          ∧ left.program = before.program
          ∧ (fault.cause.kind ≠ .sinkFailure → left.sink = before.sink)
          ∧ tapped.player = { left with machine.lastFault := some fault })
      ∧ fault.cursor = run.player.program.cursor
      ∧ fault.cursor < run.player.program.size
      ∧ run.player.machine.lastFault = some fault
      ∧ (fault.cause.kind ≠ .sinkFailure
        → fault.cause.kind ≠ .outOfRangeTone ∨ ToneSink.range run.player.sink = range
        → ∀ {κ : Type} (mode : Mode) (reporter : κ → Nat → Nat → κ) (report : κ) (budget : Nat),
            run.player.tapped.run mode reporter report (budget + 1)
              = ⟨run.player.tapped, report, some (.faulted fault)⟩)
      ∧ (HasInertRefusals σ → ToneSink.range run.player.sink = range
        → ∀ {κ : Type} (mode : Mode) (reporter : κ → Nat → Nat → κ) (report : κ) (budget : Nat),
            run.player.run mode reporter report (budget + 1)
              = ⟨run.player, report, some (.faulted fault)⟩)
      ∧ ∀ recording : Player Recorder,
          let run := recording.run mode reporter report budget
          run.outcome = some (.faulted fault)
          → ∀ {κ : Type} (mode : Mode) (reporter : κ → Nat → Nat → κ) (report : κ)
              (budget : Nat),
              run.player.run mode reporter report (budget + 1)
                = ⟨run.player, report, some (.faulted fault)⟩ := by
  intro range run tapped
  have viewed : tapped.viewed Tap.sink = run :=
    (run_viewed Tap.isView_sink player.tapped mode reporter report budget).symm
  have faultedTapped : tapped.outcome = some (.faulted fault) :=
    (congrArg Run.outcome viewed).trans faulted
  obtain ⟨before, way, attempted⟩ := exists_reaches_of_faulted faultedTapped
  obtain ⟨instruction, left, here, executed, noted⟩ := exists_execute_of_attempt? attempted
  have unchanged := atomic_execute range instruction before fault left executed
  obtain ⟨_, -, attemptedPlain⟩ := exists_reaches_of_faulted faulted
  obtain ⟨_, fails⟩ := fails_of_attempt? attemptedPlain
  have inside := fails.cursor_lt_size
  rw [← fails.program] at inside
  refine ⟨viewed, ⟨before, instruction, left, way, here, executed, unchanged.machine,
    unchanged.program, unchanged.untouched, noted⟩, ?_, inside, ?_, ?_, ?_, ?_⟩
  · exact fails.cursor.trans (congrArg Program.cursor fails.program.symm)
  · exact congrArg Machine.lastFault fails.machine
  · intro answered steady κ mode reporter report budget
    exact runWithin_faulted
      (fails.attempt?_of_answered answered steady fun sink => (⟨sink, []⟩ : Tap σ)) budget
  · intro inert sameRange κ mode reporter report budget
    exact run_again faulted sameRange reporter report budget
  · intro recording run faultedRecording κ modeAgain reporterAgain reportAgain budgetAgain
    exact run_again faultedRecording (range_runWithin mode budget recording report) reporterAgain
      reportAgain budgetAgain

/-- The second tone of a song is refused, twice. -/
theorem run_faulted_refusal
    : let player : Player Recorder :=
        ⟨.new 120 1, { code := #[.note 440 (.millis 5), .rest (.millis 5)] },
          { failAt := some 1 }⟩
      let fault : Fault := ⟨.refused (.injected 1), 1⟩
      let run := player.play .continuous 9
      run.outcome = some (.faulted fault)
      ∧ run.player.sink.tones = #[⟨440, 5⟩]
      ∧ run.player.play .singleStep 1 = ⟨run.player, (), some (.faulted fault)⟩ := by
  intro player fault run
  have faulted : run.outcome = some (.faulted fault) := by decide +kernel
  obtain ⟨-, -, -, -, -, -, -, again⟩ :=
    run_faulted player .continuous (fun _ _ _ => ()) () 9 faulted
  exact ⟨faulted, by decide +kernel, again player faulted .singleStep (fun _ _ _ => ()) () 0⟩

/-- On an output that can hold longer tones after the first one, a tone that was too long is played
by the next run.
-/
theorem run_faulted_shifting
    : let player : Player Shifting :=
        ⟨.new 120 1, { code := #[.note 440 (.millis 1), .note 440 (.millis 5)] },
          ⟨[1, 60000]⟩⟩
      let run := player.play .continuous 9
      let fault : Fault := ⟨.durationTooLong 5 1, 1⟩
      run.outcome = some (.faulted fault)
      ∧ fault.cause.kind ≠ .sinkFailure
      ∧ (run.player.play .continuous 9).outcome = some .ended := by
  decide +kernel

end Player

end Chiptune

import Chiptune.Output.Recorder
import Chiptune.Proofs.Playback.Ranges
import Chiptune.Proofs.Playback.Tap

/-! Stopping and resuming a playback does not change it. Every run but the last makes a part of the
playback, and the next run goes on where it was suspended, in the range that the output still has.
-/

namespace Chiptune.Player

open ToneSink (HasFixedRange)

variable [ToneSink σ] {range : ToneRange} {reporter : ρ → Nat → Nat → ρ} {player : Player σ}

-----------------------------------------------------------------------------------------
-- Runs one after another
-----------------------------------------------------------------------------------------

/-- Runs that come to an end make up a playback, by induction on their number. -/
theorem plays_of_runsAfter [HasFixedRange σ] {modes : Nat → Mode} {report : ρ}
    {made budget calls : Nat}
    (isOver : (player.runsAfter made modes reporter report budget calls).1.isOver)
    : ∃ attempts,
        Plays (ToneSink.range player.sink) reporter attempts player report
          (player.runsAfter made modes reporter report budget calls).1 := by
  induction calls generalizing made player report with
  | zero => cases isOver
  | succ calls ih =>
      simp only [runsAfter_succ] at isOver ⊢
      split
      · next again =>
        rw [if_pos again] at isOver
        obtain ⟨attempts, rest⟩ := ih isOver
        simp only [Bool.and_eq_true, Option.any_eq_true] at again
        obtain ⟨⟨outcome, stops, suspended⟩, -⟩ := again
        rw [run, range_runWithin] at rest
        cases outcome with
        | suspended cursor => exact plays_of_suspended stops rest
        | ended | faulted => cases suspended
      · next last =>
        rw [if_neg last] at isOver
        exact plays_of_isOver isOver

/-- With a budget and a number of runs that are large enough, runs one after another come to the
end of a playback, by induction on the number of runs.
-/
theorem Plays.runsAfter_eq [HasFixedRange σ] {report : ρ} {attempts made budget calls : Nat}
    {final : Run σ ρ}
    (plays : Plays (ToneSink.range player.sink) reporter attempts player report final)
    (enough : attempts ≤ budget) (more : attempts < calls) (modes : Nat → Mode)
    : (player.runsAfter made modes reporter report budget calls).1 = final := by
  induction calls generalizing made player report attempts with
  | zero => cases more
  | succ calls ih =>
      rw [runsAfter_succ]
      rcases plays.runWithin_eq_or enough (modes made)
        with whole | ⟨cursor, fewer, suspended, less, rest⟩
      · -- A run that makes up the whole is over, so no other one follows it.
        have isOver := plays.isOver
        rw [Run.isOver, ← whole] at isOver
        have last : ¬((player.run (modes made) reporter report budget).outcome.any
            (·.isSuspended) && calls ≠ 0) := by
          intro again
          simp only [Bool.and_eq_true, Option.any_eq_true] at again
          obtain ⟨⟨outcome, stops, suspended⟩, -⟩ := again
          rw [run] at stops
          simp [stops, suspended] at isOver
        simp only [if_neg last]
        exact whole
      · -- Every run leaves less to play, so there are enough of them.
        have again : ((player.run (modes made) reporter report budget).outcome.any
            (·.isSuspended) && calls ≠ 0) := by
          have left : calls ≠ 0 := by omega
          simp [run, suspended, Outcome.isSuspended, left]
        simp only [if_pos again]
        have later
            : Plays (ToneSink.range (player.run (modes made) reporter report budget).player.sink)
                reporter fewer (player.run (modes made) reporter report budget).player
                (player.run (modes made) reporter report budget).report final := by
          rw [run, range_runWithin]
          exact rest
        exact ih later (by omega) (by omega)

/-- The continuous runs that are over are the playbacks. -/
theorem exists_run_continuous_iff {report : ρ} {final : Run σ ρ}
    : (∃ budget, player.run .continuous reporter report budget = final) ∧ final.isOver
      ↔ ∃ attempts,
          Plays (ToneSink.range player.sink) reporter attempts player report final := by
  constructor
  · rintro ⟨⟨budget, rfl⟩, isOver⟩
    exact plays_of_isOver isOver
  · rintro ⟨attempts, plays⟩
    exact ⟨⟨attempts, plays.runWithin_continuous (Nat.le_refl _)⟩, plays.isOver⟩

/-- The last ones of runs after another are the playbacks if they are over, whatever the modes. -/
theorem exists_runs_iff [HasFixedRange σ] {modes : Nat → Mode} {report : ρ} {final : Run σ ρ}
    : (∃ budget calls, (player.runs modes reporter report budget calls).1 = final) ∧ final.isOver
      ↔ ∃ attempts,
          Plays (ToneSink.range player.sink) reporter attempts player report final := by
  constructor
  · rintro ⟨⟨budget, calls, rfl⟩, isOver⟩
    exact plays_of_runsAfter isOver
  · rintro ⟨attempts, plays⟩
    exact ⟨⟨attempts, attempts + 1,
      plays.runsAfter_eq (Nat.le_refl _) (Nat.lt_succ_self _) modes⟩, plays.isOver⟩

/-- Playing a song in runs of any modes, each of which goes on where the last one was suspended,
ends exactly if a continuous run does, and then it leads to the same: the same outcome, reports and
requests, and the same state of the machine, the program and the output.
-/
theorem runs_eq_continuous [HasFixedRange σ] (player : Player σ) (modes : Nat → Mode)
    (reporter : ρ → Nat → Nat → ρ) (report : ρ)
    : let resumed budget calls := (player.tapped.runs modes reporter report budget calls).1
      let continuous budget := player.tapped.run .continuous reporter report budget
      ((∃ budget calls, (resumed budget calls).isOver) ↔ ∃ budget, (continuous budget).isOver)
      ∧ (∀ budget calls whole, (resumed budget calls).isOver → (continuous whole).isOver
          → resumed budget calls = continuous whole)
      ∧ (∀ budget calls,
          (resumed budget calls).viewed Tap.sink
            = (player.runs modes reporter report budget calls).1)
      ∧ ∀ budget,
          (continuous budget).viewed Tap.sink
            = player.run .continuous reporter report budget := by
  intro resumed continuous
  refine ⟨⟨?_, ?_⟩, ?_, ?_, ?_⟩
  · rintro ⟨budget, calls, isOver⟩
    have plays := exists_runs_iff.mp ⟨⟨budget, calls, rfl⟩, isOver⟩
    obtain ⟨⟨whole, same⟩, -⟩ := exists_run_continuous_iff.mpr plays
    exact ⟨whole, (congrArg Run.isOver same).trans isOver⟩
  · rintro ⟨whole, isOver⟩
    have plays := exists_run_continuous_iff.mp ⟨⟨whole, rfl⟩, isOver⟩
    obtain ⟨⟨budget, calls, same⟩, -⟩ := exists_runs_iff.mpr plays
    exact ⟨budget, calls, (congrArg Run.isOver same).trans isOver⟩
  · intro budget calls whole isOver overContinuous
    obtain ⟨attempts, plays⟩ := exists_runs_iff.mp ⟨⟨budget, calls, rfl⟩, isOver⟩
    obtain ⟨others, playsContinuous⟩ :=
      exists_run_continuous_iff.mp ⟨⟨whole, rfl⟩, overContinuous⟩
    exact plays.unique playsContinuous
  · intro budget calls
    have viewed := runsAfter_viewed Tap.isView_sink 0 player.tapped modes reporter report budget
      calls
    exact (congrArg Prod.fst viewed).symm
  · intro budget
    exact (run_viewed Tap.isView_sink player.tapped .continuous reporter report budget).symm

/-- Steps through a loop with a breakpoint in it are a continuous run on a recorder. -/
theorem runs_eq_continuous_recorder
    : let player : Player Recorder :=
        ⟨.new 120 1, { code := #[.repeatOpen 2 4, .note 440 (.ticks 960), .breakpoint,
          .repeatClose 1, .rest (.millis 5), .comeBack] }, {}⟩
      let modes (made : Nat) : Mode := if made % 2 = 0 then .singleStep else .untilBreakpoint
      let reporter (calls : List (Nat × Nat)) (cursor size : Nat) := calls ++ [(cursor, size)]
      (player.tapped.runs modes reporter [] 20 20).1
        = player.tapped.run .continuous reporter [] 20 :=
  (runs_eq_continuous
    ⟨.new 120 1, { code := #[.repeatOpen 2 4, .note 440 (.ticks 960), .breakpoint,
      .repeatClose 1, .rest (.millis 5), .comeBack] }, ({} : Recorder)⟩
    (fun made => if made % 2 = 0 then .singleStep else .untilBreakpoint)
    (fun calls cursor size => calls ++ [(cursor, size)]) []).2.1 20 20 20
    (by decide +kernel) (by decide +kernel)

end Chiptune.Player

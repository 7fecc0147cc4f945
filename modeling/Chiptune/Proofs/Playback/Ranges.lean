import Chiptune.Proofs.Playback.Moves

/-! What the range of an output has a say in. A run asks for the range at its start and never again.
An output whose range no request changes is therefore played on in one range by all runs, while on
an output that changes its range the next run can find another one.
-/

namespace Chiptune

-----------------------------------------------------------------------------------------
-- Instructions
-----------------------------------------------------------------------------------------

namespace Machine

variable {inner outer : ToneRange} {machine : Machine} {size cursor : Nat}
variable {instruction : Instruction} {length : Length} {cause : FaultCause}

theorem kind_of_resolve (fails : machine.resolve inner length = .error cause)
    : cause.kind = .outOfRangeTone := by
  unfold resolve at fails
  split at fails
  · cases fails; rfl
  · split at fails
    · cases fails
    · cases fails; rfl

/-- The range has no influence on an instruction that plays nothing, by cases. -/
theorem move_eq_of_silent (silent : instruction.length? = none)
    : machine.move inner size cursor instruction = machine.move outer size cursor instruction := by
  cases instruction with
  | note | rest => cases silent
  | tempo | jump | call | comeBack | repeatOpen | repeatClose | breakpoint => rfl

/-- A cause that has nothing to do with the range is raised in every range. -/
theorem move_eq_error (outer : ToneRange)
    (raises : machine.move inner size cursor instruction = .error cause)
    (other : cause.kind ≠ .outOfRangeTone)
    : machine.move outer size cursor instruction = .error cause := by
  cases raises_of_move raises with
  | frequency => exact absurd rfl other
  | duration _ fails => exact absurd (kind_of_resolve fails) other
  | target carries | full carries =>
      have silent : instruction.length? = none := by
        cases instruction <;> first | rfl | cases carries
      rwa [← move_eq_of_silent silent]
  | returnTo | noCall | noLoop => exact raises

end Machine

-----------------------------------------------------------------------------------------
-- Outputs that keep their range
-----------------------------------------------------------------------------------------

namespace Player

open ToneSink (HasFixedRange)

variable [ToneSink σ] [HasFixedRange σ] {range : ToneRange} {reporter : ρ → Nat → Nat → ρ}
variable {player : Player σ}

theorem range_attempt? {result : Player σ × Option Fault}
    (next : player.attempt? range = some result)
    : ToneSink.range result.1.sink = ToneSink.range player.sink := by
  rcases sink_attempt? next with same | ⟨tone, -, asked⟩
  · rw [same]
  · rw [asked]
    exact HasFixedRange.range_emit player.sink tone

/-- A run does not change the range of the output, because no attempt does. -/
theorem range_runWithin (mode : Mode) (budget : Nat) (player : Player σ) (report : ρ)
    : ToneSink.range (runWithin range mode reporter budget player report).player.sink
      = ToneSink.range player.sink :=
  runWithin_preserves (fun other => ToneSink.range other.sink = ToneSink.range player.sink)
    (fun same attempted => (range_attempt? attempted).trans same) rfl mode budget

end Player

-----------------------------------------------------------------------------------------
-- Outputs that change their range
-----------------------------------------------------------------------------------------

/-- An output that takes every tone, and after each of them holds tones of another length. -/
structure Shifting where
  /-- The longest tone that can be held now, and after each of the tones to come. -/
  limits : List UInt32
deriving DecidableEq

instance : ToneSink Shifting where
  range sink := { ToneRange.pcSpeaker with maxMillis := sink.limits.headD 0 }
  emit sink _ := (⟨sink.limits.tail⟩, none)
  silence sink := sink

end Chiptune

import Chiptune.Proofs.Playback

/-! Clients of a player. A client runs, rewinds, seeks and resets in any order. A run whose budget
is spent stands for a moment within a longer run, so the states between two operations are all
states that a client can bring about.
-/

namespace Chiptune

/-- What a client can ask of a player that keeps its program. -/
inductive Operation where
  | run (mode : Mode) (budget : Nat)
  | rewind
  /-- Move the cursor, if `target` is not past the end. -/
  | seek (target : Nat)
  | reset
deriving DecidableEq

namespace Player

variable [ToneSink σ]

/-- The player after an operation. -/
def perform (player : Player σ) : Operation → Player σ
  | .run mode budget => (player.play mode budget).player
  | .rewind => { player with program := player.program.rewind }
  | .seek target => { player with program := (player.program.seek? target).getD player.program }
  | .reset => { player with machine := player.machine.reset }

def performAll (player : Player σ) (operations : List Operation) : Player σ :=
  operations.foldl perform player

/-- What every operation preserves is preserved by all of them, by induction on their number. -/
theorem performAll_preserves (good : Player σ → Prop)
    (step : ∀ {player} operation, good player → good (player.perform operation))
    {player : Player σ} (start : good player) (operations : List Operation)
    : good (player.performAll operations) := by
  induction operations generalizing player with
  | nil => exact start
  | cons operation later ih => exact ih (step operation start)

end Player

end Chiptune

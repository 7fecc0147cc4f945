import Chiptune.Output.Recorder
import Chiptune.Proofs.Playback
import Chiptune.Proofs.Playback.Move

/-! Outputs that write down the requests made to them. What is written down does not change how a
program is played: a run on such an output is the run on the output inside.
-/

namespace Chiptune

open ToneSink (emit)

/-- A view of an output as another one that takes and refuses the same requests. -/
structure ToneSink.IsView [ToneSink σ] [ToneSink τ] (view : σ → τ) : Prop where
  range (sink : σ) : range (view sink) = range sink
  emit (sink : σ) (tone : Tone)
    : emit (view sink) tone = (view (emit sink tone).1, (emit sink tone).2)

/-- An output, and the requests made to it with those that it refused. -/
structure Tap (σ : Type) where
  sink : σ
  requests : List Tone

namespace Tap

variable [ToneSink σ]

instance : ToneSink (Tap σ) where
  range tap := ToneSink.range tap.sink
  emit tap tone := (⟨(emit tap.sink tone).1, tap.requests ++ [tone]⟩, (emit tap.sink tone).2)
  silence tap := ⟨ToneSink.silence tap.sink, tap.requests ++ [.stop]⟩

instance [ToneSink.HasFixedRange σ] : ToneSink.HasFixedRange (Tap σ) where
  range_emit tap tone := ToneSink.HasFixedRange.range_emit tap.sink tone

theorem isView_sink : ToneSink.IsView (Tap.sink : Tap σ → σ) where
  range _ := rfl
  emit _ _ := rfl

end Tap

namespace Player

def viewed (view : σ → τ) (player : Player σ) : Player τ :=
  ⟨player.machine, player.program, view player.sink⟩

/-- The player on an output that writes down its requests, of which there are none yet. -/
def tapped (player : Player σ) : Player (Tap σ) :=
  player.viewed fun sink => ⟨sink, []⟩

end Player

def Run.viewed (view : σ → τ) (run : Run σ ρ) : Run τ ρ :=
  ⟨run.player.viewed view, run.report, run.outcome⟩

namespace Player

variable [ToneSink σ] [ToneSink τ] {view : σ → τ} {player : Player σ}

/-- An attempt can be made on a view of the output, by cases on the move and its tone. -/
theorem attempt_viewed (isView : ToneSink.IsView view) {instruction : Instruction}
    (here : player.program.current? = some instruction) (range : ToneRange)
    : (player.viewed view).attempt range instruction
      = ((player.attempt range instruction).1.viewed view,
          (player.attempt range instruction).2) := by
  let viewed := player.viewed view
  have hereViewed : viewed.program.current? = some instruction := here
  cases moves : player.machine.move range player.program.size player.program.cursor instruction with
  | error cause =>
      have movesViewed
          : viewed.machine.move range viewed.program.size viewed.program.cursor instruction
            = .error cause := moves
      rw [attempt_of_error here moves, attempt_of_error hereViewed movesViewed]
      rfl
  | ok move =>
      have movesViewed
          : viewed.machine.move range viewed.program.size viewed.program.cursor instruction
            = .ok move := moves
      cases asks : move.tone with
      | none =>
          rw [attempt_of_silent here moves asks,
            attempt_of_silent hereViewed movesViewed asks]
          rfl
      | some tone =>
          have answer := isView.emit player.sink tone
          match taken : emit player.sink tone with
          | (sink, none) =>
            rw [taken] at answer
            rw [attempt_of_taken here moves asks taken,
              attempt_of_taken hereViewed movesViewed asks answer]
            rfl
          | (sink, some error) =>
            rw [taken] at answer
            rw [attempt_of_refused here moves asks taken,
              attempt_of_refused hereViewed movesViewed asks answer]
            rfl

theorem attempt?_viewed (isView : ToneSink.IsView view) (player : Player σ) (range : ToneRange)
    : (player.viewed view).attempt? range
      = (player.attempt? range).map fun (next, fault) => (next.viewed view, fault) := by
  cases here : player.program.current? with
  | none =>
      have hereViewed : (player.viewed view).program.current? = none := here
      rw [attempt?, attempt?, here, hereViewed]
      rfl
  | some instruction =>
      have hereViewed : (player.viewed view).program.current? = some instruction := here
      rw [attempt?, attempt?, here, hereViewed]
      exact congrArg some (attempt_viewed isView here range)

theorem runWithin_viewed (isView : ToneSink.IsView view) (range : ToneRange) (mode : Mode)
    (reporter : ρ → Nat → Nat → ρ) (budget : Nat) (player : Player σ) (report : ρ)
    : runWithin range mode reporter budget (player.viewed view) report
      = (runWithin range mode reporter budget player report).viewed view := by
  have nextViewed := attempt?_viewed isView player range
  induction budget generalizing player report with
  | zero =>
      cases next : player.attempt? range with
      | none =>
          rw [next] at nextViewed
          rw [runWithin_ended next, runWithin_ended nextViewed]
          rfl
      | some result =>
          rw [next] at nextViewed
          rw [runWithin_zero next, runWithin_zero nextViewed]
          rfl
  | succ budget ih =>
      match next : player.attempt? range with
      | none =>
        rw [next] at nextViewed
        rw [runWithin_ended next, runWithin_ended nextViewed]
        rfl
      | some (stopped, some fault) =>
        rw [next] at nextViewed
        rw [runWithin_faulted next, runWithin_faulted nextViewed]
        rfl
      | some (later, none) =>
        rw [next] at nextViewed
        have rest := ih later (reporter report later.program.cursor later.program.size)
          (attempt?_viewed isView later range)
        rw [runWithin_step next, runWithin_step nextViewed, apply_ite (Run.viewed view), ← rest]
        rfl

/-- A run can be made on a view of the output, because both have one range. -/
theorem run_viewed (isView : ToneSink.IsView view) (player : Player σ) (mode : Mode)
    (reporter : ρ → Nat → Nat → ρ) (report : ρ) (budget : Nat)
    : (player.viewed view).run mode reporter report budget
      = (player.run mode reporter report budget).viewed view := by
  have same : ToneSink.range (player.viewed view).sink = ToneSink.range player.sink :=
    isView.range player.sink
  rw [run, run, same, runWithin_viewed isView]

/-- Runs one after another can be made on a view of the output, by induction on their number. -/
theorem runsAfter_viewed (isView : ToneSink.IsView view) (made : Nat) (player : Player σ)
    (modes : Nat → Mode) (reporter : ρ → Nat → Nat → ρ) (report : ρ) (budget calls : Nat)
    : (player.viewed view).runsAfter made modes reporter report budget calls
      = ((player.runsAfter made modes reporter report budget calls).1.viewed view,
          (player.runsAfter made modes reporter report budget calls).2) := by
  induction calls generalizing made player report with
  | zero => rfl
  | succ calls ih =>
      simp only [runsAfter_succ, run_viewed isView, Run.viewed, ih]
      split <;> rfl

end Player

-----------------------------------------------------------------------------------------
-- Outputs that take every tone
-----------------------------------------------------------------------------------------

namespace ToneSink

variable [ToneSink σ]

def after (sink : σ) (tones : List Tone) : σ :=
  tones.foldl (fun sink tone => (emit sink tone).1) sink

/-- The output takes every tone, whatever it was asked for before. -/
def NeverRefuses (sink : σ) : Prop :=
  ∀ tones tone, (emit (after sink tones) tone).2 = none

theorem after_append (sink : σ) (first second : List Tone)
    : after sink (first ++ second) = after (after sink first) second :=
  List.foldl_append

/-- An output that takes every tone still does so after some of them. -/
theorem NeverRefuses.after {sink : σ} (steady : NeverRefuses sink) (tones : List Tone)
    : NeverRefuses (after sink tones) := by
  intro later tone
  rw [← after_append]
  exact steady (tones ++ later) tone

theorem NeverRefuses.emit {sink : σ} (steady : NeverRefuses sink) (tone : Tone)
    : emit sink tone = (ToneSink.after sink [tone], none) :=
  Prod.ext rfl (steady [] tone)

/-- All tones that were asked for are written down. -/
theorem after_tap (tap : Tap σ) (tones : List Tone)
    : after tap tones = ⟨after tap.sink tones, tap.requests ++ tones⟩ := by
  induction tones generalizing tap with
  | nil => simp [after]
  | cons tone later ih =>
      have rest := ih (emit tap tone).1
      simp only [after, List.foldl_cons] at rest ⊢
      rw [rest]
      simp [ToneSink.emit]

/-- Writing down the requests makes no output refuse any. -/
theorem NeverRefuses.tap {sink : σ} (steady : NeverRefuses sink) (requests : List Tone)
    : NeverRefuses (⟨sink, requests⟩ : Tap σ) := by
  intro tones tone
  rw [after_tap]
  exact steady tones tone

end ToneSink

/-- A recorder that is not told to refuse takes every tone, by induction on the tones. -/
theorem Recorder.neverRefuses {recorder : Recorder} (never : recorder.failAt = none)
    : ToneSink.NeverRefuses recorder := by
  intro tones tone
  induction tones generalizing recorder with
  | nil => simp [ToneSink.after, ToneSink.emit, Recorder.emit, refusal?, never]
  | cons first later ih =>
      have next : (ToneSink.emit recorder first).1.failAt = none := by
        simp [ToneSink.emit, Recorder.emit, refusal?, never, record]
      exact ih next

end Chiptune

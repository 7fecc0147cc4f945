import Chiptune.Player

/-! Playbacks without budgets. A playback makes one attempt after another until the song ends or
an instruction has a fault. A run with enough budget that is never suspended makes just these
attempts, and a suspended run makes the first ones of them.
-/

namespace Chiptune

/-- Whether a run has come to the end of its song or to a fault. -/
def Run.isOver (run : Run σ ρ) : Bool :=
  run.outcome.any (!·.isSuspended)

theorem Run.isOver_iff {run : Run σ ρ}
    : run.isOver
      ↔ run.outcome = some .ended ∨ ∃ fault, run.outcome = some (.faulted fault) := by
  rcases outcome : run.outcome with _ | _ | _ | _ <;> simp [isOver, outcome, Outcome.isSuspended]

/-- The run with its report told in another way. -/
def Run.retold (tell : ρ → κ) (run : Run σ ρ) : Run σ κ :=
  ⟨run.player, tell run.report, run.outcome⟩

namespace Player

variable [ToneSink σ]

/-- What attempting the instruction under the cursor leads to; none at the end of the song. -/
def attempt? (player : Player σ) (range : ToneRange) : Option (Player σ × Option Fault) :=
  player.program.current?.map (player.attempt range)

/-- A playback that is over after a number of attempts, and the run that it makes up. -/
inductive Plays (range : ToneRange) (reporter : ρ → Nat → Nat → ρ)
    : Nat → Player σ → ρ → Run σ ρ → Prop
  | ended {player report} (finished : player.attempt? range = none)
    : Plays range reporter 0 player report ⟨player, report, some .ended⟩
  | faulted {player report stopped fault}
    (raised : player.attempt? range = some (stopped, some fault))
    : Plays range reporter 1 player report ⟨stopped, report, some (.faulted fault)⟩
  | step {player report next attempts run}
    (succeeds : player.attempt? range = some (next, none))
    (rest
      : Plays range reporter attempts next
          (reporter report next.program.cursor next.program.size) run)
    : Plays range reporter (attempts + 1) player report run

/-- Attempts that succeed lead from one player to another and tell the reporter of each of them. -/
inductive Reaches (range : ToneRange) (reporter : ρ → Nat → Nat → ρ)
    : Player σ → ρ → Player σ → ρ → Prop
  | refl (player report) : Reaches range reporter player report player report
  | step {player report next last told}
    (succeeds : player.attempt? range = some (next, none))
    (rest
      : Reaches range reporter next
          (reporter report next.program.cursor next.program.size) last told)
    : Reaches range reporter player report last told

variable {range : ToneRange} {reporter : ρ → Nat → Nat → ρ} {mode : Mode}
variable {player : Player σ} {report : ρ}

-----------------------------------------------------------------------------------------
-- One attempt of a run
-----------------------------------------------------------------------------------------

theorem runWithin_ended (finished : player.attempt? range = none) (budget : Nat)
    : runWithin range mode reporter budget player report = ⟨player, report, some .ended⟩ := by
  have atEnd : player.program.current? = none := Option.map_eq_none_iff.mp finished
  rw [runWithin, atEnd]

theorem runWithin_zero {result : Player σ × Option Fault}
    (next : player.attempt? range = some result)
    : runWithin range mode reporter 0 player report = ⟨player, report, none⟩ := by
  obtain ⟨instruction, here, -⟩ := Option.map_eq_some_iff.mp next
  rw [runWithin, here]

theorem runWithin_faulted {stopped : Player σ} {fault : Fault}
    (raised : player.attempt? range = some (stopped, some fault)) (budget : Nat)
    : runWithin range mode reporter (budget + 1) player report
      = ⟨stopped, report, some (.faulted fault)⟩ := by
  obtain ⟨instruction, here, result⟩ := Option.map_eq_some_iff.mp raised
  rw [runWithin]
  simp only [here, result]

/-- After an attempt that succeeds a run is suspended or goes on. -/
theorem runWithin_step {next : Player σ} (succeeds : player.attempt? range = some (next, none))
    (budget : Nat)
    : runWithin range mode reporter (budget + 1) player report
      = if next.suspends mode then
          ⟨next, reporter report next.program.cursor next.program.size,
            some (.suspended next.program.cursor)⟩
        else
          runWithin range mode reporter budget next
            (reporter report next.program.cursor next.program.size) := by
  obtain ⟨instruction, here, result⟩ := Option.map_eq_some_iff.mp succeeds
  rw [runWithin]
  simp only [here, result]

omit [ToneSink σ] in
@[simp] theorem suspends_continuous (player : Player σ) : player.suspends .continuous = false := by
  cases here : player.program.current? <;> simp [suspends, here, Mode.suspends]

/-- A run that is suspended is followed by the next one, if there may still be one. -/
theorem runsAfter_succ (made : Nat) (player : Player σ) (modes : Nat → Mode)
    (reporter : ρ → Nat → Nat → ρ) (report : ρ) (budget calls : Nat)
    : player.runsAfter made modes reporter report budget (calls + 1)
      = let run := player.run (modes made) reporter report budget
        if run.outcome.any (·.isSuspended) && calls ≠ 0 then
          run.player.runsAfter (made + 1) modes reporter run.report budget calls
        else (run, made + 1) := by
  conv => lhs; unfold runsAfter
  match stops : (player.run (modes made) reporter report budget).outcome, calls with
  | some (.suspended cursor), calls + 1 => simp [stops, Outcome.isSuspended]
  | some (.suspended cursor), 0 => simp
  | none, calls | some .ended, calls | some (.faulted fault), calls =>
    simp [stops, Outcome.isSuspended]

-----------------------------------------------------------------------------------------
-- Runs and playbacks
-----------------------------------------------------------------------------------------

/-- A playback is over in the end, by cases on its attempts. -/
theorem Plays.isOver {attempts : Nat} {run : Run σ ρ}
    (plays : Plays range reporter attempts player report run)
    : run.isOver := by
  induction plays with
  | ended | faulted => rfl
  | step _ _ ih => exact ih

theorem Reaches.trans {middle last : Player σ} {told toldLast : ρ}
    (first : Reaches range reporter player report middle told)
    (second : Reaches range reporter middle told last toldLast)
    : Reaches range reporter player report last toldLast := by
  induction first with
  | refl => exact second
  | step succeeds _ ih => exact .step succeeds (ih second)

/-- A playback can be continued backwards along a way, by induction on it. -/
theorem Reaches.plays {last : Player σ} {told : ρ} {attempts : Nat} {run : Run σ ρ}
    (way : Reaches range reporter player report last told)
    (rest : Plays range reporter attempts last told run)
    : ∃ attempts, Plays range reporter attempts player report run := by
  induction way with
  | refl => exact ⟨attempts, rest⟩
  | step succeeds _ ih =>
      obtain ⟨more, plays⟩ := ih rest
      exact ⟨more + 1, .step succeeds plays⟩

theorem Plays.unique {attempts others : Nat} {run other : Run σ ρ}
    (plays : Plays range reporter attempts player report run)
    (playsOther : Plays range reporter others player report other)
    : run = other := by
  induction plays generalizing others with
  | ended finished =>
      cases playsOther with
      | ended => rfl
      | faulted raised => cases finished.symm.trans raised
      | step succeeds _ => cases finished.symm.trans succeeds
  | faulted raised =>
      cases playsOther with
      | ended finished => cases finished.symm.trans raised
      | faulted raisedOther => cases raised.symm.trans raisedOther; rfl
      | step succeeds _ => cases raised.symm.trans succeeds
  | step succeeds _ ih =>
      cases playsOther with
      | ended finished => cases finished.symm.trans succeeds
      | faulted raised => cases succeeds.symm.trans raised
      | step succeedsOther rest => cases succeeds.symm.trans succeedsOther; exact ih rest

/-- What every attempt preserves is preserved along a way, by induction on it. -/
theorem Reaches.preserves (good : Player σ → Prop) {last : Player σ} {told : ρ}
    (way : Reaches range reporter player report last told)
    (step : ∀ {player next}, good player → player.attempt? range = some (next, none) → good next)
    (start : good player)
    : good last := by
  induction way with
  | refl => exact start
  | step succeeds _ ih => exact ih (step start succeeds)

/-- A run makes its way to the player that it leads to, or to one whose attempt is the fault that
the run ends with; by induction on the budget.
-/
theorem exists_reaches_runWithin (range : ToneRange) (mode : Mode) (reporter : ρ → Nat → Nat → ρ)
    (budget : Nat) (player : Player σ) (report : ρ)
    : let run := runWithin range mode reporter budget player report
      ∃ last, Reaches range reporter player report last run.report
        ∧ ((run.player = last ∧ ∀ fault, run.outcome ≠ some (.faulted fault))
          ∨ ∃ fault,
              last.attempt? range = some (run.player, some fault)
              ∧ run.outcome = some (.faulted fault)) := by
  induction budget generalizing player report with
  | zero =>
      cases next : player.attempt? range with
      | none => rw [runWithin_ended next]; exact ⟨player, .refl _ _, .inl ⟨rfl, nofun⟩⟩
      | some result => rw [runWithin_zero next]; exact ⟨player, .refl _ _, .inl ⟨rfl, nofun⟩⟩
  | succ budget ih =>
      match next : player.attempt? range with
      | none => rw [runWithin_ended next]; exact ⟨player, .refl _ _, .inl ⟨rfl, nofun⟩⟩
      | some (stopped, some fault) =>
        rw [runWithin_faulted next]
        exact ⟨player, .refl _ _, .inr ⟨fault, next, rfl⟩⟩
      | some (later, none) =>
        rw [runWithin_step next]
        split
        · exact ⟨later, .step next (.refl _ _), .inl ⟨rfl, nofun⟩⟩
        · obtain ⟨last, way, ending⟩ := ih later _
          exact ⟨last, .step next way, ending⟩

/-- A run that ends with a fault makes its way to the player whose attempt is the fault. -/
theorem exists_reaches_of_faulted {budget : Nat} {fault : Fault}
    (faulted : (runWithin range mode reporter budget player report).outcome = some (.faulted fault))
    : let run := runWithin range mode reporter budget player report
      ∃ last, Reaches range reporter player report last run.report
        ∧ last.attempt? range = some (run.player, some fault) := by
  obtain ⟨last, way, ⟨-, other⟩ | ⟨raised, attempted, same⟩⟩ :=
    exists_reaches_runWithin range mode reporter budget player report
  · exact absurd faulted (other fault)
  · cases faulted.symm.trans same
    exact ⟨last, way, attempted⟩

/-- A reporter has no influence on a run but through its report, by induction on the budget. -/
theorem retold_runWithin {other : κ → Nat → Nat → κ} (tell : ρ → κ)
    (same
      : ∀ report cursor size,
          tell (reporter report cursor size) = other (tell report) cursor size)
    (budget : Nat) (player : Player σ) (report : ρ)
    : (runWithin range mode reporter budget player report).retold tell
      = runWithin range mode other budget player (tell report) := by
  induction budget generalizing player report with
  | zero =>
      cases attempts : player.attempt? range with
      | none => rw [runWithin_ended attempts, runWithin_ended attempts]; rfl
      | some result => rw [runWithin_zero attempts, runWithin_zero attempts]; rfl
  | succ budget ih =>
      match attempts : player.attempt? range with
      | none => rw [runWithin_ended attempts, runWithin_ended attempts]; rfl
      | some (stopped, some fault) =>
        rw [runWithin_faulted attempts, runWithin_faulted attempts]
        rfl
      | some (next, none) =>
        rw [runWithin_step attempts, runWithin_step attempts, apply_ite (Run.retold tell), ih, same]
        simp only [Run.retold, same]

/-- What every attempt preserves is preserved by a run. -/
theorem runWithin_preserves (good : Player σ → Prop)
    (step : ∀ {player result}, good player → player.attempt? range = some result → good result.1)
    (start : good player) (mode : Mode) (budget : Nat)
    : good (runWithin range mode reporter budget player report).player := by
  obtain ⟨last, way, ⟨same, -⟩ | ⟨fault, attempted, -⟩⟩ :=
    exists_reaches_runWithin range mode reporter budget player report
  · rw [same]
    exact way.preserves good step start
  · exact step (way.preserves good step start) attempted

/-- A run that is over is a playback, by induction on its budget. -/
theorem plays_of_isOver {budget : Nat}
    (isOver : (runWithin range mode reporter budget player report).isOver)
    : ∃ attempts,
        Plays range reporter attempts player report
          (runWithin range mode reporter budget player report) := by
  induction budget generalizing player report with
  | zero =>
      cases next : player.attempt? range with
      | none => exact ⟨0, runWithin_ended next 0 ▸ .ended next⟩
      | some result => rw [runWithin_zero next] at isOver; cases isOver
  | succ budget ih =>
      match next : player.attempt? range with
      | none => exact ⟨0, runWithin_ended next _ ▸ .ended next⟩
      | some (stopped, some fault) => exact ⟨1, runWithin_faulted next budget ▸ .faulted next⟩
      | some (later, none) =>
        rw [runWithin_step next] at isOver ⊢
        split at isOver
        · cases isOver
        · next goesOn =>
          rw [if_neg goesOn]
          obtain ⟨attempts, rest⟩ := ih isOver
          exact ⟨attempts + 1, .step next rest⟩

/-- A playback that starts where a run was suspended is the rest of a whole one, by induction on
the budget of the run.
-/
theorem plays_of_suspended {budget cursor attempts : Nat} {final : Run σ ρ}
    (suspended
      : (runWithin range mode reporter budget player report).outcome = some (.suspended cursor))
    (rest
      : Plays range reporter attempts (runWithin range mode reporter budget player report).player
          (runWithin range mode reporter budget player report).report final)
    : ∃ attempts, Plays range reporter attempts player report final := by
  induction budget generalizing player report with
  | zero =>
      cases next : player.attempt? range with
      | none => rw [runWithin_ended next] at suspended; cases suspended
      | some result => rw [runWithin_zero next] at suspended; cases suspended
  | succ budget ih =>
      match next : player.attempt? range with
      | none => rw [runWithin_ended next] at suspended; cases suspended
      | some (stopped, some fault) => rw [runWithin_faulted next] at suspended; cases suspended
      | some (later, none) =>
        rw [runWithin_step next] at suspended rest
        split at suspended
        · next stops =>
          rw [if_pos stops] at rest
          exact ⟨attempts + 1, .step next rest⟩
        · next goesOn =>
          rw [if_neg goesOn] at rest
          obtain ⟨more, whole⟩ := ih suspended rest
          exact ⟨more + 1, .step next whole⟩

/-- With enough budget a run makes up the whole playback, or it is suspended with less than that
left to play, by induction on the playback.
-/
theorem Plays.runWithin_eq_or {attempts budget : Nat} {final : Run σ ρ}
    (plays : Plays range reporter attempts player report final) (enough : attempts ≤ budget)
    (mode : Mode)
    : let run := runWithin range mode reporter budget player report
      run = final
      ∨ ∃ cursor fewer,
          run.outcome = some (.suspended cursor)
          ∧ fewer < attempts
          ∧ Plays range reporter fewer run.player run.report final := by
  induction plays generalizing budget with
  | ended finished => exact .inl (runWithin_ended finished budget)
  | faulted raised =>
      obtain ⟨budget, rfl⟩ := Nat.exists_eq_add_of_le' enough
      exact .inl (runWithin_faulted raised budget)
  | @step player report next attempts run succeeds rest ih =>
      obtain ⟨budget, rfl⟩ := Nat.exists_eq_add_one.mpr
        (Nat.lt_of_lt_of_le attempts.succ_pos enough)
      simp only [runWithin_step succeeds]
      split
      · exact .inr ⟨next.program.cursor, attempts, rfl, Nat.lt_succ_self attempts, rest⟩
      · rcases ih (Nat.le_of_succ_le_succ enough) with whole | ⟨cursor, fewer, stops, less, later⟩
        · exact .inl whole
        · exact .inr ⟨cursor, fewer, stops, Nat.lt_succ_of_lt less, later⟩

/-- A continuous run with enough budget makes up the whole playback. -/
theorem Plays.runWithin_continuous {attempts budget : Nat} {final : Run σ ρ}
    (plays : Plays range reporter attempts player report final) (enough : attempts ≤ budget)
    : runWithin range .continuous reporter budget player report = final := by
  induction plays generalizing budget with
  | ended finished => exact runWithin_ended finished budget
  | faulted raised =>
      obtain ⟨budget, rfl⟩ := Nat.exists_eq_add_of_le' enough
      exact runWithin_faulted raised budget
  | @step player report next attempts run succeeds rest ih =>
      obtain ⟨budget, rfl⟩ := Nat.exists_eq_add_one.mpr
        (Nat.lt_of_lt_of_le attempts.succ_pos enough)
      rw [runWithin_step succeeds, suspends_continuous, if_neg Bool.false_ne_true]
      exact ih (Nat.le_of_succ_le_succ enough)

end Player

end Chiptune

import Chiptune.Proofs.Durations
import Chiptune.Proofs.Playback.Faults
import Chiptune.Proofs.Playback.Frames
import Mathlib.Algebra.BigOperators.Group.List.Basic

/-! How far recorded durations are off the exact ones. A length in ticks is rounded when it is
played, by half a millisecond at most, and nothing else is, so that the error of a session is at
most half a millisecond for each tone with such a length.
-/

namespace Chiptune

-----------------------------------------------------------------------------------------
-- Exact durations
-----------------------------------------------------------------------------------------

namespace Length

/-- Whether the length is in ticks, so that its duration is rounded. -/
def isTimed : Length → Bool
  | .millis _ => false
  | .ticks _ => true

/-- The duration of a length is off the exact one by half a millisecond at most, by cases on it. -/
theorem abs_sub_exactMillis_le {length : Length} {tempo millis : UInt32}
    (lasts : length.toMillis? tempo = some millis)
    : |millis.toNat - length.exactMillis tempo| ≤ if length.isTimed then 1 / 2 else 0 := by
  cases length with
  | millis count =>
      cases lasts
      simp [exactMillis, isTimed]
  | ticks count =>
      have rounded := abs_sub_round ((ticks count).exactMillis tempo)
      rw [round_exactMillis_of_some lasts, abs_sub_comm] at rounded
      exact_mod_cast rounded

end Length

namespace Execution

/-- The length of the note or rest that is executed, if one is. -/
def length? (execution : Execution) : Option Length :=
  execution.instruction?.bind Instruction.length?

/-- The exact duration of the note or rest that is executed, at the tempo that it is executed at. -/
def exactMillis (execution : Execution) : ℚ :=
  execution.length?.elim 0 (Length.exactMillis execution.before.machine.tempo)

/-- Whether a note or rest with a length in ticks is executed. -/
def isTimed (execution : Execution) : Bool :=
  execution.length?.any Length.isTimed

end Execution

/-- The exact duration of the notes and rests that are executed. -/
def exactMillis (executions : List Execution) : ℚ :=
  (executions.map Execution.exactMillis).sum

/-- How many notes and rests with a length in ticks are executed. -/
def timedTones (executions : List Execution) : Nat :=
  executions.countP Execution.isTimed

/-- Whole milliseconds are off the exact duration of executions by at most half a millisecond for
each note and rest with a length in ticks.
-/
def Drifts (executions : List Execution) (millis : Nat) : Prop :=
  |millis - exactMillis executions| ≤ timedTones executions / 2

namespace Drifts

theorem nil : Drifts [] 0 := by
  simp [Drifts, exactMillis, timedTones]

/-- Errors add up, by the triangle inequality. -/
theorem append {first second : List Execution} {millis more : Nat} (drifts : Drifts first millis)
    (rest : Drifts second more)
    : Drifts (first ++ second) (millis + more) := by
  have apart
      : ((millis + more : Nat) : ℚ) - exactMillis (first ++ second)
        = (millis - exactMillis first) + (more - exactMillis second) := by
    rw [exactMillis, List.map_append, List.sum_append, ← exactMillis, ← exactMillis]
    push_cast
    ring
  have count : timedTones (first ++ second) = timedTones first + timedTones second :=
    List.countP_append
  rw [Drifts, apart, count]
  calc |(millis - exactMillis first) + (more - exactMillis second)|
    _ ≤ |millis - exactMillis first| + |more - exactMillis second| := abs_add_le _ _
    _ ≤ timedTones first / 2 + timedTones second / 2 := add_le_add drifts rest
    _ = (timedTones first + timedTones second : ℕ) / 2 := by push_cast; ring

theorem silent {execution : Execution} (carries : execution.length? = none)
    : Drifts [execution] 0 := by
  simp [Drifts, exactMillis, timedTones, Execution.exactMillis, Execution.isTimed, carries]

theorem tone {execution : Execution} {length : Length} {millis : UInt32}
    (carries : execution.length? = some length)
    (lasts : length.toMillis? execution.before.machine.tempo = some millis)
    : Drifts [execution] millis.toNat := by
  have exact : exactMillis [execution] = length.exactMillis execution.before.machine.tempo := by
    simp [exactMillis, Execution.exactMillis, carries]
  have count : (timedTones [execution] : ℚ) / 2 = if length.isTimed then 1 / 2 else 0 := by
    cases timed : length.isTimed <;> simp [timedTones, Execution.isTimed, carries, timed]
  rw [Drifts, exact, count]
  exact Length.abs_sub_exactMillis_le lasts

end Drifts

-----------------------------------------------------------------------------------------
-- One execution
-----------------------------------------------------------------------------------------

namespace Machine

variable {machine : Machine} {range : ToneRange} {size cursor : Nat} {instruction : Instruction}
variable {move : Move}

/-- A move without a tone is made by an instruction without a length, by cases on the move. -/
theorem Moves.length?_of_silent (moves : machine.Moves range size cursor instruction move)
    (silent : move.tone = none)
    : instruction.length? = none := by
  cases moves with
  | note | rest => cases silent
  | _ => rfl

/-- The tone of a move lasts as long as the length of the instruction, by cases on the move. -/
theorem Moves.exists_length (moves : machine.Moves range size cursor instruction move) {tone : Tone}
    (asks : move.tone = some tone)
    : ∃ length,
        instruction.length? = some length ∧ length.toMillis? machine.tempo = some tone.millis := by
  cases moves with
  | note _ lasts | rest lasts =>
      cases asks
      exact ⟨_, rfl, (resolve_eq_ok_iff.mp lasts).1⟩
  | _ => cases asks

end Machine

namespace Recorder

theorem totalMillis_record (recorder : Recorder) (tone : Tone)
    : (recorder.record tone).totalMillis = recorder.totalMillis + tone.millis.toNat := by
  simp [totalMillis, record, Tone.totalMillis]

theorem eq_record_of_emit {recorder next : Recorder} {tone : Tone}
    (taken : ToneSink.emit recorder tone = (next, none))
    : next = recorder.record tone := by
  simp only [ToneSink.emit, emit] at taken
  split at taken
  · exact (congrArg Prod.fst taken).symm
  · cases congrArg Prod.snd taken

/-- The recorder has become another one by executions, the tones of which it has recorded. -/
def Records (recorder : Recorder) (executions : List Execution) (next : Recorder) : Prop :=
  ∃ millis, next.totalMillis = recorder.totalMillis + millis ∧ Drifts executions millis

namespace Records

variable {recorder middle last : Recorder} {first second : List Execution}

theorem refl (recorder : Recorder) : recorder.Records [] recorder :=
  ⟨0, rfl, .nil⟩

theorem trans (records : recorder.Records first middle) (rest : middle.Records second last)
    : recorder.Records (first ++ second) last := by
  obtain ⟨millis, sum, drifts⟩ := records
  obtain ⟨more, sumToo, driftsToo⟩ := rest
  exact ⟨millis + more, by rw [sumToo, sum, Nat.add_assoc], drifts.append driftsToo⟩

theorem cons {execution : Execution} (records : recorder.Records [execution] middle)
    (rest : middle.Records second last)
    : recorder.Records (execution :: second) last :=
  records.trans rest

end Records

end Recorder

namespace Player

variable {range : ToneRange} {mode : Mode} {reporter : ρ → Nat → Nat → ρ}
variable {player next : Player Recorder}

theorem Performs.records {instruction : Instruction} {move : Move}
    (performs : player.Performs range instruction move next)
    : player.sink.Records [⟨player.session, next.session⟩] next.sink := by
  have length : Execution.length? ⟨player.session, next.session⟩ = instruction.length? := by
    rw [Execution.length?, Execution.instruction?]
    exact congrArg (·.bind Instruction.length?) performs.here
  cases asks : move.tone with
  | none =>
      rw [performs.untouched asks]
      exact ⟨0, rfl, .silent (length.trans (performs.moves.length?_of_silent asks))⟩
  | some tone =>
      obtain ⟨carried, carries, lasts⟩ := performs.moves.exists_length asks
      rw [Recorder.eq_record_of_emit (performs.taken tone asks)]
      exact ⟨_, Recorder.totalMillis_record _ tone, .tone (length.trans carries) lasts⟩

theorem Fails.sink_eq {instruction : Instruction} {fault : Fault}
    (fails : player.Fails range instruction fault next)
    : next.sink = player.sink := by
  rcases fails.reason with ⟨-, same⟩ | ⟨_, _, _, -, -, refused, -⟩
  · exact same
  · exact ToneSink.HasInertRefusals.eq_of_refused refused

-----------------------------------------------------------------------------------------
-- Runs and sessions
-----------------------------------------------------------------------------------------

/-- A run records the tones of what it executes, because a fault records none. -/
theorem records_executions (budget : Nat) (player : Player Recorder) (report : ρ)
    : player.sink.Records (executions range mode budget player)
        (runWithin range mode reporter budget player report).player.sink := by
  refine executions_induction
    (fun player executed last => player.sink.Records executed last.sink)
    (fun player => .refl _) ?_ ?_ budget player report
  · intro player instruction fault stopped fails
    rw [fails.sink_eq]
    exact .refl _
  · intro player instruction move next executed last performs rest
    exact performs.records.cons rest

theorem records_executed (player : Player Recorder) (operation : Operation)
    : player.sink.Records (player.executed operation) (player.perform operation).sink := by
  cases operation with
  | run mode budget => exact records_executions budget player ()
  | rewind | seek | reset => exact .refl _

/-- The instructions that operations execute one after another. -/
def executedAll [ToneSink σ] (player : Player σ) : List Operation → List Execution
  | [] => []
  | operation :: later => player.executed operation ++ (player.perform operation).executedAll later

/-- Operations record the tones of all that they execute, by induction on their number. -/
theorem records_executedAll (player : Player Recorder) (operations : List Operation)
    : player.sink.Records (player.executedAll operations) (player.performAll operations).sink := by
  induction operations generalizing player with
  | nil => exact .refl _
  | cons operation later ih => exact (player.records_executed operation).trans (ih _)

/-- A length in ticks lasts the one number of milliseconds that is nearest to it, halves up, unless
32 bits do not hold that. It is computed without leaving 64 bits, and more ticks or a slower tempo
never make it last shorter. What a recorder has recorded after any operations and any part of a run
is off the exact duration of the notes and rests that were executed by at most half a millisecond
for each of them with a length in ticks.
-/
theorem totalMillis_drift (count tempo : UInt32) (machine : Machine) (program : Program)
    (range : ToneRange) (failAt : Option Nat) (operations : List Operation) (mode : Mode)
    (reporter : ρ → Nat → Nat → ρ) (report : ρ) (budget : Nat)
    : (tempo ≠ 0
        → ∃ millis : Nat,
            (∀ other : Nat,
              (2 * other - 1) * (960 * tempo.toNat) ≤ (2 * (60000 * count.toNat) : ℤ)
                ∧ (2 * (60000 * count.toNat) : ℤ) < (2 * other + 1) * (960 * tempo.toNat)
              ↔ other = millis)
            ∧ (Length.ticks count).toMillis? tempo
              = if millis < UInt32.size then some (UInt32.ofNat millis) else none)
      ∧ (Length.ticks count).toMillisTrapping tempo = .ok ((Length.ticks count).toMillis? tempo)
      ∧ (∀ more slower : UInt32,
          count ≤ more
          → slower ≤ tempo
          → (Length.ticks count).duration tempo ≤ (Length.ticks more).duration slower)
      ∧ let start : Player Recorder := ⟨machine, program, { range, failAt }⟩
        let later := start.performAll operations
        let executed := start.executedAll operations ++ later.executed (.run mode budget)
        let recorder := (later.run mode reporter report budget).player.sink
        |(recorder.totalMillis - exactMillis executed : ℚ)| ≤ timedTones executed / 2 := by
  refine ⟨fun positive => ?_, Length.toMillisTrapping_eq _ tempo,
    fun _ _ => Length.duration_ticks_le, ?_⟩
  · have nearest := Length.nearest_roundedMillis count.toNat (Length.toNat_pos positive)
    refine ⟨_, fun other => ⟨fun near => ?_, ?_⟩, Length.toMillis?_ticks count positive⟩
    · exact Length.Nearest.unique near nearest
    · rintro rfl
      exact nearest
  · intro start later executed recorder
    have last : later.sink.Records (later.executed (.run mode budget)) recorder :=
      records_executions budget later report
    obtain ⟨millis, total, drifts⟩ := (records_executedAll start operations).trans last
    have fresh : start.sink.totalMillis = 0 := rfl
    rw [total, fresh, Nat.zero_add]
    exact drifts

/-- One tick at 125 beats per minute lasts half a millisecond and is rounded up each time that a
loop plays it, so that the bound is met exactly.
-/
theorem totalMillis_drift_loop
    : let loop : Program :=
        { code := #[.tempo 125, .repeatOpen 4 4, .note 440 (.ticks 1), .repeatClose 2] }
      let start : Player Recorder := ⟨.new 120 1, loop, {}⟩
      let executed := start.executed (.run .continuous 99)
      let recorder := (start.play .continuous 99).player.sink
      (Length.ticks 1).toMillis? 125 = some 1
      ∧ (Length.ticks 1).toMillisTrapping 125 = .ok (some 1)
      ∧ (Length.ticks 1).duration 125 ≤ (Length.ticks 2).duration 60
      ∧ recorder.totalMillis = 4
      ∧ exactMillis executed = 2
      ∧ timedTones executed = 4
      ∧ |(recorder.totalMillis - exactMillis executed : ℚ)| ≤ timedTones executed / 2 := by
  intro loop start executed recorder
  obtain ⟨nearest, computed, ordered, drift⟩ :=
    totalMillis_drift 1 125 (.new 120 1) loop .pcSpeaker none [] .continuous (fun _ _ _ => ()) () 99
  obtain ⟨millis, unique, lasts⟩ := nearest (by decide)
  obtain rfl : 1 = millis := (unique 1).mp (by decide)
  have resolved : (Length.ticks 1).toMillis? 125 = some 1 := lasts
  rw [resolved] at computed
  have total : recorder.totalMillis = 4 := by decide +kernel
  have exact : exactMillis executed = 2 := by decide +kernel
  have count : timedTones executed = 4 := by decide +kernel
  exact ⟨resolved, computed, ordered 2 60 (by decide) (by decide), total, exact, count, drift⟩

end Player

end Chiptune

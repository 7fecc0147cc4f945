import Chiptune.Output.Recorder
import Chiptune.Proofs.Durations
import Chiptune.Proofs.Playback.Clients
import Chiptune.Proofs.Playback.Moves
import Chiptune.Proofs.Playback.Resuming
import Chiptune.Proofs.Text.AsciiText
import Chiptune.Proofs.TwoPass.Image

/-! Compiled songs never leave their code. The targets in their code are bounded, and so are the
places that calls return to, whatever a client does with the player. What is left as a fault of the
song itself is a stack that is too full or too empty, and a tone that the output cannot play.
-/

namespace Chiptune

/-- Loops lead to places in their code or to its end, by induction on the nesting. -/
theorem Nested.target_le {start : Nat} {code : List Instruction} (nested : Nested start code)
    {instruction : Instruction} (member : instruction ∈ code)
    (bounds : instruction.boundsLoop) {target : Nat} (carries : instruction.target? = some target)
    : target ≤ start + code.length := by
  induction nested with
  | nil => cases member
  | plain simple _ ih =>
      rcases List.mem_cons.mp member with rfl | later
      · rw [simple] at bounds
        cases bounds
      · have bound := ih later
        rw [List.length_cons]
        omega
  | @loop start body rest count _ _ insideIH tailIH =>
      simp only [List.mem_cons, List.mem_append] at member
      simp only [List.length_cons, List.length_append]
      rcases member with rfl | inside | rfl | tail
      · cases carries
        omega
      · have bound := insideIH inside
        omega
      · cases carries
        omega
      · have bound := tailIH tail
        omega

/-- All targets in well-formed code lie in it or at its end, by cases on the instruction. -/
theorem WellFormed.target_le {code : List Instruction} (wellFormed : WellFormed code)
    {instruction : Instruction} (member : instruction ∈ code) {target : Nat}
    (carries : instruction.target? = some target)
    : target ≤ code.length := by
  cases instruction with
  | jump target | call target =>
      cases carries
      exact wellFormed.permitted _ member
  | repeatOpen | repeatClose =>
      simpa using wellFormed.nested.target_le member rfl carries
  | note | rest | tempo | comeBack | breakpoint => cases carries

/-- What an output cannot play at a tempo: a note whose frequency is out of range, and a note or
rest whose duration, rounded to whole milliseconds of any number, is too long.
-/
def Instruction.Unplayable (range : ToneRange) (tempo : UInt32) (instruction : Instruction)
    : Prop :=
  (∃ hertz length, instruction = .note hertz length
    ∧ (hertz < range.minHertz ∨ range.maxHertz < hertz))
  ∨ ∃ length, instruction.length? = some length
    ∧ (range.maxMillis.toNat : ℤ) < round (length.exactMillis tempo)

namespace Machine

/-- The tempo is one that a song can ask for. -/
def IsTempo (beats : UInt32) : Prop :=
  1 ≤ beats.toNat ∧ beats.toNat ≤ maxTempo

/-- A machine whose tempo is allowed, also after a reset, and whose calls return to places in a
program of `size` instructions.
-/
structure Safe (machine : Machine) (size : Nat) : Prop where
  tempo : IsTempo machine.tempo
  initialTempo : IsTempo machine.initialTempo
  returns
    : ∀ returnTo, .call returnTo ∈ machine.stack → 1 ≤ returnTo ∧ returnTo ≤ size

variable {machine : Machine} {range : ToneRange} {size cursor : Nat} {instruction : Instruction}

/-- A machine stays safe with another stack if each call on that is on its own or bounded. -/
theorem Safe.withStack (safe : machine.Safe size) {stack : List Frame}
    (returns
      : ∀ returnTo, .call returnTo ∈ stack
        → .call returnTo ∈ machine.stack ∨ (1 ≤ returnTo ∧ returnTo ≤ size))
    : { machine with stack }.Safe size where
  tempo := safe.tempo
  initialTempo := safe.initialTempo
  returns returnTo member := (returns returnTo member).elim (safe.returns returnTo) id

/-- Moves keep a machine safe, by cases on the move. -/
theorem Moves.safe {move : Move} (moves : machine.Moves range size cursor instruction move)
    (inside : cursor < size) (permitted : instruction.Permitted size) (safe : machine.Safe size)
    : move.machine.Safe size := by
  cases moves with
  | note | rest | breakpoint | jump | skip => exact safe
  | tempo beats => exact ⟨permitted, safe.initialTempo, safe.returns⟩
  | call =>
      refine safe.withStack fun returnTo member => ?_
      rcases List.mem_cons.mp member with same | earlier
      · cases same
        exact .inr ⟨Nat.le_add_left 1 cursor, inside⟩
      · exact .inl earlier
  | enter => exact safe.withStack fun returnTo member => .inl (by simpa using member)
  | again _ opened => exact safe.withStack fun returnTo member => .inl (by simp_all)
  | comeBack pending => exact safe.withStack fun returnTo member => .inl (by simp_all)
  | leave _ opened => exact safe.withStack fun returnTo member => .inl (by simp_all)

/-- A length that a safe machine cannot resolve is too long for the output. -/
theorem Safe.error_of_resolve (safe : machine.Safe size) {length : Length} {cause : FaultCause}
    (fails : machine.resolve range length = .error cause)
    : cause.kind = .outOfRangeTone
      ∧ (range.maxMillis.toNat : ℤ) < round (length.exactMillis machine.tempo) := by
  have positive : machine.tempo ≠ 0 := by
    intro zero
    have least := safe.tempo.1
    rw [zero] at least
    cases least
  unfold resolve at fails
  split at fails
  · next unresolved =>
    cases fails
    have large := Length.le_round_exactMillis_of_none positive unresolved
    have small := range.maxMillis.toNat_lt_size
    exact ⟨rfl, by omega⟩
  · next millis lasts =>
    split at fails
    · cases fails
    · next long =>
      cases fails
      refine ⟨rfl, ?_⟩
      rw [Length.round_exactMillis_of_some lasts]
      rw [ToneRange.acceptsDuration, decide_eq_true_eq, UInt32.not_le, UInt32.lt_iff_toNat_lt]
        at long
      exact_mod_cast long

/-- With bounded targets a safe machine finds no invalid target, and it finds a tone to be out of
range only if that cannot be played; by cases on the cause.
-/
theorem Raises.genuine {cause : FaultCause} (raises : machine.Raises range size instruction cause)
    (bounded : ∀ target, instruction.target? = some target → target ≤ size)
    (safe : machine.Safe size)
    : cause.kind ≠ .invalidJumpTarget
      ∧ (cause.kind = .outOfRangeTone → instruction.Unplayable range machine.tempo) := by
  cases raises with
  | @frequency hertz length outside =>
      have outside := ToneRange.acceptsFrequency_eq_false_iff.mp outside
      exact ⟨nofun, fun _ => .inl ⟨hertz, length, rfl, outside⟩⟩
  | @duration _ length _ carries fails =>
      obtain ⟨kind, long⟩ := safe.error_of_resolve fails
      exact ⟨by rw [kind]; nofun, fun _ => .inr ⟨length, carries, long⟩⟩
  | target carries past => exact absurd (bounded _ carries) (Nat.not_le_of_lt past)
  | returnTo pending past =>
      have returns := safe.returns _ (by rw [pending]; exact List.mem_cons_self)
      exact absurd returns.2 (Nat.not_le_of_lt past)
  | full | noCall | noLoop => exact ⟨nofun, nofun⟩

end Machine

namespace Player

open ToneSink (HasFixedRange)

variable [ToneSink σ] {range : ToneRange} {code : Array Instruction} {player : Player σ}

/-- A player of `code` with a safe machine and an output of the given range. -/
structure Safe (code : Array Instruction) (range : ToneRange) (player : Player σ) : Prop where
  sameCode : player.program.code = code
  machine : player.machine.Safe code.size
  sameRange : ToneSink.range player.sink = range

variable [HasFixedRange σ]

theorem Safe.attempt? (wellFormed : WellFormed code.toList) {result : Player σ × Option Fault}
    (safe : player.Safe code range) (attempted : player.attempt? range = some result)
    : result.1.Safe code range := by
  have sameRange := (range_attempt? attempted).trans safe.sameRange
  obtain ⟨rfl, machine, -⟩ := safe
  obtain ⟨instruction, ⟨move, performs, -⟩ | ⟨fault, fails, -⟩⟩ := attempt?_cases attempted
  · obtain ⟨inside, member⟩ := Program.mem_of_current? performs.here
    refine ⟨by rw [performs.program], ?_, sameRange⟩
    rw [performs.machine]
    exact performs.moves.safe inside (wellFormed.permitted _ member) machine
  · refine ⟨by rw [fails.program], ?_, sameRange⟩
    rw [fails.machine]
    exact ⟨machine.tempo, machine.initialTempo, machine.returns⟩

/-- Every operation keeps a player safe, by cases on the operation. -/
theorem Safe.perform (wellFormed : WellFormed code.toList) (operation : Operation)
    (safe : player.Safe code range)
    : (player.perform operation).Safe code range := by
  cases operation with
  | run mode budget =>
      have sameRange := safe.sameRange
      exact runWithin_preserves (Safe code range)
        (fun safe attempted => safe.attempt? wellFormed (sameRange ▸ attempted)) safe mode budget
  | rewind => exact ⟨safe.sameCode, safe.machine, safe.sameRange⟩
  | seek target =>
      refine ⟨?_, safe.machine, safe.sameRange⟩
      rw [← safe.sameCode, Player.perform, Program.seek?]
      split <;> rfl
  | reset =>
      exact ⟨safe.sameCode, ⟨safe.machine.initialTempo, safe.machine.initialTempo, nofun⟩,
        safe.sameRange⟩

/-- A fault of a safe player is no invalid target, and a tone that is said to be out of range
cannot be played.
-/
theorem Safe.genuine (wellFormed : WellFormed code.toList) (safe : player.Safe code range)
    {mode : Mode} {reporter : ρ → Nat → Nat → ρ} {report : ρ} {budget : Nat} {fault : Fault}
    (faulted : (player.run mode reporter report budget).outcome = some (.faulted fault))
    : fault.cause.kind ≠ .invalidJumpTarget
      ∧ (fault.cause.kind = .outOfRangeTone
        → ∃ instruction,
            code[fault.cursor]? = some instruction
            ∧ instruction.Unplayable range
                (player.run mode reporter report budget).player.machine.tempo) := by
  rw [run, safe.sameRange] at faulted ⊢
  obtain ⟨last, way, attempted⟩ := exists_reaches_of_faulted faulted
  obtain ⟨rfl, machine, -⟩ := way.preserves (Safe code range)
    (fun safe succeeds => safe.attempt? wellFormed succeeds) safe
  obtain ⟨instruction, fails⟩ := fails_of_attempt? attempted
  rcases fails.reason with ⟨raises, -⟩ | ⟨_, _, error, -, -, -, refused⟩
  · obtain ⟨-, member⟩ := Program.mem_of_current? fails.here
    obtain ⟨valid, playable⟩ := (Machine.raises_of_move raises).genuine
      (fun target carries => wellFormed.target_le member carries) machine
    refine ⟨valid, fun outOfRange => ⟨instruction, ?_, ?_⟩⟩
    · rw [fails.cursor]
      exact fails.here
    · rw [fails.machine]
      exact playable outOfRange
  · rw [refused]
    constructor
    · intro invalid
      cases invalid
    · intro outOfRange
      cases outOfRange

end Player

/-- A compiled song is safe with every client and every output that keeps its range, if its machine
starts at a tempo that a song can ask for. Its tempo stays allowed, its calls return to places in
the song, none of its runs finds an invalid target, and where a run finds a tone out of range the
output cannot play it.
-/
theorem Program.performAll_safe {source : List UInt8} {program : Program}
    (compiled : compile source = .ok program) [ToneSink σ] [ToneSink.HasFixedRange σ] (sink : σ)
    {tempo : UInt32} (allowed : 1 ≤ tempo.toNat ∧ tempo.toNat ≤ 1000) (maxDepth : Nat)
    (operations : List Operation)
    : let start : Player σ := ⟨.new tempo maxDepth, program, sink⟩
      let player := start.performAll operations
      (1 ≤ player.machine.tempo.toNat ∧ player.machine.tempo.toNat ≤ 1000)
      ∧ (∀ returnTo, .call returnTo ∈ player.machine.stack
        → 1 ≤ returnTo ∧ returnTo ≤ program.size)
      ∧ ∀ (ρ : Type) (mode : Mode) (reporter : ρ → Nat → Nat → ρ) (report : ρ) (budget : Nat)
          (fault : Fault),
        let run := player.run mode reporter report budget
        run.outcome = some (.faulted fault)
          → fault.cause.kind ≠ .invalidJumpTarget
            ∧ (fault.cause.kind = .outOfRangeTone
              → ∃ instruction,
                  program.code[fault.cursor]? = some instruction
                  ∧ instruction.Unplayable (ToneSink.range sink) run.player.machine.tempo) := by
  intro start player
  have wellFormed := wellFormed_of_compile compiled
  have safe : player.Safe program.code (ToneSink.range sink) :=
    Player.performAll_preserves _ (fun operation safe => safe.perform wellFormed operation)
      ⟨rfl, ⟨allowed, allowed, nofun⟩, rfl⟩ operations
  exact ⟨safe.machine.tempo, safe.machine.returns,
    fun ρ mode reporter report budget fault faulted => safe.genuine wellFormed faulted⟩

/-- At the tempo of one beat per minute a whole note is too long for a recorder, also in a call. -/
theorem Program.performAll_safe_call
    : let source := Ascii.encode "TEMPO 1\nCALL sub\nRETURN\nLABEL sub\nA4 W".toList
      let program : Program := { code := #[.tempo 1, .call 3, .comeBack, .note 440 (.ticks 3840)] }
      let start : Player Recorder := ⟨.new 120 1, program, {}⟩
      let player := start.performAll [.seek 9, .run .continuous 2]
      compile source = .ok program
      ∧ player.machine.stack = [.call 2]
      ∧ 2 ≤ program.size
      ∧ (player.play .singleStep 1).outcome = some (.faulted ⟨.durationTooLong 240000 60000, 3⟩)
      ∧ ∃ instruction,
          program.code[3]? = some instruction ∧ instruction.Unplayable .pcSpeaker 1 := by
  intro source program start player
  have compiled : compile source = .ok program := by decide +kernel
  have stack : player.machine.stack = [.call 2] := by decide +kernel
  have faulted
      : (player.play .singleStep 1).outcome
        = some (.faulted ⟨.durationTooLong 240000 60000, 3⟩) := by
    decide +kernel
  have allowed : 1 ≤ (120 : UInt32).toNat ∧ (120 : UInt32).toNat ≤ 1000 := by decide
  obtain ⟨-, returns, genuine⟩ :=
    performAll_safe compiled ({} : Recorder) allowed 1 [.seek 9, .run .continuous 2]
  refine ⟨compiled, stack, (returns 2 ?_).2, faulted, ?_⟩
  · change Frame.call 2 ∈ player.machine.stack
    rw [stack]
    exact List.mem_cons_self
  · have slow : (player.play .singleStep 1).player.machine.tempo = 1 := by decide +kernel
    have unplayable := (genuine Unit .singleStep (fun _ _ _ => ()) () 1 _ faulted).2 rfl
    rw [← slow]
    exact unplayable

end Chiptune

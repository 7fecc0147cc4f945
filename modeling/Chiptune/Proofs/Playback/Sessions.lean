import Chiptune.Proofs.Playback.Clients
import Chiptune.Proofs.Playback.Moves
import Chiptune.Proofs.Playback.Tap

/-! Sessions that go on with other outputs and other programs. Whatever a client loads and plays,
the cursor stays in the program and the stack within its limit, and no output is asked for a tone
that lies outside the range it has at the start of a run.
-/

namespace Chiptune

/-- A machine and the program that it executes. Each run brings its own output. -/
structure Session where
  machine : Machine
  program : Program
deriving DecidableEq

/-- What a client can ask for in a session. -/
inductive Session.Action : Type 1 where
  /-- An operation of the player whose output is `sink`. -/
  | operate {σ : Type} [ToneSink σ] (sink : σ) (operation : Operation)
  /-- Execute other code from its first instruction, with the machine as it is. -/
  | load (code : Array Instruction)

def Player.session (player : Player σ) : Session :=
  ⟨player.machine, player.program⟩

namespace Session

/-- The player of a session on an output. -/
def on (session : Session) (sink : σ) : Player σ :=
  ⟨session.machine, session.program, sink⟩

/-- The session before anything is executed. -/
def new (tempo : UInt32) (maxDepth : Nat) (code : Array Instruction) : Session :=
  ⟨.new tempo maxDepth, { code }⟩

/-- The session after an action. -/
def perform (session : Session) : Action → Session
  | @Action.operate _ _ sink operation => ((session.on sink).perform operation).session
  | .load code => { session with program := { code } }

def performAll (session : Session) (actions : List Action) : Session :=
  actions.foldl perform session

/-- The code that was loaded last, or `code` if none was. -/
def lastLoaded (code : Array Instruction) : List Action → Array Instruction
  | [] => code
  | @Action.operate .. :: later => lastLoaded code later
  | .load other :: later => lastLoaded other later

end Session

namespace Machine

variable {machine : Machine} {range : ToneRange} {size cursor : Nat} {instruction : Instruction}
variable {move : Move}

/-- A move leads to a place in the program or its end, by cases on the move. -/
theorem Moves.cursor_le (moves : machine.Moves range size cursor instruction move)
    (inside : cursor < size)
    : move.cursor ≤ size := by
  cases moves with
  | note | rest | tempo | breakpoint | enter | leave => exact inside
  | jump bounded | call bounded | skip bounded | again bounded => exact bounded
  | comeBack _ bounded => exact bounded

/-- A move changes neither the limit of the stack nor the tempo to go back to, and it keeps the
stack within its limit; by cases on the move.
-/
theorem Moves.limits (moves : machine.Moves range size cursor instruction move)
    (within : machine.stack.length ≤ machine.maxDepth)
    : move.machine.stack.length ≤ machine.maxDepth
      ∧ move.machine.maxDepth = machine.maxDepth
      ∧ move.machine.initialTempo = machine.initialTempo := by
  cases moves with
  | note | rest | tempo | breakpoint | jump | skip => exact ⟨within, rfl, rfl⟩
  | call _ room => exact ⟨room, rfl, rfl⟩
  | enter _ room => exact ⟨room, rfl, rfl⟩
  | again _ opened =>
      rw [opened, List.length_cons] at within
      exact ⟨within, rfl, rfl⟩
  | comeBack pending =>
      rw [pending, List.length_cons] at within
      exact ⟨Nat.le_of_succ_le within, rfl, rfl⟩
  | leave _ opened =>
      rw [opened, List.length_cons] at within
      exact ⟨Nat.le_of_succ_le within, rfl, rfl⟩

end Machine

-----------------------------------------------------------------------------------------
-- Bounds of machines and cursors
-----------------------------------------------------------------------------------------

/-- A session of `code` with the settings that its machine was made with. -/
structure Session.Bounded (code : Array Instruction) (tempo : UInt32) (maxDepth : Nat)
    (session : Session)
    : Prop where
  sameCode : session.program.code = code
  cursor : session.program.cursor ≤ session.program.size
  depth : session.machine.stack.length ≤ session.machine.maxDepth
  sameDepth : session.machine.maxDepth = maxDepth
  sameTempo : session.machine.initialTempo = tempo

namespace Player

variable [ToneSink σ] {range : ToneRange} {code : Array Instruction} {tempo : UInt32}
variable {maxDepth : Nat} {player : Player σ}

theorem Performs.bounded {instruction : Instruction} {move : Move} {next : Player σ}
    (performs : player.Performs range instruction move next)
    (bounded : player.session.Bounded code tempo maxDepth)
    : next.session.Bounded code tempo maxDepth := by
  obtain ⟨sameCode, -, depth, sameDepth, sameTempo⟩ := bounded
  obtain ⟨inside, -⟩ := Program.mem_of_current? performs.here
  obtain ⟨within, keepsDepth, keepsTempo⟩ := performs.moves.limits depth
  constructor
  · rw [session, performs.program]; exact sameCode
  · rw [session, performs.program]; exact performs.moves.cursor_le inside
  · rw [session, performs.machine, keepsDepth]; exact within
  · rw [session, performs.machine, keepsDepth]; exact sameDepth
  · rw [session, performs.machine, keepsTempo]; exact sameTempo

theorem Fails.bounded {instruction : Instruction} {fault : Fault} {stopped : Player σ}
    (fails : player.Fails range instruction fault stopped)
    (bounded : player.session.Bounded code tempo maxDepth)
    : stopped.session.Bounded code tempo maxDepth := by
  rw [session, fails.machine, fails.program]
  exact ⟨bounded.sameCode, bounded.cursor, bounded.depth, bounded.sameDepth, bounded.sameTempo⟩

theorem bounded_attempt? {result : Player σ × Option Fault}
    (bounded : player.session.Bounded code tempo maxDepth)
    (attempted : player.attempt? range = some result)
    : result.1.session.Bounded code tempo maxDepth := by
  obtain ⟨instruction, ⟨move, performs, -⟩ | ⟨fault, fails, -⟩⟩ := attempt?_cases attempted
  · exact performs.bounded bounded
  · exact fails.bounded bounded

/-- Every operation keeps a session bounded, by cases on the operation. -/
theorem bounded_perform (operation : Operation)
    (bounded : player.session.Bounded code tempo maxDepth)
    : (player.perform operation).session.Bounded code tempo maxDepth := by
  cases operation with
  | run mode budget =>
      exact runWithin_preserves (fun player => player.session.Bounded code tempo maxDepth)
        bounded_attempt? bounded mode budget
  | rewind => exact { bounded with cursor := Nat.zero_le _ }
  | seek target =>
      rw [perform, Program.seek?]
      split
      · next inside => exact { bounded with cursor := inside }
      · exact bounded
  | reset => exact { bounded with depth := Nat.zero_le _ }

-----------------------------------------------------------------------------------------
-- Requests
-----------------------------------------------------------------------------------------

/-- An attempt writes down at most one more request, which the range admits. -/
theorem exists_requests_attempt? {player : Player (Tap σ)} {result : Player (Tap σ) × Option Fault}
    (attempted : player.attempt? range = some result)
    : ∃ asked,
        result.1.sink.requests = player.sink.requests ++ asked
        ∧ ∀ tone ∈ asked, range.Admits tone := by
  rcases sink_attempt? attempted with same | ⟨tone, admitted, asked⟩
  · exact ⟨[], by rw [same, List.append_nil], List.forall_mem_nil _⟩
  · exact ⟨[tone], by rw [asked]; rfl, List.forall_mem_singleton.mpr admitted⟩

/-- An attempt writes down requests that the range admits only, whatever comes of it. -/
theorem admits_attempt? {player : Player (Tap σ)} {result : Player (Tap σ) × Option Fault}
    (admitted : ∀ tone ∈ player.sink.requests, range.Admits tone)
    (attempted : player.attempt? range = some result)
    : ∀ tone ∈ result.1.sink.requests, range.Admits tone := by
  obtain ⟨asked, requests, admittedLast⟩ := exists_requests_attempt? attempted
  rw [requests]
  exact List.forall_mem_append.mpr ⟨admitted, admittedLast⟩

/-- What was written down before a run stays in front of what the run writes down. -/
theorem isPrefix_requests_runWithin {reporter : ρ → Nat → Nat → ρ} (mode : Mode) (budget : Nat)
    (player : Player (Tap σ)) (report : ρ)
    : player.sink.requests
      <+: (runWithin range mode reporter budget player report).player.sink.requests := by
  refine runWithin_preserves
    (fun later : Player (Tap σ) => player.sink.requests <+: later.sink.requests) ?_
    (List.prefix_refl _) mode budget
  intro later result earlier attempted
  obtain ⟨asked, requests, -⟩ := exists_requests_attempt? attempted
  rw [requests]
  exact earlier.trans (List.prefix_append _ asked)

/-- A run asks its output for tones that the output's range at the start admits only. -/
theorem admits_run (player : Player σ) (mode : Mode) (reporter : ρ → Nat → Nat → ρ) (report : ρ)
    (budget : Nat)
    : ∀ tone ∈ (player.tapped.run mode reporter report budget).player.sink.requests,
        (ToneSink.range player.sink).Admits tone :=
  runWithin_preserves
    (fun tapped : Player (Tap σ) =>
      ∀ tone ∈ tapped.sink.requests, (ToneSink.range player.sink).Admits tone)
    admits_attempt? (List.forall_mem_nil _) mode budget

end Player

namespace Session

variable {tempo : UInt32} {maxDepth : Nat}

theorem Bounded.perform {code : Array Instruction} {session : Session}
    (bounded : session.Bounded code tempo maxDepth) (action : Action)
    : (session.perform action).Bounded (lastLoaded code [action]) tempo maxDepth := by
  cases action with
  | operate sink operation =>
      have onSink : (session.on sink).session.Bounded code tempo maxDepth := bounded
      exact Player.bounded_perform operation onSink
  | load other =>
      exact { bounded with sameCode := rfl, cursor := Nat.zero_le _ }

/-- A session stays bounded for the code that was loaded last, by induction on the actions. -/
theorem Bounded.performAll {code : Array Instruction} {session : Session}
    (bounded : session.Bounded code tempo maxDepth) (actions : List Action)
    : (session.performAll actions).Bounded (lastLoaded code actions) tempo maxDepth := by
  induction actions generalizing code session with
  | nil => exact bounded
  | cons action later ih =>
      have next := ih (bounded.perform action)
      cases action with
      | operate | load => exact next

theorem perform_seek [ToneSink σ] (session : Session) (sink : σ) (target : Nat)
    : session.perform (.operate sink (.seek target))
      = if target ≤ session.program.size then { session with program.cursor := target }
        else session := by
  by_cases inside : target ≤ session.program.size
  · simp [perform, Player.perform, Program.seek?, on, Player.session, inside]
  · simp [perform, Player.perform, Program.seek?, on, Player.session, inside]

/-- In every session the cursor lies in the program or at its end, and the stack has at most as
many frames as its limit allows. The limit, the tempo to go back to and the code are as they were
set. The cursor is moved to any place up to the end and to no other. A run, which may stop after any
number of attempts, asks its output only for tones in the range that the output has at the start.
-/
theorem performAll_bounded (tempo : UInt32) (maxDepth : Nat) (code : Array Instruction)
    (actions : List Action)
    : let session := (new tempo maxDepth code).performAll actions
      session.program.cursor ≤ session.program.size
      ∧ session.machine.stack.length ≤ maxDepth
      ∧ session.machine.maxDepth = maxDepth
      ∧ session.machine.initialTempo = tempo
      ∧ session.program.code = lastLoaded code actions
      ∧ (∀ target,
          ((session.program.seek? target).isSome ↔ target ≤ session.program.size)
          ∧ ∀ (σ : Type) [ToneSink σ] (sink : σ),
              session.perform (.operate sink (.seek target))
                = if target ≤ session.program.size then
                    { session with program.cursor := target }
                  else session)
      ∧ ∀ (σ ρ : Type) [ToneSink σ] (sink : σ) (mode : Mode) (reporter : ρ → Nat → Nat → ρ)
          (report : ρ) (budget : Nat),
          let range := ToneSink.range sink
          let tapped := (session.on sink).tapped.run mode reporter report budget
          tapped.viewed Tap.sink = (session.on sink).run mode reporter report budget
          ∧ ∀ tone ∈ tapped.player.sink.requests,
              tone.millis ≤ range.maxMillis
              ∧ (tone.frequency = 0
                ∨ (range.minHertz ≤ tone.frequency ∧ tone.frequency ≤ range.maxHertz)) := by
  intro session
  have start : (new tempo maxDepth code).Bounded code tempo maxDepth :=
    ⟨rfl, Nat.zero_le _, Nat.zero_le _, rfl, rfl⟩
  have bounded : session.Bounded (lastLoaded code actions) tempo maxDepth :=
    start.performAll actions
  refine ⟨bounded.cursor, bounded.sameDepth ▸ bounded.depth, bounded.sameDepth, bounded.sameTempo,
    bounded.sameCode, fun target => ⟨?_, fun σ _ sink => session.perform_seek sink target⟩, ?_⟩
  · simp [Program.seek?]
  · intro σ ρ _ sink mode reporter report budget range tapped
    exact ⟨(Player.run_viewed Tap.isView_sink _ mode reporter report budget).symm,
      Player.admits_run (session.on sink) mode reporter report budget⟩

end Session

end Chiptune

import Chiptune.Output.Recorder
import Chiptune.Proofs.Playback.Sessions

/-! Sessions that begin again. Whatever was done in a session and wherever its runs have stopped, a
reset of the machine and a rewind of the program take it all back. From there on the session cannot
be told from a new one.
-/

namespace Chiptune

open ToneSink (after emit)

namespace Session

/-- What is seen of an action in a session. -/
structure Sighting where
  /-- The session after the action. -/
  session : Session
  /-- What a run came to. -/
  outcome : Option (Outcome Fault) := none
  /-- The tones that a run asked its output for, also those that were refused. -/
  requests : List Tone := []
  /-- The cursors and sizes that the reporter of a run was told. -/
  told : List (Nat × Nat) := []
  /-- Whether the place that was sought is in the program. -/
  found : Bool := true
deriving DecidableEq

/-- A reporter that writes down what it is told. -/
def note (told : List (Nat × Nat)) (cursor size : Nat) : List (Nat × Nat) :=
  told ++ [(cursor, size)]

/-- What is seen of a run with an output and a reporter that write everything down. -/
def seeRun [ToneSink σ] (session : Session) (sink : σ) (mode : Mode) (budget : Nat) : Sighting :=
  let run := (session.on sink).tapped.run mode note [] budget
  { session := run.player.session, outcome := run.outcome, requests := run.player.sink.requests,
    told := run.report }

/-- What another reporter makes of what the reporter of a run was told. -/
def Sighting.reported (sighting : Sighting) (reporter : ρ → Nat → Nat → ρ) (report : ρ) : ρ :=
  sighting.told.foldl (fun report (cursor, size) => reporter report cursor size) report

/-- What is seen of an action. -/
def see (session : Session) (action : Action) : Sighting :=
  match action with
  | @Action.operate _ _ sink (.run mode budget) => session.seeRun sink mode budget
  | @Action.operate _ _ _ (.seek target) =>
    { session := session.perform action, found := (session.program.seek? target).isSome }
  | _ => { session := session.perform action }

/-- What is seen of actions, one after another. -/
def watch (session : Session) : List Action → List Sighting
  | [] => []
  | action :: later =>
    let sighting := session.see action
    sighting :: sighting.session.watch later

/-- The session with its machine reset and its program rewound. -/
def replayed (session : Session) : Session :=
  ⟨session.machine.reset, session.program.rewind⟩

end Session

-----------------------------------------------------------------------------------------
-- Runs as they are seen
-----------------------------------------------------------------------------------------

namespace Player

variable [ToneSink σ] {range : ToneRange} {mode : Mode}

/-- The state of an output after a run follows from what the run has asked it for. -/
theorem sink_runWithin (reporter : ρ → Nat → Nat → ρ) (budget : Nat) (player : Player σ)
    (report : ρ)
    : let run := runWithin range mode reporter budget player.tapped report
      run.player.sink.sink = after player.sink run.player.sink.requests := by
  refine runWithin_preserves
    (fun tapped : Player (Tap σ) => tapped.sink.sink = after player.sink tapped.sink.requests)
    ?_ rfl mode budget
  intro tapped result follows attempted
  rcases sink_attempt? attempted with same | ⟨tone, -, asked⟩
  · rw [same, follows]
  · rw [asked]
    exact (congrArg (fun sink => (emit sink tone).1) follows).trans
      (ToneSink.after_append player.sink tapped.sink.requests [tone]).symm

end Player

namespace Session

variable {session : Session}

/-- All that comes of a run is seen, whatever its reporter is. The reporter learns what is written
down, and the output is left as its requests leave it.
-/
theorem sees_run [ToneSink σ] (session : Session) (sink : σ) (mode : Mode)
    (reporter : ρ → Nat → Nat → ρ) (report : ρ) (budget : Nat)
    : let run := (session.on sink).run mode reporter report budget
      let sighting := session.seeRun sink mode budget
      run.player.session = sighting.session
      ∧ run.outcome = sighting.outcome
      ∧ run.player.sink = after sink sighting.requests
      ∧ run.report = sighting.reported reporter report := by
  intro run sighting
  let player := session.on sink
  let seen := player.tapped.run mode note [] budget
  let tell (told : List (Nat × Nat)) : ρ :=
    told.foldl (fun report (cursor, size) => reporter report cursor size) report
  have tells (told : List (Nat × Nat)) (cursor size : Nat)
      : tell (note told cursor size) = reporter (tell told) cursor size :=
    List.foldl_append
  have untapped : player.run mode note [] budget = seen.viewed Tap.sink :=
    Player.run_viewed Tap.isView_sink player.tapped mode note [] budget
  have same : run = (seen.viewed Tap.sink).retold tell := by
    rw [← untapped]
    exact (Player.retold_runWithin tell tells budget player []).symm
  have left : seen.player.sink.sink = after sink seen.player.sink.requests :=
    Player.sink_runWithin note budget player []
  rw [same]
  exact ⟨rfl, rfl, left, rfl⟩

/-- What is seen goes on from what the action leads to, by cases on the action. -/
theorem session_see (session : Session) (action : Action)
    : (session.see action).session = session.perform action := by
  cases action with
  | load => rfl
  | @operate σ _ sink operation =>
      cases operation with
      | run mode budget =>
          obtain ⟨same, -⟩ := session.sees_run sink mode (fun _ _ _ => ()) () budget
          exact same.symm
      | rewind | seek | reset => rfl

-----------------------------------------------------------------------------------------
-- Beginning again
-----------------------------------------------------------------------------------------

/-- A session that has kept its code and its settings is new again. -/
theorem Bounded.replayed_eq {code : Array Instruction} {tempo : UInt32} {maxDepth : Nat}
    (bounded : session.Bounded code tempo maxDepth)
    : session.replayed = new tempo maxDepth code := by
  rw [replayed, Machine.reset_eq_new, Program.rewind, bounded.sameCode, bounded.sameDepth,
    bounded.sameTempo]
  rfl

/-- After any actions in a session, a reset and a rewind lead to the session that was new, with the
code that was loaded last. So all actions from there on are seen as in the new session, and their
runs come to the same for every output, reporter and mode: the outcome and the session, the state of
the output that follows from the requests, and what the reporter makes of its calls.
-/
theorem watch_replayed (tempo : UInt32) (maxDepth : Nat) (code : Array Instruction)
    (history : List Action)
    : let session := (new tempo maxDepth code).performAll history
      let fresh := new tempo maxDepth (lastLoaded code history)
      session.replayed = fresh
      ∧ (∀ (σ τ : Type) [ToneSink σ] [ToneSink τ] (sink : σ) (other : τ),
          session.performAll [.operate sink .reset, .operate other .rewind] = fresh
          ∧ session.performAll [.operate sink .rewind, .operate other .reset] = fresh)
      ∧ ∀ further : List Action,
          session.replayed.watch further = fresh.watch further
          ∧ session.replayed.performAll further = fresh.performAll further
          ∧ ∀ (σ ρ : Type) [ToneSink σ] (sink : σ) (mode : Mode) (reporter : ρ → Nat → Nat → ρ)
              (report : ρ) (budget : Nat),
              let run :=
                ((session.replayed.performAll further).on sink).run mode reporter report budget
              let sighting := (fresh.performAll further).seeRun sink mode budget
              run.player.session = sighting.session
              ∧ run.outcome = sighting.outcome
              ∧ run.player.sink = after sink sighting.requests
              ∧ run.report = sighting.reported reporter report := by
  intro session fresh
  have start : (new tempo maxDepth code).Bounded code tempo maxDepth :=
    ⟨rfl, Nat.zero_le _, Nat.zero_le _, rfl, rfl⟩
  have again : session.replayed = fresh := (start.performAll history).replayed_eq
  refine ⟨again, fun σ τ _ _ sink other => ⟨again, again⟩, fun further => ?_⟩
  rw [again]
  exact ⟨rfl, rfl, fun σ ρ _ sink => (fresh.performAll further).sees_run sink⟩

/-- A song that changes its tempo is faster when it is only rewound. -/
example
    : let code : Array Instruction :=
        #[.note 440 (.ticks 960), .tempo 240, .note 494 (.ticks 960)]
      let fresh := new 120 1 code
      let session := fresh.perform (.operate ({ failAt := some 1 } : Recorder) (.run .continuous 9))
      let heard (session : Session) := (session.seeRun ({} : Recorder) .continuous 9).requests
      heard session.replayed = [⟨440, 500⟩, ⟨494, 250⟩]
      ∧ heard { session with program := session.program.rewind } = [⟨440, 250⟩, ⟨494, 250⟩] := by
  decide +kernel

end Session

end Chiptune

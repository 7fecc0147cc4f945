import Chiptune.Debugger
import Chiptune.Proofs.Playback.Sessions
import Chiptune.Proofs.Playback.Suspensions

/-! Debug sessions. Every command but the one to quit is one run, which goes on where the last one
was suspended, so a session plays the beginning of what a continuous run plays. It ends as the
continuous run does, or where the user quits, and from there the rest can still be played.
-/

namespace Chiptune

open ToneSink (HasFixedRange IsView)

/-- The mode of the run that a command asks for; none if it asks to quit. -/
def DebugCommand.mode? : DebugCommand → Option Mode
  | .step => some .singleStep
  | .resume => some .untilBreakpoint
  | .quit => none

namespace Run

/-- The last one of some runs, or the run before them if there are none. -/
def lastOf (begun : Run σ ρ) (runs : List (Run σ ρ)) : Run σ ρ :=
  runs.foldl (fun _ run => run) begun

/-- The run itself if it is over, or else a continuous run from where it was left. -/
def resumed [ToneSink σ] (run : Run σ Unit) (budget : Nat) : Run σ Unit :=
  if run.isOver then run else run.player.play .continuous budget

/-- A run is over if it has an outcome and is not suspended, by cases on the outcome. -/
theorem isOver_eq (run : Run σ ρ)
    : run.isOver = (run.outcome.isSome && !run.suspension?.isSome) := by
  rw [isOver, suspension?]
  cases run.outcome with
  | none => rfl
  | some outcome => cases outcome <;> rfl

theorem isOver_of_suspension? {run : Run σ ρ} (suspended : run.suspension?.isSome)
    : run.isOver = false := by
  rw [isOver_eq, suspended, Bool.not_true, Bool.and_false]

theorem outcome_isSome_of_suspension? {run : Run σ ρ} (suspended : run.suspension?.isSome)
    : run.outcome.isSome := by
  cases outcome : run.outcome with
  | none => rw [suspension?, outcome] at suspended; cases suspended
  | some outcome => rfl

theorem isSome_suspension?_viewed (view : σ → τ) (run : Run σ ρ)
    : (run.viewed view).suspension?.isSome = run.suspension?.isSome := by
  simp only [suspension?, viewed]
  split <;> rfl

end Run

namespace Player

variable [ToneSink σ] {range : ToneRange} {reporter : ρ → Nat → Nat → ρ} {report : ρ}
variable {player : Player σ}

-----------------------------------------------------------------------------------------
-- Runs and what is left to play
-----------------------------------------------------------------------------------------

/-- A continuous run makes its way first and then goes on from there, by induction on the way. -/
theorem Reaches.exists_runWithin {last : Player σ} {told : ρ}
    (way : Reaches range reporter player report last told)
    : ∃ made, ∀ more,
        runWithin range .continuous reporter (made + more) player report
          = runWithin range .continuous reporter more last told := by
  induction way with
  | refl => exact ⟨0, fun more => by rw [Nat.zero_add]⟩
  | step succeeds _ ih =>
      obtain ⟨made, rest⟩ := ih
      refine ⟨made + 1, fun more => ?_⟩
      rw [Nat.succ_add, runWithin_step succeeds, suspends_continuous,
        if_neg Bool.false_ne_true]
      exact rest more

/-- A run in any mode makes a part of the continuous run, which can be resumed. -/
theorem exists_resumed [HasFixedRange σ] (player : Player σ) (mode : Mode) (budget : Nat)
    : ∃ made, ∀ more,
        player.play .continuous (made + more) = (player.play mode budget).resumed more := by
  by_cases isOver : (player.play mode budget).isOver
  · obtain ⟨attempts, plays⟩ := plays_of_isOver isOver
    refine ⟨attempts, fun more => ?_⟩
    rw [Run.resumed, if_pos isOver]
    exact plays.runWithin_continuous (Nat.le_add_right ..)
  · obtain ⟨last, way, ⟨same, -⟩ | ⟨fault, -, faulted⟩⟩ :=
      exists_reaches_runWithin (ToneSink.range player.sink) mode (fun _ _ _ => ()) budget player ()
    · obtain ⟨made, rest⟩ := way.exists_runWithin
      refine ⟨made, fun more => ?_⟩
      rw [Run.resumed, if_neg isOver, play, run, rest, play, run, play, run, range_runWithin, same]
    · exact absurd (Run.isOver_iff.mpr (.inr ⟨fault, faulted⟩)) isOver

/-- Runs one after another make a part of the continuous run, by induction on their modes. -/
theorem exists_resumed_successive [HasFixedRange σ] (begun : Run σ Unit)
    (goesOn : begun.isOver = false) (budget : Nat) (modes : List Mode)
    : ∃ made, ∀ more,
        begun.player.play .continuous (made + more)
          = (begun.lastOf (begun.player.successive budget modes)).resumed more := by
  induction modes generalizing begun with
  | nil =>
      refine ⟨0, fun more => ?_⟩
      rw [Nat.zero_add, successive, Run.lastOf, List.foldl_nil, Run.resumed, goesOn]
      rfl
  | cons mode later ih =>
      obtain ⟨made, first⟩ := exists_resumed begun.player mode budget
      rw [successive]
      cases suspended : (begun.player.play mode budget).suspension? with
      | none => exact ⟨made, first⟩
      | some suspension =>
          have goesOnNext : (begun.player.play mode budget).isOver = false :=
            Run.isOver_of_suspension? (suspended ▸ rfl)
          obtain ⟨others, rest⟩ := ih _ goesOnNext
          refine ⟨made + others, fun more => ?_⟩
          rw [Nat.add_assoc, first, Run.resumed, goesOnNext]
          exact rest more

/-- With a budget for the whole playback every one of some runs has an outcome, by induction on
their modes.
-/
theorem Plays.outcome_isSome [HasFixedRange σ] {attempts budget : Nat} {final : Run σ Unit}
    (plays
      : Plays (ToneSink.range player.sink) (fun _ _ _ => ()) attempts player () final)
    (enough : attempts ≤ budget) (modes : List Mode)
    : ∀ run ∈ player.successive budget modes, run.outcome.isSome := by
  induction modes generalizing player attempts with
  | nil => exact List.forall_mem_nil _
  | cons mode later ih =>
      rw [successive]
      rcases plays.runWithin_eq_or enough mode
        with whole | ⟨cursor, fewer, suspended, less, rest⟩
      · have whole : player.play mode budget = final := whole
        have isOver := plays.isOver
        rw [← whole] at isOver
        have last : (player.play mode budget).suspension?.isSome = false :=
          Bool.eq_false_iff.mpr fun suspended => by
            rw [Run.isOver_of_suspension? suspended] at isOver
            cases isOver
        rw [last]
        rw [Run.isOver_eq, Bool.and_eq_true] at isOver
        exact List.forall_mem_singleton.mpr isOver.1
      · have suspended : (player.play mode budget).outcome = some (.suspended cursor) := suspended
        refine List.forall_mem_cons.mpr ⟨by rw [suspended]; rfl, ?_⟩
        have goesOn : (player.play mode budget).suspension?.isSome := by
          rw [Run.suspension?, suspended]
          rfl
        rw [goesOn, if_pos rfl]
        refine ih ?_ (Nat.le_trans (Nat.le_of_lt less) enough)
        rw [play, run, range_runWithin]
        exact rest

end Player

-----------------------------------------------------------------------------------------
-- Sessions and their runs
-----------------------------------------------------------------------------------------

def DebugSession.viewed (view : σ → τ) (session : DebugSession σ) : DebugSession τ :=
  ⟨session.player.viewed view, session.shown, session.exit⟩

namespace Debugger

/-- The modes of the runs that are asked for by the commands with the given numbers, at most `limit`
of them, up to the first one to quit.
-/
def modes (commands : Nat → DebugCommand) (index : Nat) : (limit : Nat) → List Mode
  | 0 => []
  | limit + 1 =>
    match (commands index).mode? with
    | none => []
    | some mode => mode :: modes commands (index + 1) limit

/-- The line that is shown after a run. -/
def told? (run : Run σ Unit) : Option String :=
  run.outcome.map (line run.player)

/-- After `begun` a session makes these runs, one for each command that it follows, of which there
are at most `limit`.
-/
structure Recounts (begun : Run σ Unit) (shown : List String) (runs : List (Run σ Unit))
    (limit : Nat) (session : DebugSession σ)
    : Prop where
  player : session.player = (begun.lastOf runs).player
  shown : session.shown = (runs.filterMap told?).reverse ++ shown
  finished {outcome} (ends : session.exit = some (.finished outcome))
    : (begun.lastOf runs).isOver ∧ (begun.lastOf runs).outcome = some outcome
  quit {cursor} (leaves : session.exit = some (.quit cursor))
    : (begun.lastOf runs).isOver = false ∧ cursor = session.player.program.cursor
  answered (exits : session.exit.isSome) : ∀ run ∈ runs, run.outcome.isSome
  spent (underway : session.exit = none) (ends : ∀ run ∈ runs, run.outcome.isSome)
    : runs.length = limit

namespace Recounts

variable {begun run : Run σ Unit} {shown : List String} {runs : List (Run σ Unit)} {limit : Nat}
variable {session : DebugSession σ}

theorem unanswered (begun : Run σ Unit) (shown : List String)
    : Recounts begun shown [] 0 ⟨begun.player, shown, none⟩ := by
  refine ⟨rfl, rfl, fun ends => ?_, fun leaves => ?_, fun exits => ?_, fun _ _ => rfl⟩
  · cases ends
  · cases leaves
  · cases exits

/-- A command to quit asks for no run. -/
theorem leave (goesOn : begun.isOver = false) (shown : List String) (limit : Nat)
    : Recounts begun shown [] limit
        ⟨begun.player, shown, some (.quit begun.player.program.cursor)⟩ := by
  refine ⟨rfl, rfl, fun ends => ?_, fun leaves => ⟨goesOn, ?_⟩, fun _ => List.forall_mem_nil _,
    fun underway => ?_⟩
  · cases ends
  · cases leaves
    rfl
  · cases underway

/-- A run that is not suspended is the last one. -/
theorem last (stays : run.suspension?.isSome = false) (shown : List String) (limit : Nat)
    : Recounts begun shown [run] (limit + 1)
        ⟨run.player, (told? run).toList ++ shown, run.outcome.map .finished⟩ := by
  constructor
  · rfl
  · rw [List.filterMap_cons]
    cases told? run <;> rfl
  · intro outcome ends
    obtain ⟨answer, answered, same⟩ := Option.map_eq_some_iff.mp ends
    cases same
    refine ⟨?_, answered⟩
    rw [Run.lastOf, List.foldl_cons, List.foldl_nil, Run.isOver_eq, answered, stays]
    rfl
  · intro cursor leaves
    obtain ⟨answer, -, same⟩ := Option.map_eq_some_iff.mp leaves
    cases same
  · intro exits
    exact List.forall_mem_singleton.mpr (Option.isSome_map.symm.trans exits)
  · intro underway ends
    have answered := ends run List.mem_cons_self
    rw [Option.map_eq_none_iff.mp underway] at answered
    cases answered

/-- A run that is suspended comes before the others. -/
theorem cons (suspended : run.suspension?.isSome)
    (others : Recounts run ((told? run).toList ++ shown) runs limit session)
    : Recounts begun shown (run :: runs) (limit + 1) session := by
  constructor
  · exact others.player
  · rw [others.shown, List.filterMap_cons]
    cases told? run <;> simp
  · exact others.finished
  · exact others.quit
  · intro exits
    exact List.forall_mem_cons.mpr
      ⟨Run.outcome_isSome_of_suspension? suspended, others.answered exits⟩
  · intro underway ends
    rw [List.length_cons, others.spent underway (List.forall_mem_cons.mp ends).2]

end Recounts

variable [ToneSink σ] [ToneSink τ]

section Follow

variable {commands : Nat → DebugCommand} {index : Nat} {mode : Mode}

theorem follow_of_quit (asks : (commands index).mode? = none) (budget : Nat) (player : Player σ)
    (shown : List String) (limit : Nat)
    : follow commands budget player shown index (limit + 1)
      = ⟨player, shown, some (.quit player.program.cursor)⟩ := by
  cases command : commands index with
  | quit => simp only [follow, command]
  | step | resume => rw [command] at asks; cases asks

/-- A command that asks for a run shows where the run has ended, and the session goes on if the run
is suspended there; by cases on the outcome.
-/
theorem follow_of_run (asks : (commands index).mode? = some mode) (budget : Nat)
    (player : Player σ) (shown : List String) (limit : Nat)
    : let run := player.play mode budget
      let told := (told? run).toList ++ shown
      follow commands budget player shown index (limit + 1)
      = if run.suspension?.isSome then follow commands budget run.player told (index + 1) limit
        else ⟨run.player, told, run.outcome.map .finished⟩ := by
  cases command : commands index with
  | quit => rw [command] at asks; cases asks
  | step =>
      obtain rfl : mode = .singleStep := Option.some.inj (asks.symm.trans (command ▸ rfl))
      rcases answer : (player.play .singleStep budget).outcome with _ | _ | _ | _ <;>
        simp [follow, command, told?, Run.suspension?, answer, Outcome.isSuspended]
  | resume =>
      obtain rfl : mode = .untilBreakpoint := Option.some.inj (asks.symm.trans (command ▸ rfl))
      rcases answer : (player.play .untilBreakpoint budget).outcome with _ | _ | _ | _ <;>
        simp [follow, command, told?, Run.suspension?, answer, Outcome.isSuspended]

end Follow

theorem follow_viewed {view : σ → τ} (isView : IsView view) (commands : Nat → DebugCommand)
    (budget : Nat) (player : Player σ) (shown : List String) (index limit : Nat)
    : follow commands budget (player.viewed view) shown index limit
      = (follow commands budget player shown index limit).viewed view := by
  induction limit generalizing player shown index with
  | zero => rfl
  | succ limit ih =>
      cases asks : (commands index).mode? with
      | none => rw [follow_of_quit asks, follow_of_quit asks]; rfl
      | some mode =>
          have run
              : (player.viewed view).play mode budget = (player.play mode budget).viewed view :=
            Player.run_viewed isView player mode _ () budget
          rw [follow_of_run asks, follow_of_run asks, run, Run.isSome_suspension?_viewed,
            apply_ite (DebugSession.viewed view), ← ih]
          rfl

/-- A session makes one run for every command, by induction on the number of commands. -/
theorem recounts_follow (commands : Nat → DebugCommand) (budget : Nat) (begun : Run σ Unit)
    (goesOn : begun.isOver = false) (shown : List String) (index limit : Nat)
    : Recounts begun shown (begun.player.successive budget (modes commands index limit)) limit
        (follow commands budget begun.player shown index limit) := by
  induction limit generalizing begun shown index with
  | zero => exact .unanswered begun shown
  | succ limit ih =>
      rw [modes]
      cases asks : (commands index).mode? with
      | none =>
          rw [follow_of_quit asks]
          exact .leave goesOn shown (limit + 1)
      | some mode =>
          rw [follow_of_run asks, Player.successive]
          cases suspended : (begun.player.play mode budget).suspension?.isSome with
          | false => exact .last suspended shown limit
          | true =>
              exact .cons suspended (ih _ (Run.isOver_of_suspension? suspended) _ (index + 1))

/-- Stepping by itself a session makes the attempts of a continuous run, one for each command, and
shows one line for each of them; by induction on the number of commands.
-/
theorem exists_follow_automatic [HasFixedRange σ] {player : Player σ}
    (before : player.program.current?.isSome) (budget : Nat) (shown : List String)
    (index limit : Nat)
    : let run := player.play .continuous limit
      ∃ lines,
        follow automatic (budget + 1) player shown index limit
          = ⟨run.player, lines, run.outcome.map .finished⟩
        ∧ lines.length
          = shown.length + (player.attempted (ToneSink.range player.sink) limit).length := by
  induction limit generalizing player shown index with
  | zero =>
      obtain ⟨instruction, here⟩ := Option.isSome_iff_exists.mp before
      have attempts : player.attempt? (ToneSink.range player.sink) = some _ :=
        congrArg (Option.map _) here
      rw [Player.play, Player.run, Player.runWithin_zero attempts]
      exact ⟨shown, rfl, rfl⟩
  | succ limit ih =>
      rw [follow_of_run (rfl : (automatic index).mode? = some .singleStep), Player.play,
        Player.run, Player.play, Player.run]
      cases attempts : player.attempt? (ToneSink.range player.sink) with
      | none =>
          rw [Option.map_eq_none_iff.mp attempts] at before
          cases before
      | some result =>
          obtain ⟨next, fault⟩ := result
          cases fault with
          | some fault =>
              rw [Player.runWithin_faulted attempts, Player.runWithin_faulted attempts,
                Player.attempted_faulted attempts]
              exact ⟨_, rfl, rfl⟩
          | none =>
              rw [Player.runWithin_step attempts, Player.runWithin_step attempts,
                Player.attempted_step attempts, Player.suspends_continuous,
                if_neg Bool.false_ne_true]
              cases here : next.program.current? with
              | none =>
                  have finished : next.attempt? (ToneSink.range player.sink) = none :=
                    congrArg (Option.map _) here
                  have passes : next.suspends .singleStep = false := by
                    rw [Player.suspends, here]
                    rfl
                  rw [passes, if_neg Bool.false_ne_true, Player.runWithin_ended finished,
                    Player.runWithin_ended finished, Player.attempted_ended finished]
                  exact ⟨_, rfl, rfl⟩
              | some instruction =>
                  have stops : next.suspends .singleStep := by rw [Player.suspends, here]; rfl
                  have same : ToneSink.range next.sink = ToneSink.range player.sink :=
                    Player.range_attempt? attempts
                  obtain ⟨lines, session, count⟩ := ih (Option.isSome_of_eq_some here)
                    (line next (.suspended next.program.cursor) :: shown) (index + 1)
                  rw [Player.play, Player.run, same] at session
                  rw [same] at count
                  refine ⟨lines, ?_, ?_⟩
                  · rw [if_pos stops]
                    exact session
                  · rw [count, List.length_cons, List.length_cons, Nat.add_assoc,
                      Nat.add_comm 1]

theorem exists_session_automatic [HasFixedRange σ] (player : Player σ)
    (before : player.program.isFinished = false) (budget : Nat)
    : let run := player.play .continuous budget
      ∃ lines,
        session automatic budget player = ⟨run.player, lines, run.outcome.map .finished⟩
        ∧ lines.length
          = 1 + (player.attempted (ToneSink.range player.sink) budget).length := by
  have inside : player.program.current?.isSome :=
    (Program.current?_isSome_iff _).mpr (Nat.lt_of_not_le (of_decide_eq_false before))
  have alone (others : Nat) := exists_follow_automatic inside others
    [line player (.suspended player.program.cursor)] 0 budget
  rw [session, if_neg (Bool.eq_false_iff.mp before)]
  cases budget with
  | zero => exact alone 0
  | succ budget => exact alone budget

/-- The commands of a list ask for runs up to the first one to quit, and so does its end. -/
theorem modes_of_list {commands : Nat → DebugCommand} {index : Nat} (list : List DebugCommand)
    (same : ∀ number, commands (index + number) = list.getD number .quit) {limit : Nat}
    (fits : list.length ≤ limit)
    : modes commands index limit
      = (list.takeWhile (· ≠ .quit)).filterMap DebugCommand.mode? := by
  induction limit generalizing index list with
  | zero =>
      obtain rfl := List.eq_nil_of_length_eq_zero (Nat.le_zero.mp fits)
      rfl
  | succ limit ih =>
      have first := same 0
      rw [Nat.add_zero] at first
      cases list with
      | nil =>
          rw [modes, first]
          rfl
      | cons command later =>
          have sameLater (number : Nat)
              : commands (index + 1 + number) = later.getD number .quit := by
            rw [Nat.add_assoc, Nat.add_comm 1]
            exact same (number + 1)
          have rest := ih later sameLater (Nat.le_of_succ_le_succ fits)
          rw [modes, first]
          cases command with
          | quit => rfl
          | step | resume =>
              simp only [List.getD_cons_zero, DebugCommand.mode?, rest]
              rfl

-----------------------------------------------------------------------------------------
-- Sessions and playbacks
-----------------------------------------------------------------------------------------

/-- A session that makes these runs goes along with the continuous run from its start, on an output
that writes down its requests.
-/
structure Accompanies (start : Player (Tap σ)) (runs : List (Run (Tap σ) Unit))
    (session : DebugSession (Tap σ))
    : Prop where
  /-- One line is shown at the start, and one after every run. -/
  lines (exits : session.exit.isSome)
    : session.shown.reverse
        = line start (.suspended start.program.cursor) :: runs.filterMap told?
      ∧ session.shown.length = 1 + runs.length
  requests
    : ∃ made, ∀ more,
        session.player.sink.requests
          <+: (start.play .continuous (made + more)).player.sink.requests
  finished {outcome} (ends : session.exit = some (.finished outcome))
    : ∃ made, ∀ more,
        start.play .continuous (made + more) = ⟨session.player, (), some outcome⟩
  quit {cursor} (leaves : session.exit = some (.quit cursor))
    : cursor = session.player.program.cursor
      ∧ session.player = ((Run.mk start () none).lastOf runs).player
      ∧ ∃ made, ∀ more,
          start.play .continuous (made + more) = session.player.play .continuous more
  /-- A session without an end is waiting for the end of a run. -/
  spent (underway : session.exit = none) : ∃ run ∈ runs, run.outcome = none

theorem Recounts.accompanies [HasFixedRange σ] {start : Player (Tap σ)} {budget limit : Nat}
    {modes : List Mode} {session : DebugSession (Tap σ)}
    (recounts
      : Recounts ⟨start, (), none⟩ [line start (.suspended start.program.cursor)]
          (start.successive budget modes) limit session)
    (fits : modes.length < limit)
    : Accompanies start (start.successive budget modes) session := by
  obtain ⟨made, rest⟩ := Player.exists_resumed_successive (Run.mk start () none) rfl budget modes
  constructor
  · intro exits
    have lines : session.shown.reverse
        = line start (.suspended start.program.cursor)
          :: (start.successive budget modes).filterMap told? := by
      rw [recounts.shown]
      simp
    have told : ∀ run ∈ start.successive budget modes, (told? run).isSome := by
      intro run member
      rw [told?, Option.isSome_map]
      exact recounts.answered exits run member
    refine ⟨lines, ?_⟩
    rw [← List.length_reverse, lines, List.length_cons,
      List.filterMap_length_eq_length.mpr told, Nat.add_comm]
  · refine ⟨made, fun more => ?_⟩
    rw [rest, recounts.player, Run.resumed]
    split
    · exact List.prefix_refl _
    · exact Player.isPrefix_requests_runWithin .continuous more _ ()
  · intro outcome ends
    obtain ⟨isOver, last⟩ := recounts.finished ends
    refine ⟨made, fun more => ?_⟩
    rw [rest, Run.resumed, if_pos isOver, recounts.player, ← last]
  · intro cursor leaves
    obtain ⟨goesOn, stays⟩ := recounts.quit leaves
    refine ⟨stays, recounts.player, made, fun more => ?_⟩
    rw [rest, Run.resumed, goesOn, recounts.player]
    rfl
  · intro underway
    have fewer : (start.successive budget modes).length ≤ modes.length := by
      rw [Player.length_successive]
      exact Nat.min_le_left ..
    have unanswered : ¬∀ run ∈ start.successive budget modes, run.outcome.isSome :=
      fun ends => Nat.ne_of_lt (Nat.lt_of_le_of_lt fewer fits) (recounts.spent underway ends)
    simpa using unanswered

/-- A session follows the commands of a list up to the first one to quit. -/
theorem accompanies_scripted [HasFixedRange σ] (start : Player (Tap σ))
    (before : start.program.isFinished = false) {commands : List DebugCommand} {budget : Nat}
    (fits : commands.length < budget)
    : Accompanies start
        (start.successive budget
          ((commands.takeWhile (· ≠ .quit)).filterMap DebugCommand.mode?))
        (session (scripted commands) budget start) := by
  have recounts := recounts_follow (scripted commands) budget (Run.mk start () none) rfl
    [line start (.suspended start.program.cursor)] 0 budget
  have sameModes : modes (scripted commands) 0 budget = _ :=
    modes_of_list commands (fun number => by rw [Nat.zero_add]; rfl) (Nat.le_of_lt fits)
  have fewer
      : ((commands.takeWhile (· ≠ .quit)).filterMap DebugCommand.mode?).length
        ≤ commands.length :=
    Nat.le_trans (List.length_filterMap_le ..) (List.takeWhile_sublist _).length_le
  rw [sameModes] at recounts
  rw [session, if_neg (Bool.eq_false_iff.mp before)]
  exact recounts.accompanies (Nat.lt_of_le_of_lt fewer fits)

/-- A session ends if its budget is enough for the continuous run. -/
theorem Accompanies.exit_isSome [HasFixedRange σ] {start : Player (Tap σ)}
    {session : DebugSession (Tap σ)} {modes : List Mode} {budget whole : Nat}
    (accompanies : Accompanies start (start.successive budget modes) session)
    (enough : whole ≤ budget) (isOver : (start.play .continuous whole).isOver)
    : session.exit.isSome := by
  obtain ⟨attempts, plays⟩ := Player.plays_of_isOver isOver
  have within : attempts ≤ budget := Nat.le_trans (plays.attempts_le isOver) enough
  refine Option.isSome_iff_ne_none.mpr fun underway => ?_
  obtain ⟨run, member, unanswered⟩ := accompanies.spent underway
  have answered := plays.outcome_isSome within modes run member
  rw [unanswered] at answered
  cases answered

/-- A session at the end of the song is over without a command. One before the end goes along with
the continuous run, whatever the list of its commands is, and it comes to its own end if its budget
is enough for the continuous run. A song that nobody watches is played as the continuous run plays
it, and one line more is shown than there are attempts. On an output that writes down nothing the
session is the same one.
-/
theorem session_accompanies [HasFixedRange σ] (player : Player σ)
    : let start := player.tapped
      let range := ToneSink.range player.sink
      (player.program.isFinished
        → ∀ commands budget,
          session commands budget start = ⟨start, [], some (.finished .ended)⟩)
      ∧ (player.program.isFinished = false
        → (∀ (commands : List DebugCommand) (budget : Nat), commands.length < budget
          → let asked := (commands.takeWhile (· ≠ .quit)).filterMap DebugCommand.mode?
            let session := session (scripted commands) budget start
            Accompanies start (start.successive budget asked) session
            ∧ ∀ whole ≤ budget, (start.play .continuous whole).isOver → session.exit.isSome)
          ∧ ∀ budget,
            let session := session automatic budget start
            session.player = (start.play .continuous budget).player
            ∧ session.exit = (start.play .continuous budget).outcome.map .finished
            ∧ session.shown.length = 1 + (start.attempted range budget).length)
      ∧ ∀ commands budget,
          (session commands budget start).viewed Tap.sink = session commands budget player := by
  intro start range
  refine ⟨fun finished commands budget => ?_, fun before => ⟨?_, ?_⟩, fun commands budget => ?_⟩
  · have finished : start.program.isFinished := finished
    rw [session, if_pos finished]
  · intro commands budget fits asked session
    have accompanies : Accompanies start (start.successive budget asked) session :=
      accompanies_scripted start before fits
    exact ⟨accompanies, fun whole enough isOver => accompanies.exit_isSome enough isOver⟩
  · intro budget session
    obtain ⟨lines, same, count⟩ := exists_session_automatic start before budget
    have same : session = ⟨_, lines, _⟩ := same
    rw [same]
    exact ⟨rfl, rfl, count⟩
  · have tapped : player = start.viewed Tap.sink := rfl
    rw [tapped, session, session, apply_ite (DebugSession.viewed Tap.sink),
      follow_viewed Tap.isView_sink]
    rfl

/-- The user quits in the loop, at a breakpoint on which a command has stopped before; without the
user the song has a fault after the loop.
-/
theorem session_accompanies_loop
    : let player : Player Recorder :=
        ⟨.new 120 1, { code := #[.repeatOpen 2 4, .breakpoint, .note 440 (.millis 5),
          .repeatClose 1, .comeBack] }, {}⟩
      let start := player.tapped
      let asked := [.untilBreakpoint, .untilBreakpoint]
      let quits := session (scripted [.resume, .resume]) 20 start
      let unwatched := session automatic 20 start
      player.program.isFinished = false
      ∧ quits.exit = some (.quit 1)
      ∧ (∃ made, ∀ more,
          start.play .continuous (made + more) = quits.player.play .continuous more)
      ∧ quits.shown.length = 1 + (start.successive 20 asked).length
      ∧ (start.play .continuous 20).outcome = some (.faulted ⟨.returnWithoutCall, 4⟩)
      ∧ unwatched.player = (start.play .continuous 20).player
      ∧ unwatched.exit = some (.finished (.faulted ⟨.returnWithoutCall, 4⟩)) := by
  intro player start asked quits unwatched
  obtain ⟨-, before, -⟩ := session_accompanies player
  obtain ⟨listed, alone⟩ := before (by decide)
  obtain ⟨accompanies, -⟩ := listed [.resume, .resume] 20 (by decide)
  have leaves : quits.exit = some (.quit 1) := by decide +kernel
  have faulted
      : (start.play .continuous 20).outcome = some (.faulted ⟨.returnWithoutCall, 4⟩) := by
    decide +kernel
  obtain ⟨last, exit, -⟩ := alone 20
  exact ⟨by decide, leaves, (accompanies.quit leaves).2.2,
    (accompanies.lines (leaves ▸ rfl)).2, faulted, last, exit.trans (faulted ▸ rfl)⟩

end Debugger

end Chiptune

import Chiptune.Output.Recorder
import Chiptune.Proofs.Playback.Safety
import Chiptune.Proofs.Stripping

/-! Breakpoints cannot be heard. A continuous run passes over them, so it leads to the same as a run
of the program without them, with every index moved to its new place.
-/

namespace Chiptune

/-- The frame with the index that its call returns to changed. -/
def Frame.mapReturn (f : Nat → Nat) : Frame → Frame
  | .loop remaining => .loop remaining
  | .call returnTo => .call (f returnTo)

@[simp] theorem Frame.mapReturn_loop (f : Nat → Nat) (remaining : UInt32)
    : (loop remaining).mapReturn f = loop remaining := rfl

@[simp] theorem Frame.mapReturn_call (f : Nat → Nat) (returnTo : Nat)
    : (call returnTo).mapReturn f = call (f returnTo) := rfl

/-- The fault with the index of its instruction changed. -/
def Fault.mapCursor (f : Nat → Nat) (fault : Fault) : Fault :=
  ⟨fault.cause, f fault.cursor⟩

namespace Machine

/-- The machine with the indices in its registers changed. -/
def mapIndices (f : Nat → Nat) (machine : Machine) : Machine :=
  { machine with
    stack := machine.stack.map (·.mapReturn f)
    lastFault := machine.lastFault.map (·.mapCursor f) }

end Machine

/-- The move with the indices in it changed. -/
def Move.mapIndices (f : Nat → Nat) (move : Move) : Move :=
  ⟨move.machine.mapIndices f, f move.cursor, move.tone⟩

namespace Machine

variable {machine : Machine} {range : ToneRange} {size : Nat} {f : Nat → Nat}

theorem goTo_mapIndices (machine : Machine)
    (mono : ∀ {first second}, first ≤ second → f first ≤ f second) {target : Nat}
    (inside : target ≤ size)
    : (machine.mapIndices f).goTo (f size) (f target)
      = (machine.goTo size target).map (·.mapIndices f) := by
  rw [goTo, goTo, if_pos inside, if_pos (mono inside)]
  rfl

theorem enter_mapIndices (frame : Frame) (target : Nat)
    : (machine.mapIndices f).enter (frame.mapReturn f) (f target)
      = (machine.enter frame target).map (·.mapIndices f) := by
  simp only [enter, mapIndices, List.length_map]
  split <;> rfl

theorem sound_mapIndices (hertz : UInt32) (length : Length) (target : Nat)
    : (machine.mapIndices f).sound range hertz length (f target)
      = (machine.sound range hertz length target).map (·.mapIndices f) := by
  have same : (machine.mapIndices f).resolve range length = machine.resolve range length := rfl
  rw [sound, sound, same]
  cases machine.resolve range length <;> rfl

/-- The moves of an instruction that is no breakpoint do not depend on where the instructions stand,
by cases on the instruction. It does not matter what happens to targets outside the program.
-/
theorem move_mapIndices (mono : ∀ {first second}, first ≤ second → f first ≤ f second)
    {cursor : Nat} (next : f (cursor + 1) = f cursor + 1) {instruction : Instruction}
    (targets : ∀ target, instruction.target? = some target → target ≤ size)
    (returns : ∀ returnTo, .call returnTo ∈ machine.stack → returnTo ≤ size)
    : (machine.mapIndices f).move range (f size) (f cursor) (instruction.mapTarget f)
      = (machine.move range size cursor instruction).map (·.mapIndices f) := by
  cases instruction with
  | note hertz length =>
      simp only [Instruction.mapTarget, move, ← next]
      split
      · exact sound_mapIndices hertz length (cursor + 1)
      · rfl
  | rest length =>
      simp only [Instruction.mapTarget, move, ← next]
      exact sound_mapIndices 0 length (cursor + 1)
  | tempo | breakpoint => simp only [Instruction.mapTarget, move, ← next]; rfl
  | jump target => exact goTo_mapIndices machine mono (targets target rfl)
  | call target =>
      have inside := targets target rfl
      simp only [Instruction.mapTarget, move, ← next, if_pos inside, if_pos (mono inside)]
      exact enter_mapIndices (.call (cursor + 1)) target
  | comeBack =>
      simp only [Instruction.mapTarget, move, comeBack]
      cases stack : machine.stack with
      | nil => simp only [mapIndices, stack]; rfl
      | cons innermost outer =>
          cases innermost with
          | call returnTo =>
              have inside := returns returnTo (by rw [stack]; exact List.mem_cons_self)
              simp only [mapIndices, stack, List.map_cons, Frame.mapReturn_call]
              exact goTo_mapIndices { machine with stack := outer } mono inside
          | loop remaining => simp only [mapIndices, stack]; rfl
  | repeatOpen count exit =>
      simp only [Instruction.mapTarget, move, ← next]
      split
      · exact goTo_mapIndices machine mono (targets exit rfl)
      · exact enter_mapIndices (.loop (count - 1)) (cursor + 1)
  | repeatClose body =>
      have inside := targets body rfl
      simp only [Instruction.mapTarget, move, repeatClose, ← next, if_pos inside,
        if_pos (mono inside)]
      cases stack : machine.stack with
      | nil => simp only [mapIndices, stack]; rfl
      | cons innermost outer =>
          cases innermost with
          | call returnTo => simp only [mapIndices, stack]; rfl
          | loop remaining =>
              simp only [mapIndices, stack, List.map_cons, Frame.mapReturn_loop]
              split <;> rfl

end Machine

namespace Player

/-- The player of the program without its breakpoints. -/
def stripped (player : Player σ) : Player σ :=
  ⟨player.machine.mapIndices player.program.place, player.program.stripped, player.sink⟩

/-- The targets in the program and the places that calls return to lie in the program. -/
structure Confined (player : Player σ) : Prop where
  targets
    : ∀ instruction ∈ player.program.code.toList, ∀ target,
        instruction.target? = some target → target ≤ player.program.size
  returns
    : ∀ returnTo, .call returnTo ∈ player.machine.stack → returnTo ≤ player.program.size

variable [ToneSink σ] {range : ToneRange} {player next : Player σ}

theorem Confined.performs (confined : player.Confined) {instruction : Instruction} {move : Move}
    (performs : player.Performs range instruction move next)
    : next.Confined := by
  have size : next.program.size = player.program.size := by rw [performs.program]; rfl
  refine ⟨?_, fun returnTo pending => ?_⟩
  · rw [size, performs.program]
    exact confined.targets
  · rw [performs.machine] at pending
    rw [size]
    rcases performs.moves.call_mem pending with earlier | rfl
    · exact confined.returns returnTo earlier
    · exact (Program.mem_of_current? performs.here).1

/-- A run keeps the code of the program, because every attempt does. -/
theorem code_runWithin {reporter : ρ → Nat → Nat → ρ} (mode : Mode) (budget : Nat)
    (player : Player σ) (report : ρ)
    : (runWithin range mode reporter budget player report).player.program.code
      = player.program.code := by
  refine runWithin_preserves (fun other => other.program.code = player.program.code) ?_ rfl mode
    budget
  intro other result same attempted
  obtain ⟨instruction, ⟨move, performs, -⟩ | ⟨fault, fails, -⟩⟩ := attempt?_cases attempted
  · rw [performs.program]
    exact same
  · rw [fails.program]
    exact same

/-- An attempt at a breakpoint changes nothing that stays without it. -/
theorem attempt?_breakpoint (here : player.program.current? = some .breakpoint)
    : ∃ next,
        player.attempt? range = some (next, none)
        ∧ next.stripped = player.stripped
        ∧ next.program.size - next.program.cursor
          < player.program.size - player.program.cursor := by
  obtain ⟨inside, -⟩ := Program.mem_of_current? here
  have same : player.program.place (player.program.cursor + 1)
      = player.program.place player.program.cursor := player.program.place_succ here
  refine ⟨⟨player.machine, { player.program with cursor := player.program.cursor + 1 },
    player.sink⟩, ?_, ?_, ?_⟩
  · rw [attempt?, here, Option.map_some, attempt_of_silent here rfl rfl]
    rfl
  · exact congrArg (fun cursor => (⟨player.machine.mapIndices player.program.place,
      { player.program.stripped with cursor }, player.sink⟩ : Player σ)) same
  · exact Nat.sub_succ_lt_self _ _ inside

/-- An attempt at another instruction is made in the same way without the breakpoints. -/
theorem attempt?_stripped (confined : player.Confined)
    (stays : player.program.current? ≠ some .breakpoint) (range : ToneRange)
    : player.stripped.attempt? range
      = (player.attempt? range).map fun (next, fault) =>
          (next.stripped, fault.map (·.mapCursor player.program.place)) := by
  cases here : player.program.current? with
  | none =>
      have atEnd := player.program.place_of_size_le (Array.getElem?_eq_none_iff.mp here)
      have none : player.stripped.program.current? = none :=
        Array.getElem?_eq_none_iff.mpr (Nat.le_of_eq atEnd.symm)
      rw [attempt?, attempt?, none, here]
      rfl
  | some instruction =>
      have different : instruction ≠ .breakpoint := fun same => stays (same ▸ here)
      have kept : player.stripped.program.current? = some (instruction.mapTarget _) :=
        player.program.getElem?_stripped here different
      obtain ⟨-, member⟩ := Program.mem_of_current? here
      have next := player.program.place_succ here
      rw [if_neg different] at next
      have moves
          : player.stripped.machine.move range (player.program.place player.program.size)
              player.stripped.program.cursor (instruction.mapTarget player.program.place)
            = _ :=
        Machine.move_mapIndices player.program.place_mono next
          (confined.targets instruction member) confined.returns
      rw [player.program.place_of_size_le (Nat.le_refl _)] at moves
      rw [attempt?, attempt?, kept, here, Option.map_some, Option.map_some, Option.map_some]
      refine congrArg some ?_
      cases answer
          : player.machine.move range player.program.size player.program.cursor instruction with
      | error cause =>
          rw [answer] at moves
          rw [attempt_of_error here answer, attempt_of_error kept moves]
          rfl
      | ok move =>
          rw [answer] at moves
          cases asks : move.tone with
          | none =>
              rw [attempt_of_silent here answer asks, attempt_of_silent kept moves asks]
              rfl
          | some tone =>
              rcases taken : ToneSink.emit player.sink tone with ⟨sink, _ | error⟩
              · rw [attempt_of_taken here answer asks taken,
                  attempt_of_taken kept moves asks taken]
                rfl
              · rw [attempt_of_refused here answer asks taken,
                  attempt_of_refused kept moves asks taken]
                rfl

end Player

-----------------------------------------------------------------------------------------
-- Playbacks
-----------------------------------------------------------------------------------------

namespace Player

variable [ToneSink σ] {range : ToneRange} {reporter : ρ → Nat → Nat → ρ} {report : ρ}
variable {other : τ → Nat → Nat → τ} {told : τ} {player : Player σ} {attempts : Nat}

/-- A playback is one without the breakpoints, whatever it tells of its progress; by induction on
its attempts.
-/
theorem Plays.stripped {run : Run σ ρ} (plays : Plays range reporter attempts player report run)
    (confined : player.Confined) (other : τ → Nat → Nat → τ) (told : τ)
    : ∃ fewer last,
        Plays range other fewer player.stripped told
          ⟨run.player.stripped, last,
            run.outcome.map (·.map (·.mapCursor player.program.place))⟩ := by
  induction plays generalizing told with
  | @ended player _ finished =>
      have stays : player.program.current? ≠ some .breakpoint := by
        rw [Option.map_eq_none_iff.mp finished]
        nofun
      have none := attempt?_stripped confined stays range
      rw [finished] at none
      exact ⟨0, told, .ended none⟩
  | @faulted player _ stopped fault raised =>
      obtain ⟨instruction, fails⟩ := fails_of_attempt? raised
      have stays : player.program.current? ≠ some .breakpoint := by
        intro here
        obtain ⟨next, succeeds, -⟩ := attempt?_breakpoint here
        cases raised.symm.trans succeeds
      have raisedStripped := attempt?_stripped confined stays range
      rw [raised] at raisedStripped
      exact ⟨1, told, .faulted raisedStripped⟩
  | @step player _ next attempts run succeeds rest ih =>
      obtain ⟨instruction, move, performs⟩ := performs_of_attempt? succeeds
      have sameCode : next.program.place = player.program.place := by rw [performs.program]; rfl
      have later := ih (confined.performs performs)
      rw [sameCode] at later
      by_cases here : player.program.current? = some .breakpoint
      · obtain ⟨passed, passes, same, -⟩ := attempt?_breakpoint here
        cases succeeds.symm.trans passes
        exact same ▸ later told
      · have succeedsStripped := attempt?_stripped confined here range
        rw [succeeds] at succeedsStripped
        obtain ⟨fewer, last, playsNext⟩ := later _
        exact ⟨fewer + 1, last, .step succeedsStripped playsNext⟩

/-- If there is a playback without the breakpoints, there is one with them, by induction on the
attempts and, where only breakpoints are passed, on what is left of the program.
-/
theorem Confined.exists_plays (confined : player.Confined) {final : Run σ τ}
    (plays : Plays range other attempts player.stripped told final)
    (reporter : ρ → Nat → Nat → ρ) (report : ρ)
    : ∃ more run, Plays range reporter more player report run := by
  induction attempts using Nat.strongRecOn generalizing player told report with
  | ind attempts fewer =>
  induction left : player.program.size - player.program.cursor using Nat.strongRecOn
    generalizing player report with
  | ind left closer =>
  subst left
  by_cases here : player.program.current? = some .breakpoint
  · obtain ⟨next, passes, same, less⟩ := attempt?_breakpoint here
    obtain ⟨instruction, move, performs⟩ := performs_of_attempt? passes
    obtain ⟨more, run, rest⟩ := closer _ less (confined.performs performs) (same ▸ plays) _ rfl
    exact ⟨more + 1, run, .step passes rest⟩
  · have same := attempt?_stripped confined here range
    match attempted : player.attempt? range with
    | none => exact ⟨0, _, .ended attempted⟩
    | some (stopped, some fault) => exact ⟨1, _, .faulted attempted⟩
    | some (next, none) =>
      obtain ⟨instruction, move, performs⟩ := performs_of_attempt? attempted
      rw [attempted] at same
      cases plays with
      | ended finished => cases finished.symm.trans same
      | faulted raised => cases raised.symm.trans same
      | step succeeds later =>
        cases succeeds.symm.trans same
        obtain ⟨more, run, rest⟩ :=
          fewer _ (Nat.lt_succ_self _) (confined.performs performs) later _
        exact ⟨more + 1, run, .step attempted rest⟩

end Player

/-- A well-formed program, played continuously by a new machine, comes to an end exactly if it does
so without its breakpoints. Then both lead to the same requests, the same tempo and the same
outcome, with the places that calls return to, the cursor and the place of a fault moved to where
they are without the breakpoints.
-/
theorem Program.play_stripped (program : Program) (wellFormed : WellFormed program.code.toList)
    [ToneSink σ] (sink : σ) (tempo : UInt32) (maxDepth : Nat)
    : let start : Player σ := ⟨.new tempo maxDepth, program, sink⟩
      let startBare : Player σ := ⟨.new tempo maxDepth, program.stripped, sink⟩
      let whole budget := start.tapped.play .continuous budget
      let bare budget := startBare.tapped.play .continuous budget
      ((∃ budget, (whole budget).isOver) ↔ ∃ budget, (bare budget).isOver)
      ∧ (∀ budget other, (whole budget).isOver → (bare other).isOver
        → (bare other).player.sink = (whole budget).player.sink
          ∧ (bare other).player.machine.tempo = (whole budget).player.machine.tempo
          ∧ (bare other).player.machine.stack
            = (whole budget).player.machine.stack.map (·.mapReturn program.place)
          ∧ (bare other).player.program.cursor
            = program.place (whole budget).player.program.cursor
          ∧ (bare other).outcome
            = (whole budget).outcome.map (·.map (·.mapCursor program.place)))
      ∧ ∀ budget,
          (whole budget).viewed Tap.sink = start.play .continuous budget
          ∧ (bare budget).viewed Tap.sink = startBare.play .continuous budget := by
  intro start startBare whole bare
  have confined : start.tapped.Confined :=
    ⟨fun instruction member target carries => wellFormed.target_le member carries, nofun⟩
  have same : startBare.tapped = start.tapped.stripped := rfl
  refine ⟨⟨?_, ?_⟩, fun budget other isOver overBare => ?_, fun budget => ⟨?_, ?_⟩⟩
  · rintro ⟨budget, isOver⟩
    obtain ⟨attempts, plays⟩ := Player.plays_of_isOver isOver
    obtain ⟨fewer, last, playsBare⟩ := plays.stripped confined (fun _ _ _ => ()) ()
    exact ⟨fewer, (congrArg Run.isOver (playsBare.runWithin_continuous (Nat.le_refl _))).trans
      playsBare.isOver⟩
  · rintro ⟨budget, isOver⟩
    obtain ⟨attempts, playsBare⟩ := Player.plays_of_isOver isOver
    obtain ⟨more, run, plays⟩ := confined.exists_plays playsBare (fun _ _ _ => ()) ()
    exact ⟨more, (congrArg Run.isOver (plays.runWithin_continuous (Nat.le_refl _))).trans
      plays.isOver⟩
  · obtain ⟨attempts, plays⟩ := Player.plays_of_isOver isOver
    obtain ⟨others, playsBare⟩ := Player.plays_of_isOver overBare
    obtain ⟨fewer, last, playsStripped⟩ := plays.stripped confined (fun _ _ _ => ()) ()
    have final
        : bare other
          = ⟨(whole budget).player.stripped, last,
              (whole budget).outcome.map (·.map (·.mapCursor program.place))⟩ :=
      playsBare.unique playsStripped
    have samePlace : (whole budget).player.program.place = program.place :=
      congrArg (fun code => place { code }) (Player.code_runWithin .continuous budget _ ())
    rw [final, ← samePlace]
    exact ⟨rfl, rfl, rfl, rfl, rfl⟩
  · exact (Player.run_viewed Tap.isView_sink start.tapped .continuous _ () budget).symm
  · exact (Player.run_viewed Tap.isView_sink startBare.tapped .continuous _ () budget).symm

/-- Breakpoints at the start of a loop's body, after a call and at the targets of a call and a jump
do not change where a return without a call is met.
-/
theorem Program.play_stripped_fault
    : let source := Ascii.encode ("BREAK REPEAT 2 BREAK CALL sub BREAK END JUMP last "
        ++ "LABEL sub BREAK A4 5ms RETURN LABEL last BREAK RETURN").toList
      let program : Program :=
        { code := #[.breakpoint, .repeatOpen 2 6, .breakpoint, .call 7, .breakpoint,
          .repeatClose 2, .jump 10, .breakpoint, .note 440 (.millis 5), .comeBack, .breakpoint,
          .comeBack] }
      let bare : Program :=
        { code := #[.repeatOpen 2 3, .call 4, .repeatClose 1, .jump 6, .note 440 (.millis 5),
          .comeBack, .comeBack] }
      let play (program : Program) (budget : Nat) :=
        (Player.tapped ⟨.new 120 2, program, ({} : Recorder)⟩).play .continuous budget
      compile source = .ok program
      ∧ program.stripped = bare
      ∧ (play program 99).outcome = some (.faulted ⟨.returnWithoutCall, 11⟩)
      ∧ (play bare 99).outcome = some (.faulted ⟨.returnWithoutCall, 6⟩)
      ∧ (play bare 99).player.sink.requests = (play program 99).player.sink.requests := by
  intro source program bare play
  have compiled : compile source = .ok program := by decide +kernel
  have same : program.stripped = bare := by decide +kernel
  have faulted : (play program 99).outcome = some (.faulted ⟨.returnWithoutCall, 11⟩) := by
    decide +kernel
  obtain ⟨-, equal, -⟩ :=
    program.play_stripped (wellFormed_of_compile compiled) ({} : Recorder) 120 2
  rw [same] at equal
  obtain ⟨sink, -, -, -, outcome⟩ := equal 99 99 (by decide +kernel) (by decide +kernel)
  rw [faulted] at outcome
  exact ⟨compiled, same, faulted, outcome, by rw [← sink]⟩

end Chiptune

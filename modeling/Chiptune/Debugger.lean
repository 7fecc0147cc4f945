import Chiptune.Player
import Chiptune.Report

/-! Playing a program one command at a time. Every command is one run, and the user is shown where
it stopped.
-/

namespace Chiptune

/-- What a user asks a debugger to do. -/
inductive DebugCommand where
  /-- Execute one instruction. -/
  | step
  /-- Run to the next breakpoint. -/
  | resume
  /-- Leave the song where it is. -/
  | quit
deriving DecidableEq

/-- A key of a keyboard. -/
inductive Key where
  | character (character : Char)
  | enter
  | escape
  | other
deriving DecidableEq

/-- The command of a key, pressed with or without the control key. -/
def Key.command? (key : Key) (withControl : Bool) : Option DebugCommand :=
  if withControl then
    match key with
    | .character 'c' => some .quit
    | .character 'd' => some .quit
    | _ => none
  else
    match key with
    | .character ' ' => some .step
    | .enter => some .step
    | .character 's' => some .step
    | .character 'c' => some .resume
    | .character 'q' => some .quit
    | .escape => some .quit
    | _ => none

/-- How a debug session ended. -/
inductive DebugExit where
  /-- The song ended or had a fault. -/
  | finished (outcome : Outcome Fault)
  /-- The user left the song before the instruction at `cursor`. -/
  | quit (cursor : Nat)
deriving DecidableEq

/-- A debug session so far; `exit` is missing if a budget was spent first. -/
structure DebugSession (σ : Type) where
  player : Player σ
  /-- The lines shown to the user, the last one first. -/
  shown : List String
  exit : Option DebugExit

namespace Debugger

/-- The commands of a list, and then none but to quit. -/
def scripted (commands : List DebugCommand) : Nat → DebugCommand :=
  fun index => commands.getD index .quit

/-- Steps without end, for a song that nobody watches. -/
def automatic : Nat → DebugCommand :=
  fun _ => .step

/-- The line on where a player stands. -/
def line (player : Player σ) (outcome : Outcome Fault) : String :=
  Report.outcome (outcome.map Fault.summary) player.program

variable [ToneSink σ]

/-- Follows the commands with the given numbers, at most `limit` of them. -/
def follow (commands : Nat → DebugCommand) (budget : Nat) (player : Player σ)
    (shown : List String) (index : Nat)
    : (limit : Nat) → DebugSession σ
  | 0 => ⟨player, shown, none⟩
  | limit + 1 =>
    match commands index with
    | .quit => ⟨player, shown, some (.quit player.program.cursor)⟩
    | command =>
      let mode := if command = .step then Mode.singleStep else .untilBreakpoint
      let run := player.play mode budget
      match run.outcome with
      | none => ⟨run.player, shown, none⟩
      | some outcome =>
        let told := line run.player outcome :: shown
        if outcome.isSuspended then follow commands budget run.player told (index + 1) limit
        else ⟨run.player, told, some (.finished outcome)⟩

/-- A session from the cursor until the song ends or has a fault, or the user quits. A song that
is at its end needs no command, and nothing is shown for it. Every run has the given budget, and no
more commands than that are followed.
-/
def session (commands : Nat → DebugCommand) (budget : Nat) (player : Player σ)
    : DebugSession σ :=
  if player.program.isFinished then ⟨player, [], some (.finished .ended)⟩
  else
    follow commands budget player [line player (.suspended player.program.cursor)] 0 budget

end Debugger

end Chiptune

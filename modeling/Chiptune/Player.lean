import Chiptune.Player.Execute

/-! Playing a program on an output. A run attempts one instruction after another until the song
ends, an instruction has a fault, or the mode of the run suspends it; it can then be resumed. A run
has a budget of attempts, because a song need not end, and keeps its state when that is spent.
-/

namespace Chiptune

/-- How far a run goes. -/
inductive Mode where
  /-- To the end of the song or the first fault. -/
  | continuous
  /-- Over one instruction. -/
  | singleStep
  /-- To the next breakpoint. -/
  | untilBreakpoint
deriving DecidableEq

/-- Whether a run stops before an instruction that is not its first. -/
def Mode.suspends : Mode → Instruction → Bool
  | .continuous, _ => false
  | .singleStep, _ => true
  | .untilBreakpoint, instruction => instruction = .breakpoint

/-- What a run leads to: `outcome` is missing if the budget was spent first. -/
structure Run (σ ρ : Type) where
  player : Player σ
  report : ρ
  outcome : Option (Outcome Fault)

namespace Player

variable [ToneSink σ]

/-- Executes `instruction`, which is under the cursor: the player after it, and the fault if
there is one, which the machine then remembers.
-/
def attempt (player : Player σ) (range : ToneRange) (instruction : Instruction)
    : Player σ × Option Fault :=
  match (execute range instruction).run player with
  | .ok () next => (next, none)
  | .error fault stopped => ({ stopped with machine.lastFault := some fault }, some fault)

/-- Whether a run in a mode stops before the instruction under the cursor. -/
def suspends (player : Player σ) (mode : Mode) : Bool :=
  player.program.current?.any mode.suspends

/-- Plays for at most `budget` attempts of instructions, in the given range of tones. The reporter
learns the cursor and the size of the program after every instruction that succeeds.
-/
def runWithin (range : ToneRange) (mode : Mode) (reporter : ρ → Nat → Nat → ρ) (budget : Nat)
    (player : Player σ) (report : ρ)
    : Run σ ρ :=
  match player.program.current? with
  | none => ⟨player, report, some .ended⟩
  | some instruction =>
    match budget with
    | 0 => ⟨player, report, none⟩
    | budget + 1 =>
      match player.attempt range instruction with
      | (stopped, some fault) => ⟨stopped, report, some (.faulted fault)⟩
      | (next, none) =>
        let told := reporter report next.program.cursor next.program.size
        if next.suspends mode then ⟨next, told, some (.suspended next.program.cursor)⟩
        else runWithin range mode reporter budget next told

/-- Plays from the cursor, in the range that the output has at the start. The instruction under
the cursor is executed whatever the mode, so that every run makes progress.
-/
def run (player : Player σ) (mode : Mode) (reporter : ρ → Nat → Nat → ρ) (report : ρ)
    (budget : Nat)
    : Run σ ρ :=
  runWithin (ToneSink.range player.sink) mode reporter budget player report

/-- A run without a reporter. -/
def play (player : Player σ) (mode : Mode) (budget : Nat) : Run σ Unit :=
  player.run mode (fun _ _ _ => ()) () budget

/-- Runs one mode after another up to the first outcome that is not a suspension: the last run, and
how many were made. The first `made` runs were made before, and at most `calls` are still made.
-/
def runsAfter (made : Nat) (player : Player σ) (modes : Nat → Mode)
    (reporter : ρ → Nat → Nat → ρ) (report : ρ) (budget : Nat)
    : (calls : Nat) → Run σ ρ × Nat
  | 0 => (⟨player, report, none⟩, made)
  | calls + 1 =>
    let run := player.run (modes made) reporter report budget
    match run.outcome, calls with
    | some (.suspended _), calls + 1 =>
      runsAfter (made + 1) run.player modes reporter run.report budget (calls + 1)
    | _, _ => (run, made + 1)

/-- Runs one mode after another, for at most `calls` runs, up to the first outcome that is not a
suspension: the last run, and how many were made. Each run has the same budget.
-/
def runs (player : Player σ) (modes : Nat → Mode) (reporter : ρ → Nat → Nat → ρ) (report : ρ)
    (budget calls : Nat)
    : Run σ ρ × Nat :=
  player.runsAfter 0 modes reporter report budget calls

end Player

end Chiptune

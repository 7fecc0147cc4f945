import Chiptune.Debugger
import Chiptune.Settings

/-! Playing a song from the command line: what is shown meanwhile, and with which exit the program
ends.
-/

namespace Chiptune

/-- How the program ends. -/
inductive Exit where
  | success
  | usage
  | cannotOpen
  | cannotQuery
  | noSound
  | badSong
  | fault
  /-- The program was stopped at an operation without a result. What the system reports of this is
  no part of a transcript.
  -/
  | stopped
deriving DecidableEq

/-- The exit code that the system is told. -/
def Exit.code : Exit → Nat
  | .success => 0
  | .usage => 1
  | .cannotOpen => 2
  | .cannotQuery => 3
  | .noSound => 4
  | .badSong => 5
  | .fault => 6
  | .stopped => 101

/-- How a song is presented. -/
structure Presentation where
  /-- Whether the user steps through the song. -/
  debug : Bool
  /-- Whether a progress line is shown; a user who steps through the song sees none. -/
  display : Bool
deriving DecidableEq

/-- A song that was played: the output after it, what was shown, and the exit. -/
structure Performance (σ : Type) where
  sink : σ
  shown : String
  exit : Exit

/-- Where a performance stands when a budget is spent, unless it has ended before. -/
inductive PerformanceStatus (σ : Type) where
  | underway (player : Player σ) (shown : String)
  | ended (performance : Performance σ)

/-- The performance that has ended. -/
def PerformanceStatus.performance? : PerformanceStatus σ → Option (Performance σ)
  | .underway .. => none
  | .ended performance => some performance

/-- A text as a line. -/
def asLine (text : String) : String :=
  text ++ "\n"

namespace Performance

variable [ToneSink σ]

/-- The performance after playing has stopped for good. After a fault the output is asked to be
silent, and the fault is reported unless the user has seen it.
-/
def conclude (player : Player σ) (outcome : Outcome Fault) (shown : String) (isReported : Bool)
    : Performance σ :=
  match outcome.fault? with
  | none => ⟨player.sink, shown, .success⟩
  | some _ =>
    let report := asLine (Debugger.line player outcome)
    let silenced := (ToneSink.emit player.sink .stop).1
    ⟨silenced, if isReported then shown else shown ++ report, .fault⟩

/-- The performance after a debug session, which has shown where it stopped. -/
def closing (session : DebugSession σ) (shown : String) : DebugExit → Performance σ
  | .quit _ => ⟨(ToneSink.emit session.player.sink .stop).1, shown, .success⟩
  | .finished outcome => conclude session.player outcome shown true

/-- Where a performance stands after a debug session. -/
def ofSession (session : DebugSession σ) : PerformanceStatus σ :=
  let shown := String.join (session.shown.reverse.map asLine)
  match session.exit with
  | none => .underway session.player shown
  | some exit => .ended (closing session shown exit)

/-- The progress line with one more report, which replaces the one before on a screen. -/
def showProgress (display : Bool) (shown : String) (cursor size : Nat) : String :=
  if display then shown ++ "\r" ++ Report.progress cursor size else shown

/-- Where a performance stands after a run. -/
def ofRun (display : Bool) (run : Run σ String) : PerformanceStatus σ :=
  match run.outcome with
  | none => .underway run.player run.report
  | some outcome =>
    let shown := if display then asLine run.report else run.report
    .ended (conclude run.player outcome shown false)

/-- Plays a song without a stop. -/
def playThrough (display : Bool) (budget : Nat) (player : Player σ) : PerformanceStatus σ :=
  ofRun display (player.run .continuous (showProgress display) "" budget)

/-- Begins to play a song. A song that is stepped through steps by itself. -/
def start (presentation : Presentation) (budget : Nat) (player : Player σ)
    : PerformanceStatus σ :=
  if presentation.debug then ofSession (Debugger.session Debugger.automatic budget player)
  else playThrough presentation.display budget player

/-- Goes on with a song that is underway. -/
def proceed (presentation : Presentation) (budget : Nat) (player : Player σ)
    : PerformanceStatus σ :=
  if presentation.debug then
    ofSession (Debugger.follow Debugger.automatic budget player [] 0 budget)
  else playThrough presentation.display budget player

/-- The performance of a song on an output; none if the budget is spent before it ends. -/
def perform? (presentation : Presentation) (player : Player σ) (budget : Nat)
    : Option (Performance σ) :=
  (start presentation budget player).performance?

end Performance

end Chiptune

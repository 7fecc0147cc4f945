import Chiptune.CompileError
import Chiptune.Fault
import Chiptune.Program
import Chiptune.Text.Lines
import Chiptune.Text.Utf8

/-! What a player tells its user: progress, where and why a song stopped, what is wrong with a
text, and which tones a song consists of.
-/

namespace Chiptune.Report

/-- How far a song has come. -/
def progress (cursor size : Nat) : String :=
  s!"{cursor}/{size}"

/-- One line on where a program stopped and why. -/
def outcome (outcome : Outcome FaultSummary) (program : Program) : String :=
  match outcome with
  | .ended => s!"ended after {program.size} instructions"
  | .suspended cursor =>
    let place := s!"break at {progress cursor program.size}"
    match program.code[cursor]? with
    | some next => s!"{place}: next {next.describe}"
    | none => place
  | .faulted fault =>
    match program.code[fault.cursor]? with
    | some instruction => s!"fault: {fault.describe} [{instruction.describe}]"
    | none => s!"fault: {fault.describe}"

/-- A diagnostic, the line at fault and a caret under the column at fault. -/
def diagnostic (diagnostic : Diagnostic) (source : List UInt8) : String :=
  let header := s!"compile error: {diagnostic.describe}"
  match (Lines.lines (Utf8.decodeLossy source))[diagnostic.position.line - 1]? with
  | none => header
  | some line =>
    let blanks := String.ofList (List.replicate (diagnostic.position.column - 1) ' ')
    s!"{header}\n  {String.ofList line}\n  {blanks}^"

/-- A number with blanks in front of it up to a width. -/
def padded (width : Nat) (number : UInt32) : String :=
  let digits := toString number
  String.ofList (List.replicate (width - digits.length) ' ') ++ digits

/-- The line of one tone in a listing. -/
def toneLine (tone : Tone) : String :=
  if tone.frequency = 0 then s!"rest {padded 6 tone.millis} ms\n"
  else s!"{padded 5 tone.frequency} Hz {padded 6 tone.millis} ms\n"

/-- All tones, one to a line, and their number and total duration. -/
def toneListing (tones : List Tone) : String :=
  String.join (tones.map toneLine) ++ s!"{tones.length} tones, {Tone.totalMillis tones} ms\n"

end Chiptune.Report

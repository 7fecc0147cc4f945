import Chiptune.Yaml.Cursor

/-! Plain scalars, which are written without quotes. They end at a comment, at a colon before a
blank, at a bracket or comma within brackets, or at a line that is not indented enough.
-/

namespace Chiptune.Yaml.Plain

/-- The characters up to a blank or the end of the scalar; none where a colon within brackets
stands before an indicator.
-/
def run? (inFlow : Bool) : List Char → Option (List Char)
  | [] => some []
  | character :: rest =>
    if isGap character || (inFlow && isFlowIndicator character) then some []
    else if character = ':' && endsWord rest then some []
    else if inFlow && character = ':' && rest.head?.any (fun c => isFlowIndicator c || c = '?') then
      none
    else (run? inFlow rest).map (character :: ·)

/-- Whether a run of blanks and line ends that starts in some column has a tab where a line has to
be indented.
-/
def hasTabInIndent (indent : Nat) (isContinued : Bool) (column : Nat) : List Char → Bool
  | [] => false
  | character :: rest =>
    if isBreak character then hasTabInIndent indent true 0 rest
    else
      (isContinued && column < indent && character = '\t')
        || hasTabInIndent indent isContinued (column + 1) rest

/-- A scalar, the place after it and after the blanks that follow, and whether a line ends between
the two.
-/
structure Scanned where
  text : List Char
  cursor : Cursor
  endsLine : Bool

/-- Scans on after `text` and the blanks `gap`. -/
def scanFrom (inFlow : Bool) (indent : Nat) (text gap : List Char) (cursor : Cursor)
    : (fuel : Nat) → Option Scanned
  | 0 => none
  | fuel + 1 => do
    let stopped : Scanned := ⟨text, cursor, !(lineEnds gap).isEmpty⟩
    if cursor.isAtAnyMark || cursor.isAt '#' then return stopped
    let run ← run? inFlow cursor.rest
    if run.isEmpty then return stopped
    let longer := text ++ fold gap ++ run
    let afterRun := cursor.advanceBy run.length
    let (next, afterGap) := afterRun.takeWhile isGap
    if next.isEmpty then return ⟨longer, afterRun, false⟩
    if hasTabInIndent indent false afterRun.column next then none
    else if !inFlow && afterGap.column < indent then
      return ⟨longer, afterGap, !(lineEnds next).isEmpty⟩
    else scanFrom inFlow indent longer next afterGap fuel

/-- The plain scalar that begins here; lines after the first have to be indented by `indent`. -/
def scan? (inFlow : Bool) (indent : Nat) (cursor : Cursor) : Option Scanned :=
  scanFrom inFlow indent [] [] cursor (cursor.rest.length + 1)

end Chiptune.Yaml.Plain

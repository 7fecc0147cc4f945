/-! Lines of a text. A line ends at a line feed or at the end of the text; a carriage return
directly before the line feed belongs to the line break, and any other one to the line.
-/

namespace Chiptune.Lines

/-- A line without the carriage return of its line break. -/
def withoutReturn (line : List Char) : List Char :=
  if line.getLast? = some '\r' then line.dropLast else line

/-- The lines of a text after a line that begins with `read`, which holds the characters read so
far, the last one first. A text that ends with a line feed has no empty line after it.
-/
def linesFrom (read : List Char) : List Char → List (List Char)
  | [] => if read.isEmpty then [] else [read.reverse]
  | character :: rest =>
    if character = '\n' then withoutReturn read.reverse :: linesFrom [] rest
    else linesFrom (character :: read) rest

/-- The lines of a text. -/
def lines (text : List Char) : List (List Char) :=
  linesFrom [] text

end Chiptune.Lines

import Chiptune.Program
import Chiptune.Statement

/-! From statements to a program, in one pass. Every statement other than a label becomes one
instruction at once. What it cannot know yet is put in later: the exit of a loop when the loop is
closed, and the target of a jump or call after the last statement.
-/

namespace Chiptune

/-- A jump or call whose label may be defined further on. -/
structure Reference where
  /-- Index of the jump or call. -/
  index : Nat
  label : String
  position : Position
deriving DecidableEq

/-- A program under construction. -/
structure Draft where
  code : Array Instruction := #[]
  /-- Labels and their targets, the latest first. -/
  labels : List (String × Nat) := []
  /-- Jumps and calls without their targets, the latest first. -/
  references : List Reference := []
  /-- Index and place of each loop that is still open, the innermost first. -/
  openLoops : List (Nat × Position) := []
deriving DecidableEq

namespace Draft

/-- The draft with one more instruction. -/
def push (draft : Draft) (instruction : Instruction) : Draft :=
  { draft with code := draft.code.push instruction }

/-- The draft with one more jump or call, which refers to `label`. -/
def pushReference (draft : Draft) (instruction : Instruction) (label : String)
    (position : Position)
    : Draft :=
  { draft.push instruction with
    references := ⟨draft.code.size, label, position⟩ :: draft.references }

/-- The draft with one more statement, which stands at `position`. -/
def add (draft : Draft) (position : Position) : Statement → Except CompileFailure Draft
  | .note frequency length => .ok (draft.push (.note frequency length))
  | .rest length => .ok (draft.push (.rest length))
  | .tempo beats => .ok (draft.push (.tempo beats))
  | .comeBack => .ok (draft.push .comeBack)
  | .breakpoint => .ok (draft.push .breakpoint)
  | .jump label => .ok (draft.pushReference (.jump 0) label position)
  | .call label => .ok (draft.pushReference (.call 0) label position)
  | .label name =>
    match draft.labels.lookup name with
    | some _ => reject (.labelRedefined name) position
    | none => .ok { draft with labels := (name, draft.code.size) :: draft.labels }
  | .repeatOpen count =>
    .ok
      { draft.push (.repeatOpen count 0) with
        openLoops := (draft.code.size, position) :: draft.openLoops }
  | .repeatClose =>
    match draft.openLoops with
    | [] => reject .closeWithoutOpen position
    | (start, _) :: outer =>
      let closed := draft.code.push (.repeatClose (start + 1))
      let patched := (Trap.modify closed start (·.withExit closed.size)).mapError .trapped
      patched.map fun code => { draft with code, openLoops := outer }

/-- The draft with the statements of a list of tokens, up to the first failure. -/
def addAll (draft : Draft) : List Token → Except CompileFailure Draft
  | [] => .ok draft
  | head :: rest =>
    match Statement.ofTokens? head (Statement.argumentOf rest) with
    | .error failure => .error failure
    | .ok none => draft.addAll rest
    | .ok (some statement) =>
      match draft.add head.position statement, rest with
      | .error failure, _ => .error failure
      | .ok next, [] => .ok next
      | .ok next, following :: later =>
        if statement.hasArgument then next.addAll later else next.addAll (following :: later)

/-- The instructions with the target of one jump or call put in. -/
def resolve (labels : List (String × Nat)) (code : Array Instruction) (reference : Reference)
    : Except CompileFailure (Array Instruction) :=
  match labels.lookup reference.label with
  | some target => (Trap.modify code reference.index (·.withTarget target)).mapError .trapped
  | none => reject (.labelUndefined reference.label) reference.position

/-- The finished program: every loop is closed, and every label that is referred to is defined. -/
def finish (draft : Draft) : Except CompileFailure Program :=
  match draft.openLoops with
  | (_, position) :: _ => reject .openWithoutClose position
  | [] => (draft.references.reverse.foldlM (resolve draft.labels) draft.code).map ({ code := · })

end Draft

namespace Program

/-- The program of a list of tokens. -/
def ofTokens (tokens : List Token) : Except CompileFailure Program :=
  (Draft.addAll {} tokens).bind Draft.finish

/-- The program of a song's text, or the first failure to compile it. -/
def compile (source : List UInt8) : Except CompileFailure Program :=
  ((Token.scan source).mapError .rejected).bind ofTokens

variable {source : List UInt8}

theorem compile_of_scan {tokens : List Token} (scanned : Token.scan source = .ok tokens)
    : compile source = ofTokens tokens := by
  rw [compile, scanned]
  rfl

theorem compile_of_stray {error : CompileError} (scanned : Token.scan source = .error error)
    : compile source = .error (.rejected error) := by
  rw [compile, scanned]
  rfl

end Program

end Chiptune

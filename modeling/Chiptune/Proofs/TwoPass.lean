import Chiptune.Proofs.StatementList

/-! A second reading of a song: its statements are numbered first, and only then is each of them
turned into an instruction. Nothing is put in later, because every statement is seen together with
all that stands before and after it.
-/

namespace Chiptune

namespace Statement

def opensLoop : Statement → Bool
  | .repeatOpen _ => true
  | _ => false

/-- How many loops are open after a statement, of `depth` before it; none if it closes one more. -/
def depthAfter? (depth : Nat) (statement : Statement) : Option Nat :=
  if statement.opensLoop then some (depth + 1)
  else if statement = .repeatClose then if depth = 0 then none else some (depth - 1)
  else some depth

/-- Whether a statement only names the place of the next instruction. -/
def isLabel : Statement → Bool
  | .label _ => true
  | _ => false

/-- The label that a statement refers to. -/
def reference? : Statement → Option String
  | .jump name => some name
  | .call name => some name
  | _ => none

end Statement

namespace TwoPass

/-- An element of a list between what stands before and after it. -/
structure Context (α : Type) where
  before : List α
  focus : α
  after : List α

/-- The elements of a list in their contexts, with `before` in front of all of them. -/
def contexts (before : List α) : List α → List (Context α)
  | [] => []
  | focus :: after => ⟨before, focus, after⟩ :: contexts (before ++ [focus]) after

/-- The number of instructions of a list of statements: one each, and none for a label. -/
def size (statements : List Statement) : Nat :=
  statements.countP (!·.isLabel)

/-- The statements up to the one that closes a loop, of which `depth` inner loops are open at the
front; none if nothing closes it.
-/
def bodyOf? (depth : Nat) : List Statement → Option (List Statement)
  | [] => none
  | statement :: rest =>
    match statement.depthAfter? depth with
    | none => some []
    | some depth => (bodyOf? depth rest).map (statement :: ·)

namespace Context

def plain (context : Context PlacedStatement) : Context Statement :=
  ⟨PlacedStatement.statements context.before, context.focus.statement,
    PlacedStatement.statements context.after⟩

/-- Whether a statement opens a loop that nothing closes. -/
def isUnclosed (context : Context Statement) : Bool :=
  context.focus.opensLoop && (bodyOf? 0 context.after).isNone

/-- Whether a statement opens the loop that a closing directly after the whole list would close. -/
def isLastOpen (context : Context Statement) : Bool :=
  context.focus.opensLoop
    && bodyOf? 0 (context.after ++ [.repeatClose]) = some context.after

/-- The number of the instruction that a statement becomes. -/
def number (context : Context Statement) : Nat :=
  size context.before

/-- The index after the closing of the loop that a statement opens. -/
def exit (context : Context Statement) : Nat :=
  match bodyOf? 0 context.after with
  | some body => context.number + 1 + size body + 1
  | none => 0

end Context

/-- The opening of the loop that a closing after `before` closes. -/
def opening? (before : List Statement) : Option (Context Statement) :=
  (contexts [] before).find? Context.isLastOpen

/-- The index after the opening of the loop that a closing after `before` closes. -/
def body (before : List Statement) : Nat :=
  match opening? before with
  | some opening => opening.number + 1
  | none => 0

/-- The index that a label stands for: the number of instructions before its definition. -/
def target? (name : String) (statements : List Statement) : Option Nat :=
  (contexts [] statements).findSome? fun context =>
    if context.focus = .label name then some context.number else none

/-- The instruction that a statement becomes, where labels stand for the given targets. -/
def instruction? (target : String → Nat) (context : Context Statement) : Option Instruction :=
  match context.focus with
  | .note frequency length => some (.note frequency length)
  | .rest length => some (.rest length)
  | .tempo beats => some (.tempo beats)
  | .repeatOpen count => some (.repeatOpen count context.exit)
  | .repeatClose => some (.repeatClose (body context.before))
  | .label _ => none
  | .jump name => some (.jump (target name))
  | .call name => some (.call (target name))
  | .comeBack => some .comeBack
  | .breakpoint => some .breakpoint

/-- The instructions that statements become, where labels stand for the given targets. -/
def code (target : String → Nat) (statements : List Statement) : List Instruction :=
  (contexts [] statements).filterMap (instruction? target)

/-- Why a statement cannot stand where it does, if it cannot. -/
def fault? (context : Context Statement) : Option CompileErrorCause :=
  match context.focus with
  | .repeatClose => if (opening? context.before).isNone then some .closeWithoutOpen else none
  | .label name => if .label name ∈ context.before then some (.labelRedefined name) else none
  | _ => none

/-- The error at the earliest statement that cannot stand where it does. -/
def firstFault? (placed : List PlacedStatement) : Option CompileError :=
  (contexts [] placed).findSome? fun context =>
    (fault? context.plain).map (⟨·, context.focus.position⟩)

/-- The error at the last opening of a loop that nothing closes. -/
def lastUnclosed? (placed : List PlacedStatement) : Option CompileError :=
  ((contexts [] placed).filter (·.plain.isUnclosed)).getLast?.map fun context =>
    ⟨.openWithoutClose, context.focus.position⟩

/-- Why a jump or call leads nowhere, if it does. -/
def undefined? (isDefined : String → Bool) (placed : PlacedStatement)
    : Option CompileError :=
  placed.statement.reference?.bind fun name =>
    if isDefined name then none else some ⟨.labelUndefined name, placed.position⟩

/-- The error at the earliest jump or call to a label that is defined nowhere. -/
def firstUndefined? (placed : List PlacedStatement) : Option CompileError :=
  placed.findSome? <|
    undefined? fun name => .label name ∈ PlacedStatement.statements placed

/-- The failure in a list of statements that comes first: a statement that is malformed or cannot
stand where it does comes before a loop without end, and that before an undefined label.
-/
def failure? (list : StatementList) : Option CompileFailure :=
  (firstFault? list.placed).map .rejected <|> list.malformed
    <|> (lastUnclosed? list.placed <|> firstUndefined? list.placed).map .rejected

/-- The program of a list of statements. -/
def program (list : StatementList) : Except CompileFailure Program :=
  match failure? list with
  | some failure => .error failure
  | none =>
    let target name := (target? name list.statements).getD 0
    .ok { code := (code target list.statements).toArray }

end TwoPass

end Chiptune
